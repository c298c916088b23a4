import Rackphone.Dtmf

/-!
# Tones come out whole and in order

`dtmfFreeAt` is never before the end of the gap after any tone that was posted. So a request starts
behind them all, its messages go to the end of the queue, and its own tones follow each other at
the length of a tone and a gap.
-/

namespace Rackphone.Dtmf

variable {c : CallControl} {r : Request}

/-! ## Posting -/

theorem postAtTime_of_le {m : Message} : ∀ {queue : List Message},
    (∀ m' ∈ queue, m'.time ≤ m.time) → postAtTime m queue = queue ++ [m]
  | [], _ => rfl
  | m' :: queue, h => by
    obtain ⟨hm', hqueue⟩ := List.forall_mem_cons.1 h
    rw [postAtTime, if_pos hm', postAtTime_of_le hqueue, List.cons_append]

/-- The tones of a request, from the digit at `index`. -/
def tonesFrom (call : ℕ) (start : ℤ) : ℕ → List Char → List Tone
  | _, [] => []
  | index, digit :: digits =>
    ⟨start + index * (TONE_MS + GAP_MS), call, digit⟩ :: tonesFrom call start (index + 1) digits

theorem forall_mem_messages {t : Tone} {time : ℤ} (h : t.start + TONE_MS ≤ time) :
    ∀ m ∈ t.messages, m.time ≤ time := by
  have htone : t.start ≤ time := by
    simp only [TONE_MS] at h
    omega
  simp only [Tone.messages, List.mem_cons, List.not_mem_nil, or_false]
  rintro m (rfl | rfl)
  · exact htone
  · exact h

theorem post_eq_append (call : ℕ) (start : ℤ) : ∀ (index : ℕ) (digits : List Char)
    {queue : List Message}, (∀ m ∈ queue, m.time ≤ start + index * (TONE_MS + GAP_MS)) →
      post call start index digits queue
        = queue ++ (tonesFrom call start index digits).flatMap Tone.messages
  | index, [], queue, _ => by simp [post, tonesFrom]
  | index, digit :: digits, queue, h => by
    set t : Tone := ⟨start + index * (TONE_MS + GAP_MS), call, digit⟩ with ht
    have hplay : postAtTime ⟨t.start, call, .playDtmfTone digit⟩ queue
        = queue ++ [⟨t.start, call, .playDtmfTone digit⟩] := postAtTime_of_le h
    have hstop : postAtTime ⟨t.start + TONE_MS, call, .stopDtmfTone⟩
        (queue ++ [⟨t.start, call, .playDtmfTone digit⟩]) = queue ++ t.messages := by
      rw [postAtTime_of_le, List.append_assoc]
      · rfl
      · intro m hm
        rcases List.mem_append.1 hm with hm | hm
        · have hle := h m hm
          simp only [ht, TONE_MS] at hle ⊢
          omega
        · rw [List.mem_singleton.1 hm]
          simp [TONE_MS]
    have hnext : ∀ m ∈ queue ++ t.messages,
        m.time ≤ start + (index + 1 : ℕ) * (TONE_MS + GAP_MS) := by
      intro m hm
      rcases List.mem_append.1 hm with hm | hm
      · have hle := h m hm
        simp only [TONE_MS, GAP_MS] at hle ⊢
        omega
      · refine forall_mem_messages ?_ m hm
        simp only [ht, TONE_MS, GAP_MS]
        omega
    rw [post, hplay, hstop, post_eq_append call start (index + 1) digits hnext, tonesFrom,
      List.flatMap_cons, List.append_assoc]

/-! ## The tones of one request -/

theorem mem_tonesFrom {call : ℕ} {start : ℤ} {t : Tone} : ∀ {index : ℕ} {digits : List Char},
    t ∈ tonesFrom call start index digits →
      start + index * (TONE_MS + GAP_MS) ≤ t.start
        ∧ t.start + TONE_MS + GAP_MS ≤ start + (index + digits.length : ℕ) * (TONE_MS + GAP_MS)
  | index, [], h => absurd h List.not_mem_nil
  | index, digit :: digits, h => by
    rw [tonesFrom, List.mem_cons] at h
    rw [List.length_cons]
    rcases h with rfl | h
    · simp only [TONE_MS, GAP_MS]
      omega
    · have ih := mem_tonesFrom h
      simp only [TONE_MS, GAP_MS] at ih ⊢
      omega

theorem pairwise_tonesFrom (call : ℕ) (start : ℤ) : ∀ (index : ℕ) (digits : List Char),
    (tonesFrom call start index digits).Pairwise Tone.Before
  | _, [] => List.Pairwise.nil
  | index, digit :: digits => by
    refine List.Pairwise.cons (fun u hu => ?_) (pairwise_tonesFrom call start (index + 1) digits)
    have hfrom := (mem_tonesFrom hu).1
    simp only [Tone.Before, TONE_MS, GAP_MS] at hfrom ⊢
    omega

theorem tonesFrom_answers (call : ℕ) {uptimeMillis start : ℤ} (h : uptimeMillis ≤ start) :
    ∀ (index : ℕ) (digits : List Char),
      List.Forall₂ Tone.Answers (tonesFrom call start index digits)
        (digits.map fun digit => ⟨uptimeMillis, call, digit⟩)
  | _, [] => .nil
  | index, digit :: digits => by
    refine .cons ⟨rfl, rfl, ?_⟩ (tonesFrom_answers call h (index + 1) digits)
    simp only [TONE_MS, GAP_MS]
    omega

/-! ## Runs -/

/-- The queue is these tones, for these keys, and the next request starts behind them. -/
structure Queued (c : CallControl) (presses : List Press) (tones : List Tone) : Prop where
  queue : c.queue = tones.flatMap Tone.messages
  answers : List.Forall₂ Tone.Answers tones presses
  apart : tones.Pairwise Tone.Before
  free : ∀ t ∈ tones, t.start + TONE_MS + GAP_MS ≤ c.dtmfFreeAt

theorem start_queued : Queued start [] [] :=
  ⟨rfl, .nil, List.Pairwise.nil, fun _ ht => absurd ht List.not_mem_nil⟩

theorem Queued.time_le {presses : List Press} {tones : List Tone} (h : Queued c presses tones) :
    ∀ m ∈ c.queue, m.time ≤ c.dtmfFreeAt := by
  intro m hm
  rw [h.queue] at hm
  obtain ⟨t, ht, hm⟩ := List.mem_flatMap.1 hm
  refine forall_mem_messages ?_ m hm
  have hfree := h.free t ht
  simp only [TONE_MS, GAP_MS] at hfree ⊢
  omega

/-- What a request does: nothing, where it asks for no key, or its keys' tones are queued from the
time that is free. -/
theorem step_cases (c : CallControl) (r : Request) :
    (r.presses = [] ∧ step c r = c) ∨
    ∃ call : ℕ, r.presses = r.digits.map (fun digit => ⟨r.uptimeMillis, call, digit⟩) ∧
      step c r = ⟨max r.uptimeMillis c.dtmfFreeAt + r.digits.length * (TONE_MS + GAP_MS),
        post call (max r.uptimeMillis c.dtmfFreeAt) 0 r.digits c.queue⟩ := by
  unfold step dtmf Request.presses
  cases hdigits : isDtmfDigits r.digits with
  | false => exact .inl ⟨by cases r.current <;> simp, by simp⟩
  | true =>
    cases r.current with
    | none => exact .inl ⟨rfl, by simp⟩
    | some call =>
      by_cases hactive : call.state = Call.STATE_ACTIVE
      · exact .inr ⟨call.id, by simp [hactive], by simp [hactive]⟩
      · exact .inl ⟨by simp [hactive], by simp [hactive]⟩

/-- The requests that ask for keys are those that are answered so. -/
theorem dtmf_sent_iff (c : CallControl) (r : Request) :
    (dtmf c r).1.status = "sent" ↔ r.presses ≠ [] := by
  unfold dtmf Request.presses
  cases hdigits : isDtmfDigits r.digits with
  | false => cases r.current <;> simp
  | true =>
    have hne : r.digits ≠ [] := by
      rintro hnil
      simp [hnil, isDtmfDigits] at hdigits
    cases r.current with
    | none => simp
    | some call => by_cases hactive : call.state = Call.STATE_ACTIVE <;> simp [hactive, hne]

theorem Queued.step {presses : List Press} {tones : List Tone} (h : Queued c presses tones) :
    ∃ more, Queued (step c r) (presses ++ r.presses) (tones ++ more) := by
  obtain ⟨hnone, hstep⟩ | ⟨call, hpresses, hstep⟩ := step_cases c r
  · exact ⟨[], by rwa [hnone, hstep, List.append_nil, List.append_nil]⟩
  · set first := max r.uptimeMillis c.dtmfFreeAt with hfirst
    have huptime : r.uptimeMillis ≤ first := le_max_left _ _
    have hfree : c.dtmfFreeAt ≤ first := le_max_right _ _
    have hbehind : ∀ m ∈ c.queue, m.time ≤ first + (0 : ℕ) * (TONE_MS + GAP_MS) := by
      intro m hm
      simpa using (h.time_le m hm).trans hfree
    refine ⟨tonesFrom call first 0 r.digits, ?_, ?_, ?_, ?_⟩
    · rw [hstep, List.flatMap_append, ← h.queue]
      exact post_eq_append call first 0 r.digits hbehind
    · rw [hpresses]
      exact List.rel_append h.answers (tonesFrom_answers call huptime 0 r.digits)
    · refine List.pairwise_append.2 ⟨h.apart, pairwise_tonesFrom call first 0 r.digits, ?_⟩
      intro t ht u hu
      have hfrom := (mem_tonesFrom hu).1
      have hend := h.free t ht
      simp only [Tone.Before, TONE_MS, GAP_MS] at hfrom hend ⊢
      omega
    · rw [hstep]
      intro t ht
      show t.start + TONE_MS + GAP_MS ≤ first + r.digits.length * (TONE_MS + GAP_MS)
      rcases List.mem_append.1 ht with ht | ht
      · have hend := h.free t ht
        simp only [TONE_MS, GAP_MS] at hend ⊢
        omega
      · simpa using (mem_tonesFrom ht).2

theorem Queued.final : ∀ (requests : List Request) {c : CallControl} {presses : List Press}
    {tones : List Tone}, Queued c presses tones →
      ∃ more, Queued (Run.final Dtmf.step c requests) (presses ++ requests.flatMap Request.presses)
        (tones ++ more)
  | [], c, presses, tones, h => ⟨[], by simpa using h⟩
  | r :: requests, c, presses, tones, h => by
    obtain ⟨now, hnow⟩ := h.step (r := r)
    obtain ⟨more, hmore⟩ := Queued.final requests hnow
    refine ⟨now ++ more, ?_⟩
    simpa only [Run.final_cons, List.flatMap_cons, List.append_assoc] using hmore

/-- However requests come, the queue is the tones of the keys that were asked for, in that order,
each whole, with the gap between any two. -/
theorem tones_whole_in_order (requests : List Request) :
    ∃ tones : List Tone,
      (Run.final step start requests).queue = tones.flatMap Tone.messages
        ∧ List.Forall₂ Tone.Answers tones (requests.flatMap Request.presses)
        ∧ tones.Pairwise Tone.Before := by
  obtain ⟨tones, h⟩ := Queued.final requests start_queued
  rw [List.nil_append, List.nil_append] at h
  exact ⟨tones, h.queue, h.answers, h.apart⟩

end Rackphone.Dtmf
