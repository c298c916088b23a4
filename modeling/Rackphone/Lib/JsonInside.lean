import Rackphone.Lib.JsonPieces

/-!
# A text inside a text

What the reader does with a text in the place of a value is what it does with the text alone, on top
of the stack it stands on. A line feed between two tokens makes no difference to it, and a string
that needs no escape is read as it is.
-/

namespace Json

/-- No quote, no backslash and no control character. -/
def Unescaped (t : List Char) : Prop := ∀ c ∈ t, c ≠ '\\' ∧ c ≠ '"' ∧ 0x20 ≤ c.toNat

theorem escapeChar_of_le {sty : Style} (hsty : sty.escapesSlash = false) {c : Char}
    (hslash : c ≠ '\\') (hquote : c ≠ '"') (hc : 0x20 ≤ c.toNat) : escapeChar sty c = [c] := by
  have hne : ∀ d : Char, d.toNat < 0x20 → c ≠ d := by
    rintro d hd rfl
    exact absurd hd (Nat.not_lt.2 hc)
  have hshort : shortEscape c = none := by
    simp [shortEscape, hne '\t' (by decide), hne '\n' (by decide), hne '\r' (by decide),
      hne (Char.ofNat 0x08) (by decide), hne (Char.ofNat 0x0c) (by decide)]
  simp [escapeChar, hsty, hslash, hquote, hshort, Nat.not_lt.2 hc]

namespace Reader

/-- A text that needs no escape is read as it is. -/
theorem run_unescaped {t : List Char} (h : Unescaped t) (acc : List ℕ) (st : List Frame)
    (u : List Char) :
    run ⟨.string acc, st⟩ (t ++ u) = run ⟨.string ((codes t).reverse ++ acc), st⟩ u := by
  have hescape : t.flatMap (escapeChar ⟨false, false⟩) = t := by
    rw [List.flatMap_congr fun c hc => escapeChar_of_le rfl (h c hc).1 (h c hc).2.1 (h c hc).2.2]
    simp
  rw [← run_escaped ⟨false, false⟩, hescape]

/-! ## On a stack -/

/-- The reader of a text alone, moved onto a stack. -/
def onto (st : List Frame) (r : Reader) : Reader :=
  match r.mode with
  | .done v => complete v st
  | mode => ⟨mode, r.stack ++ st⟩

/-- A value can stand on the stack. -/
def TakesValue (st : List Frame) : Prop := ∀ fs st', st ≠ .key fs :: st'

variable {st : List Frame}

theorem onto_complete (v : Value) (s : List Frame) :
    onto st (complete v s) = complete v (s ++ st) := by
  rcases s with _ | ⟨f, s⟩
  · rfl
  · cases f <;> rfl

theorem onto_completeString (hst : TakesValue st) (x : List ℕ) (s : List Frame) :
    onto st (completeString x s) = completeString x (s ++ st) := by
  rcases s with _ | ⟨f, s⟩
  · rcases st with _ | ⟨f, st⟩
    · rfl
    · cases f with
      | key fs => exact absurd rfl (hst fs st)
      | _ => rfl
  · cases f <;> rfl

theorem stepValue_onto {c : Char} {s : List Frame} {r' : Reader} (h : stepValue c s = some r') :
    stepValue c (s ++ st) = some (onto st r') := by
  unfold stepValue at h ⊢
  split_ifs at h ⊢
  · obtain rfl := Option.some.inj h
    rfl
  · obtain rfl := Option.some.inj h
    rfl
  · obtain rfl := Option.some.inj h
    rfl
  · obtain rfl := Option.some.inj h
    rfl
  · rcases hl : literalOf c with _ | ⟨rest, v⟩ <;> rw [hl] at h
    · obtain ⟨phase, hphase, rfl⟩ := Option.map_eq_some_iff.1 h
      simp only [hphase]
      rfl
    · obtain rfl := Option.some.inj h
      rfl

theorem stepKey_onto {c : Char} {s : List Frame} {r' : Reader} (h : stepKey c s = some r') :
    stepKey c (s ++ st) = some (onto st r') := by
  unfold stepKey at h ⊢
  split_ifs at h ⊢ <;> obtain rfl := Option.some.inj h <;> rfl

theorem stepAfter_onto {c : Char} {s : List Frame} {r' : Reader} (h : stepAfter c s = some r') :
    stepAfter c (s ++ st) = some (onto st r') := by
  unfold stepAfter at h ⊢
  by_cases hsp : isSpace c = true
  · rw [if_pos hsp] at h ⊢
    obtain rfl := Option.some.inj h
    rfl
  · rw [if_neg hsp] at h ⊢
    rcases s with _ | ⟨f, s⟩
    · cases h
    · cases f with
      | val => cases h
      | arr vs =>
        simp only [List.cons_append] at h ⊢
        split_ifs at h ⊢
        · obtain rfl := Option.some.inj h
          rfl
        · obtain rfl := Option.some.inj h
          rw [onto_complete]
      | key fs =>
        simp only [List.cons_append] at h ⊢
        split_ifs at h ⊢
        · obtain rfl := Option.some.inj h
          rfl
        · obtain rfl := Option.some.inj h
          rw [onto_complete]

/-- A complete value takes the same characters on a stack as alone. -/
theorem stepComplete_onto {v : Value} {c : Char} {s : List Frame} {r' : Reader}
    (h : stepComplete (complete v s) c = some r') :
    stepComplete (complete v (s ++ st)) c = some (onto st r') := by
  rcases s with _ | ⟨f, s⟩
  · simp only [complete, stepComplete] at h
    split_ifs at h with hsp
    obtain rfl := Option.some.inj h
    rcases st with _ | ⟨f, st⟩
    · simp [complete, stepComplete, hsp, onto]
    · cases f <;> simp [complete, stepComplete, stepAfter, hsp, onto]
  · have hafter : ∀ s : List Frame, ∀ r : Reader, r.mode = .after →
        stepComplete r c = stepAfter c r.stack := by
      rintro - ⟨mode, stack⟩ rfl
      rfl
    cases f <;> exact stepAfter_onto h

theorem step_onto (hst : TakesValue st) {r r' : Reader} {c : Char} (h : step r c = some r') :
    step (onto st r) c = some (onto st r') := by
  obtain ⟨mode, s⟩ := r
  cases mode with
  | value => exact stepValue_onto h
  | key => exact stepKey_onto h
  | after => exact stepAfter_onto h
  | first =>
    change step ⟨.first, s ++ st⟩ c = _
    simp only [step] at h ⊢
    by_cases hsp : isSpace c = true
    · rw [if_pos hsp] at h ⊢
      obtain rfl := Option.some.inj h
      rfl
    · rw [if_neg hsp] at h ⊢
      rcases s with _ | ⟨f, s⟩
      · cases h
      · cases f with
        | arr vs =>
          simp only [List.cons_append] at h ⊢
          split_ifs at h ⊢
          · obtain rfl := Option.some.inj h
            rw [onto_complete]
          · exact stepValue_onto h
        | _ => cases h
  | firstKey =>
    change step ⟨.firstKey, s ++ st⟩ c = _
    simp only [step] at h ⊢
    by_cases hsp : isSpace c = true
    · rw [if_pos hsp] at h ⊢
      obtain rfl := Option.some.inj h
      rfl
    · rw [if_neg hsp] at h ⊢
      rcases s with _ | ⟨f, s⟩
      · cases h
      · cases f with
        | key fs =>
          simp only [List.cons_append] at h ⊢
          split_ifs at h ⊢
          · obtain rfl := Option.some.inj h
            rw [onto_complete]
          · exact stepKey_onto h
        | _ => cases h
  | colon =>
    change step ⟨.colon, s ++ st⟩ c = _
    simp only [step] at h ⊢
    split_ifs at h ⊢ <;> obtain rfl := Option.some.inj h <;> rfl
  | done v =>
    have hsp : isSpace c = true := by
      by_contra hsp
      simp [step, stepComplete, hsp] at h
    obtain rfl : ⟨.done v, s⟩ = r' := by simpa [step, stepComplete, hsp] using h
    change step (complete v st) c = some (complete v st)
    rw [step_complete]
    have halone : stepComplete (complete v []) c = some ⟨.done v, []⟩ := if_pos hsp
    exact stepComplete_onto halone
  | string acc =>
    change step ⟨.string acc, s ++ st⟩ c = _
    simp only [step] at h ⊢
    split_ifs at h ⊢
    · obtain rfl := Option.some.inj h
      rw [onto_completeString hst]
    · obtain rfl := Option.some.inj h
      rfl
    · obtain rfl := Option.some.inj h
      rfl
  | escape acc =>
    change step ⟨.escape acc, s ++ st⟩ c = _
    simp only [step] at h ⊢
    split_ifs at h ⊢
    · obtain rfl := Option.some.inj h
      rfl
    · obtain ⟨u, hu, rfl⟩ := Option.map_eq_some_iff.1 h
      rw [hu]
      rfl
  | hex acc code remaining =>
    change step ⟨.hex acc code remaining, s ++ st⟩ c = _
    simp only [step] at h ⊢
    obtain ⟨d, hd, rfl⟩ := Option.map_eq_some_iff.1 h
    rw [hd, Option.map_some]
    split_ifs <;> rfl
  | literal rest v =>
    cases rest with
    | nil => exact stepComplete_onto h
    | cons d rest =>
      change step ⟨.literal (d :: rest) v, s ++ st⟩ c = _
      simp only [step] at h ⊢
      split_ifs at h ⊢
      obtain rfl := Option.some.inj h
      rfl
  | number phase spelling =>
    change step ⟨.number phase spelling, s ++ st⟩ c = _
    simp only [step] at h ⊢
    cases hn : nextPhase c phase with
    | some phase' =>
      rw [hn] at h
      obtain rfl := Option.some.inj h
      rfl
    | none =>
      rw [hn] at h
      simp only at h ⊢
      split_ifs at h ⊢
      · obtain rfl := Option.some.inj h
        rfl
      · obtain ⟨v, hv, hs⟩ := Option.bind_eq_some_iff.1 h
        rw [hv, Option.bind_some]
        exact stepComplete_onto hs

theorem run_onto (hst : TakesValue st) : ∀ (t : List Char) {r r' : Reader}, run r t = some r' →
    run (onto st r) t = some (onto st r')
  | [], _, _, h => by
    obtain rfl := Option.some.inj h
    rfl
  | _ :: t, r, r', h => by
    obtain ⟨r₁, h₁, h₂⟩ := Option.bind_eq_some_iff.1 h
    rw [run_of_step _ (step_onto hst h₁)]
    exact run_onto hst t h₂

/-! ## Line feeds -/

/-- The reader once a number or a word that it is at the end of has ended. -/
def settle (r : Reader) : Reader :=
  match r.mode with
  | .number phase spelling =>
    match numberValue spelling phase with
    | some v => complete v r.stack
    | none => r
  | .literal [] v => complete v r.stack
  | _ => r

theorem settle_complete (v : Value) (s : List Frame) : settle (complete v s) = complete v s := by
  rcases s with _ | ⟨f, s⟩
  · rfl
  · cases f <;> rfl

theorem settle_settle (r : Reader) : settle (settle r) = settle r := by
  obtain ⟨mode, s⟩ := r
  cases mode with
  | number phase spelling =>
    cases hv : numberValue spelling phase with
    | none => simp [settle, hv]
    | some v =>
      have hs : settle ⟨.number phase spelling, s⟩ = complete v s := by simp [settle, hv]
      rw [hs, settle_complete]
  | literal rest v =>
    cases rest with
    | nil => exact settle_complete v s
    | cons => rfl
  | _ => rfl

/-- A complete value is complete after a blank. -/
theorem stepComplete_of_isSpace (v : Value) (s : List Frame) {c : Char} (hc : isSpace c = true) :
    stepComplete (complete v s) c = some (complete v s) := by
  rcases s with _ | ⟨f, s⟩
  · exact if_pos hc
  · cases f <;> exact if_pos hc

theorem run_complete_newline (v : Value) (s : List Frame) (t : List Char) :
    run (complete v s) ('\n' :: t) = run (complete v s) t :=
  run_of_step _ ((step_complete s v '\n').trans (stepComplete_of_isSpace v s rfl)) t

theorem result_complete (v : Value) (s : List Frame) :
    result (complete v s) = if s = [] then some v else none := by
  rcases s with _ | ⟨f, s⟩
  · rfl
  · cases f <;> rfl

theorem inert_of_stepComplete {r r' : Reader} {c : Char} (h : stepComplete r c = some r') :
    Inert c ∧ c ≠ 'I' := by
  by_cases hsp : isSpace c = true
  · have hc : c = ' ' ∨ c = '\t' ∨ c = '\n' ∨ c = '\r' := by simpa [isSpace] using hsp
    rcases hc with rfl | rfl | rfl | rfl <;>
      exact ⟨inert_of_toNat (by decide) (by decide), by decide⟩
  · by_cases hc : c ≠ ',' ∧ c ≠ ']' ∧ c ≠ '}'
    · rw [stepComplete_eq_none r (by simpa using hsp) hc] at h
      cases h
    · have hc' : c = ',' ∨ c = ']' ∨ c = '}' := by tauto
      rcases hc' with rfl | rfl | rfl <;>
        exact ⟨inert_of_toNat (by decide) (by decide), by decide⟩

/-- What goes on once a number or a word has ended goes on without waiting for that. -/
theorem step_of_step_settle {r r' : Reader} {c : Char} (h : step (settle r) c = some r') :
    step r c = some r' := by
  obtain ⟨mode, s⟩ := r
  cases mode with
  | number phase spelling =>
    cases hv : numberValue spelling phase with
    | none => simpa [settle, hv] using h
    | some v =>
      have hs : stepComplete (complete v s) c = some r' := by
        rw [← step_complete]
        simpa [settle, hv] using h
      obtain ⟨hinert, hI⟩ := inert_of_stepComplete hs
      simp [step, hinert phase, hI, hv, hs]
  | literal rest v =>
    cases rest with
    | nil =>
      show stepComplete (complete v s) c = some r'
      rw [← step_complete]
      exact h
    | cons => exact h
  | _ => exact h

/-- No blank is in the word the reader is in. -/
def Unbroken : Mode → Prop
  | .literal rest _ => ∀ c ∈ rest, isSpace c = false
  | _ => True

theorem unbroken_complete (v : Value) (s : List Frame) : Unbroken (complete v s).mode := by
  rcases s with _ | ⟨f, s⟩
  · trivial
  · cases f <;> trivial

theorem unbroken_completeString (x : List ℕ) (s : List Frame) :
    Unbroken (completeString x s).mode := by
  rcases s with _ | ⟨f, s⟩
  · trivial
  · cases f <;> trivial

theorem unbroken_stepValue {c : Char} {s : List Frame} {r' : Reader}
    (h : stepValue c s = some r') : Unbroken r'.mode := by
  unfold stepValue at h
  split_ifs at h
  iterate 4
    obtain rfl := Option.some.inj h
    trivial
  rcases hl : literalOf c with _ | ⟨rest, v⟩ <;> rw [hl] at h
  · obtain ⟨phase, -, rfl⟩ := Option.map_eq_some_iff.1 h
    trivial
  · obtain rfl := Option.some.inj h
    unfold literalOf at hl
    split_ifs at hl <;> obtain ⟨rfl, -⟩ := Prod.mk.inj (Option.some.inj hl) <;>
      simp [Unbroken, isSpace]

theorem unbroken_stepKey {c : Char} {s : List Frame} {r' : Reader}
    (h : stepKey c s = some r') : Unbroken r'.mode := by
  unfold stepKey at h
  split_ifs at h <;> obtain rfl := Option.some.inj h <;> trivial

theorem unbroken_stepAfter {c : Char} {s : List Frame} {r' : Reader}
    (h : stepAfter c s = some r') : Unbroken r'.mode := by
  unfold stepAfter at h
  by_cases hsp : isSpace c = true
  · rw [if_pos hsp] at h
    obtain rfl := Option.some.inj h
    trivial
  · rw [if_neg hsp] at h
    rcases s with _ | ⟨f, s⟩
    · cases h
    · cases f with
      | val => cases h
      | _ =>
        simp only at h
        split_ifs at h <;> obtain rfl := Option.some.inj h
        · trivial
        · exact unbroken_complete _ s

theorem unbroken_stepComplete {r r' : Reader} {c : Char} (h : stepComplete r c = some r') :
    Unbroken r'.mode := by
  unfold stepComplete at h
  split at h
  · split_ifs at h
    obtain rfl := Option.some.inj h
    trivial
  · exact unbroken_stepAfter h

theorem unbroken_step {r r' : Reader} {c : Char} (hr : Unbroken r.mode)
    (h : step r c = some r') : Unbroken r'.mode := by
  obtain ⟨mode, s⟩ := r
  cases mode with
  | value => exact unbroken_stepValue h
  | key => exact unbroken_stepKey h
  | after => exact unbroken_stepComplete (r := ⟨.after, s⟩) h
  | done v => exact unbroken_stepComplete (r := ⟨.done v, s⟩) h
  | first =>
    simp only [step] at h
    by_cases hsp : isSpace c = true
    · rw [if_pos hsp] at h
      obtain rfl := Option.some.inj h
      trivial
    · rw [if_neg hsp] at h
      rcases s with _ | ⟨f, s⟩
      · cases h
      · cases f with
        | arr vs =>
          simp only at h
          split_ifs at h
          · obtain rfl := Option.some.inj h
            exact unbroken_complete _ s
          · exact unbroken_stepValue h
        | _ => cases h
  | firstKey =>
    simp only [step] at h
    by_cases hsp : isSpace c = true
    · rw [if_pos hsp] at h
      obtain rfl := Option.some.inj h
      trivial
    · rw [if_neg hsp] at h
      rcases s with _ | ⟨f, s⟩
      · cases h
      · cases f with
        | key fs =>
          simp only at h
          split_ifs at h
          · obtain rfl := Option.some.inj h
            exact unbroken_complete _ s
          · exact unbroken_stepKey h
        | _ => cases h
  | colon =>
    simp only [step] at h
    split_ifs at h <;> obtain rfl := Option.some.inj h <;> trivial
  | string acc =>
    simp only [step] at h
    split_ifs at h <;> obtain rfl := Option.some.inj h
    · exact unbroken_completeString _ s
    · trivial
    · trivial
  | escape acc =>
    simp only [step] at h
    split_ifs at h
    · obtain rfl := Option.some.inj h
      trivial
    · obtain ⟨u, -, rfl⟩ := Option.map_eq_some_iff.1 h
      trivial
  | hex acc code remaining =>
    simp only [step] at h
    obtain ⟨d, -, rfl⟩ := Option.map_eq_some_iff.1 h
    split_ifs <;> trivial
  | literal rest v =>
    cases rest with
    | nil => exact unbroken_stepComplete h
    | cons d rest =>
      simp only [step] at h
      split_ifs at h
      obtain rfl := Option.some.inj h
      exact (List.forall_mem_cons.1 hr).2
  | number phase spelling =>
    simp only [step] at h
    split at h
    · obtain rfl := Option.some.inj h
      trivial
    · split_ifs at h
      · obtain rfl := Option.some.inj h
        simp [Unbroken, isSpace]
      · obtain ⟨v, -, hs⟩ := Option.bind_eq_some_iff.1 h
        exact unbroken_stepComplete hs

theorem unbroken_run : ∀ (t : List Char) {r r' : Reader}, Unbroken r.mode → run r t = some r' →
    Unbroken r'.mode
  | [], _, _, hr, h => by
    obtain rfl := Option.some.inj h
    exact hr
  | _ :: t, _, _, hr, h => by
    obtain ⟨r₁, h₁, h₂⟩ := Option.bind_eq_some_iff.1 h
    exact unbroken_run t (unbroken_step hr h₁) h₂

/-- Where a line feed is passed over, it ends a number or a word at most. -/
theorem eq_settle_of_newline {r r' : Reader} (hr : Unbroken r.mode) (h : step r '\n' = some r') :
    r' = settle r := by
  obtain ⟨mode, s⟩ := r
  cases mode with
  | value | first | key | firstKey | colon | after => exact (Option.some.inj h).symm
  | done v => exact (Option.some.inj h).symm
  | string | escape | hex => cases h
  | literal rest v =>
    cases rest with
    | nil => exact Option.some.inj (h.symm.trans (stepComplete_of_isSpace v s rfl))
    | cons d rest =>
      simp only [step] at h
      split_ifs at h with hd
      have hblank := (List.forall_mem_cons.1 hr).1
      rw [← hd] at hblank
      cases hblank
  | number phase spelling =>
    have hinert : nextPhase '\n' phase = none := inert_of_toNat (by decide) (by decide) phase
    have hI : '\n' ≠ 'I' := by decide
    simp only [step, hinert, hI, and_false, if_false] at h
    obtain ⟨v, hv, hs⟩ := Option.bind_eq_some_iff.1 h
    rw [stepComplete_of_isSpace v s rfl] at hs
    simpa [settle, hv] using hs.symm

theorem run_of_run_settle {r r' : Reader} : ∀ {t : List Char}, run (settle r) t = some r' →
    ∃ r₁, run r t = some r₁ ∧ settle r₁ = settle r'
  | [], h => by
    obtain rfl := Option.some.inj h
    exact ⟨r, rfl, (settle_settle r).symm⟩
  | _ :: t, h => by
    obtain ⟨r₁, h₁, h₂⟩ := Option.bind_eq_some_iff.1 h
    exact ⟨r', (run_of_step _ (step_of_step_settle h₁) t).trans h₂, rfl⟩

/-- What is read is read on one line too. -/
theorem run_oneLine : ∀ (t : List Char) {r r' : Reader}, Unbroken r.mode → run r t = some r' →
    ∃ r₁, run r (t.filter fun c => c ≠ '\n') = some r₁ ∧ settle r₁ = settle r'
  | [], _, r', _, h => ⟨r', h, rfl⟩
  | c :: t, r, r', hr, h => by
    obtain ⟨r₁, h₁, h₂⟩ := Option.bind_eq_some_iff.1 h
    obtain ⟨r₂, h₃, h₄⟩ := run_oneLine t (unbroken_step hr h₁) h₂
    by_cases hc : c = '\n'
    · subst hc
      obtain rfl := eq_settle_of_newline hr h₁
      obtain ⟨r₃, h₅, h₆⟩ := run_of_run_settle h₃
      exact ⟨r₃, by simpa using h₅, h₆.trans h₄⟩
    · refine ⟨r₂, ?_, h₄⟩
      rw [List.filter_cons_of_pos (by simpa using hc), run_of_step _ h₁, h₃]

theorem complete_eq_done {v w : Value} {s : List Frame} (h : complete v s = ⟨.done w, []⟩) :
    s = [] ∧ v = w := by
  rcases s with _ | ⟨f, s⟩
  · exact ⟨rfl, Mode.done.inj (Reader.mk.inj h).1⟩
  · cases f <;> cases h

/-- A text is over where the reader has read a value and nothing is open. -/
theorem settle_eq_done {r : Reader} {v : Value} (h : result r = some v) :
    settle r = ⟨.done v, []⟩ := by
  obtain ⟨mode, s⟩ := r
  rcases s with _ | ⟨f, s⟩
  · cases mode with
    | done w =>
      obtain rfl := Option.some.inj h
      rfl
    | literal rest w =>
      cases rest with
      | nil =>
        obtain rfl := Option.some.inj h
        rfl
      | cons => cases h
    | number phase spelling =>
      have hv : numberValue spelling phase = some v := h
      simp [settle, hv, complete]
    | _ => cases h
  · cases mode with
    | literal rest w => cases rest <;> cases h
    | _ => cases h

/-- Moved onto a stack, a reader at the end of its value has the value complete there. -/
theorem settle_onto {r : Reader} {v : Value} (h : settle r = ⟨.done v, []⟩) :
    settle (onto st r) = complete v st := by
  obtain ⟨mode, s⟩ := r
  cases mode with
  | done w =>
    obtain rfl := Mode.done.inj (Reader.mk.inj h).1
    exact settle_complete w st
  | literal rest w =>
    cases rest with
    | nil =>
      obtain ⟨rfl, rfl⟩ := complete_eq_done h
      rfl
    | cons => cases h
  | number phase spelling =>
    cases hv : numberValue spelling phase with
    | none => simp [settle, hv] at h
    | some w =>
      have hw : settle ⟨.number phase spelling, s⟩ = complete w s := by simp [settle, hv]
      obtain ⟨rfl, rfl⟩ := complete_eq_done (hw.symm.trans h)
      change settle ⟨.number phase spelling, st⟩ = _
      simp [settle, hv]
  | _ => cases h

/-- A text that is read, written on one line, is read in the place of a value. -/
theorem run_inside (hst : TakesValue st) {t : List Char} {v : Value} (h : loads t = some v)
    {c : Char} {r : Reader} (hc : stepComplete (complete v st) c = some r) (rest : List Char) :
    run ⟨.value, st⟩ (t.filter (fun c => c ≠ '\n') ++ c :: rest) = run r rest := by
  obtain ⟨r₁, hrun, hresult⟩ := Option.bind_eq_some_iff.1 h
  have hstart : Unbroken start.mode := trivial
  obtain ⟨r₂, hline, hsettle⟩ := run_oneLine t hstart hrun
  rw [settle_eq_done hresult] at hsettle
  have hstack := run_onto hst _ hline
  change run ⟨.value, st⟩ _ = _ at hstack
  have hnext : step (onto st r₂) c = some r := by
    refine step_of_step_settle ?_
    rw [settle_onto hsettle, step_complete, hc]
  rw [run_append, hstack, Option.bind_some, run_of_step _ hnext]

end Reader

end Json
