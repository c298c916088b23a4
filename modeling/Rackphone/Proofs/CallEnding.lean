import Rackphone.Proofs.CallController

/-!
# A call that rings while another ends

What is left of an end sets the state when it is through, and nothing that completes sets it to
ringing again. So a ringing event that finds an end pending is lost, and all that was pending can
complete.
-/

namespace Rackphone

namespace CallController

variable {s : CallController}

/-- While the screen rings, an end is pending. -/
def Fading (s : CallController) : Prop := s.state = .ringing → s.EndPending

theorem cancelDownlink_ends (s : CallController) : s.cancelDownlink.ending = s.ending
    ∧ s.cancelDownlink.hangups = s.hangups ∧ s.cancelDownlink.rejects = s.rejects := by
  unfold cancelDownlink
  split <;> exact ⟨rfl, rfl, rfl⟩

theorem closeStep_ends (s : CallController) (stage : CloseStage) :
    (s.closeStep stage).state = s.state ∧ (s.closeStep stage).ending = s.ending
      ∧ (s.closeStep stage).hangups = s.hangups ∧ (s.closeStep stage).rejects = s.rejects
      ∧ (s.closeStep stage).attempts = s.attempts := by
  unfold closeStep cancelUplink closeConnection
  split <;> [split; split; skip; skip] <;> exact ⟨rfl, rfl, rfl, rfl, rfl⟩

/-- After an end has begun nothing rings, or it is under way. -/
theorem fading_end (s : CallController) : Fading s.end_ := by
  intro hring
  rw [EndPending]
  unfold end_ closeAudio at hring ⊢
  split_ifs at hring ⊢ with h
  · rcases h with h | h | h
    · exact .inl h
    · exact absurd (hring.symm.trans h) (by decide)
    · exact absurd (hring.symm.trans h) (by decide)
  · rw [(cancelDownlink_ends _).1]
    exact .inl rfl

theorem fading_fail (s : CallController) : Fading s.fail := by
  unfold fail
  split_ifs with h
  · exact fun _ => .inl h
  · exact fading_end s

theorem fading_onClosed (s : CallController) : Fading s.onClosed := by
  unfold onClosed
  split_ifs with h h'
  · exact fun _ => .inl h
  · intro hring
    rcases h' with h' | h' <;> exact absurd (hring.symm.trans h') (by decide)
  · exact fading_end s

/-- Only the state and what is left of an end matter. -/
theorem Fading.congr {t : CallController} (h : Fading s)
    (hstate : t.state = .ringing → s.state = .ringing) (hending : t.ending = s.ending)
    (hhangups : t.hangups = s.hangups) (hrejects : t.rejects = s.rejects) : Fading t := by
  intro hring
  rw [EndPending, hending, hhangups, hrejects]
  exact h (hstate hring)

theorem Fading.bridge (h : Fading s) (i : ℕ) : Fading (s.bridge i) := by
  unfold CallController.bridge
  split_ifs <;> exact h.congr id rfl rfl rfl

theorem Fading.resume (h : Fading s) (i : ℕ) (a : CallAttempt) : Fading (s.resume i a) := by
  unfold CallController.resume
  split
  · unfold connected
    split_ifs <;> exact h.congr id rfl rfl rfl
  · split_ifs <;> exact h.congr id rfl rfl rfl
  · unfold started
    split_ifs
    · exact h.congr (fun hring => absurd hring (by simp [setPhase, update])) rfl rfl rfl
    · exact h.congr id rfl rfl rfl
  · exact h.congr id rfl rfl rfl
  · rename_i stage hphase
    obtain ⟨hstate, hending, hhangups, hrejects, -⟩ := closeStep_ends s stage
    exact h.congr (fun hring => hstate ▸ hring) hending hhangups hrejects
  · exact h
  · exact h

theorem fading_catchFailure (s : CallController) (i : ℕ) : Fading (s.catchFailure i) := by
  obtain ⟨hending, hhangups, hrejects⟩ := cancelDownlink_ends s.fail
  exact (fading_fail s).congr
    (fun hring => (cancelDownlink_frame s.fail).1 ▸ hring) hending hhangups hrejects

/-- Whatever completes or fails, a screen that rings for an ended call stops. -/
theorem Fading.step (h : Fading s) {a : Action} (ha : Completes a ∨ Fails a) :
    Fading (s.step a) := by
  cases a with
  | event | dial | accept | reject | hangup | dismissEnded => exact absurd ha (or_self_iff.not.2 id)
  | answered i placedAt =>
    simp only [CallController.step]
    split
    · exact h
    · split_ifs
      · exact h
      · have hplaced : Fading { s with placedAt } := h.congr id rfl rfl rfl
        exact hplaced.bridge i
      · exact h.bridge i
  | resumed i =>
    simp only [CallController.step]
    split
    · exact h
    · exact h.resume i _
  | raised i =>
    simp only [CallController.step]
    split
    · exact h
    · split
      · exact h
      · exact h
      · exact fading_catchFailure s i
  | hungUp =>
    simp only [CallController.step]
    split_ifs
    · exact h
    · exact fading_end _
  | rejected =>
    simp only [CallController.step]
    split_ifs
    · exact h
    · exact fading_end _
  | closing =>
    simp only [CallController.step]
    split
    · exact h
    · split
      · exact fun _ => .inl rfl
      · exact fun hring => absurd hring (by simp)
  | closed c =>
    simp only [CallController.step]
    split
    · exact h
    · split_ifs
      · exact fading_onClosed _
      · exact h
  | failed => exact fading_fail s

theorem not_ringing_of_quiet (h : Fading s) (hq : s.Quiet) : s.state ≠ .ringing := by
  intro hring
  obtain ⟨hending, hhangups, hrejects, -⟩ := hq
  rcases h hring with h | h | h
  · rw [hending] at h
    exact absurd h (by decide)
  · omega
  · omega

/-- The ringing event leaves the end pending. -/
theorem fading_event (h : s.EndPending) (e : Row) (he : IsRinging e) :
    Fading (s.step (.event e)) := by
  intro _
  simp only [step, onEvent, he.1, he.2, ne_eq, not_true_eq_false, if_false, if_true]
  split_ifs <;> exact h

/-! ## All that is pending can complete -/

def stageWork : CloseStage → ℕ
  | .downlink => 4
  | .uplink => 3
  | .connection => 2
  | .audio => 1

/-- How many completions a dial or an accept may still wait for. -/
def phaseWork : AttemptPhase → ℕ
  | .asking => 8
  | .opening => 7
  | .preparing _ => 6
  | .starting _ => 5
  | .discarding => 1
  | .closing stage => stageWork stage
  | .finished => 0

def attemptsWork (attempts : List CallAttempt) : ℕ := (attempts.map fun a => phaseWork a.phase).sum

def endWork (ending : Option CloseStage) : ℕ := (ending.map stageWork).getD 0

def work (s : CallController) : ℕ :=
  attemptsWork s.attempts + endWork s.ending + 10 * (s.hangups + s.rejects)

theorem attemptsWork_modify {phase : AttemptPhase} : ∀ {attempts : List CallAttempt} {i : ℕ}
    {a : CallAttempt}, attempts[i]? = some a → phaseWork phase < phaseWork a.phase →
      attemptsWork (attempts.modify i fun a => { a with phase }) < attemptsWork attempts
  | b :: attempts, 0, a, hi, hlt => by
    obtain rfl : b = a := by simpa using hi
    simpa [attemptsWork] using hlt
  | b :: attempts, i + 1, a, hi, hlt => by
    have hi : attempts[i]? = some a := by simpa using hi
    simpa [attemptsWork] using attemptsWork_modify hi hlt

/-- A dial or an accept that goes on has less to wait for. -/
theorem work_setPhase {t : CallController} {i : ℕ} {a : CallAttempt} {phase : AttemptPhase}
    (hi : s.attempts[i]? = some a) (hlt : phaseWork phase < phaseWork a.phase)
    (hattempts : t.attempts = s.attempts) (hending : t.ending = s.ending)
    (hhangups : t.hangups = s.hangups) (hrejects : t.rejects = s.rejects) :
    work (t.setPhase i phase) < work s := by
  have h := attemptsWork_modify hi hlt
  have ht : work (t.setPhase i phase) = attemptsWork (s.attempts.modify i fun a => { a with phase })
      + endWork s.ending + 10 * (s.hangups + s.rejects) := by
    rw [← hattempts, ← hending, ← hhangups, ← hrejects]
    rfl
  rw [ht, work]
  omega

theorem stageWork_next (stage : CloseStage) :
    phaseWork ((stage.next.map AttemptPhase.closing).getD .finished) < stageWork stage := by
  cases stage <;> decide

theorem work_bridge {t : CallController} {i : ℕ} {a : CallAttempt} (hi : s.attempts[i]? = some a)
    (ha : a.phase = .asking) (hattempts : t.attempts = s.attempts) (hending : t.ending = s.ending)
    (hhangups : t.hangups = s.hangups) (hrejects : t.rejects = s.rejects) :
    work (t.bridge i) < work s := by
  unfold bridge
  split_ifs <;>
    exact work_setPhase hi (by rw [ha]; decide) hattempts hending hhangups hrejects

theorem work_resume {i : ℕ} {a : CallAttempt} (hi : s.attempts[i]? = some a)
    (hasking : a.phase ≠ .asking) (hfinished : a.phase ≠ .finished) :
    work (s.resume i a) < work s := by
  unfold resume
  split <;> rename_i hphase
  · unfold connected
    split_ifs <;> exact work_setPhase hi (by rw [hphase]; simp [phaseWork]) rfl rfl rfl rfl
  · split_ifs <;> exact work_setPhase hi (by rw [hphase]; simp [phaseWork]) rfl rfl rfl rfl
  · unfold started
    split_ifs <;> exact work_setPhase hi (by rw [hphase]; simp [phaseWork]) rfl rfl rfl rfl
  · exact work_setPhase hi (by rw [hphase]; decide) rfl rfl rfl rfl
  · rename_i stage
    obtain ⟨-, hending, hhangups, hrejects, hattempts⟩ := closeStep_ends s stage
    exact work_setPhase hi (by rw [hphase]; exact stageWork_next stage) hattempts hending hhangups
      hrejects
  · exact absurd hphase hasking
  · exact absurd hphase hfinished

theorem work_end (s : CallController) : work s.end_ ≤ work s + 4 := by
  rcases end_eq s with he | ⟨hnone, he⟩ <;> rw [he]
  · omega
  · obtain ⟨-, hhangups, hrejects⟩ := cancelDownlink_ends s
    simp only [work, (cancelDownlink_frame s).2, hhangups, hrejects, hnone, endWork,
      Option.map_some, Option.getD_some, Option.map_none, Option.getD_none, stageWork]
    omega

theorem work_closing {stage : CloseStage} (h : s.ending = some stage) :
    work (s.step .closing) < work s := by
  obtain ⟨-, -, hhangups, hrejects, hattempts⟩ := closeStep_ends s stage
  simp only [step, h]
  cases stage <;> simp [CloseStage.next, work, endWork, h, stageWork] at * <;>
    simp [hhangups, hrejects, hattempts]

/-- Short of quiet, something that is pending can complete and leaves less. -/
theorem exists_completes (s : CallController) (h : ¬ s.Quiet) :
    ∃ a, Completes a ∧ work (s.step a) < work s := by
  rcases hending : s.ending with _ | stage
  · by_cases hhangups : s.hangups = 0
    · by_cases hrejects : s.rejects = 0
      · have hattempt : ∃ a ∈ s.attempts, a.phase ≠ .finished := by
          by_contra hno
          push Not at hno
          exact h ⟨hending, hhangups, hrejects, hno⟩
        obtain ⟨a, ha, hfinished⟩ := hattempt
        obtain ⟨i, hi⟩ := List.mem_iff_getElem?.1 ha
        by_cases hasking : a.phase = .asking
        · refine ⟨.answered i none, trivial, ?_⟩
          simp only [step, hi, hasking, ne_eq, not_true_eq_false, if_false]
          split_ifs <;> exact work_bridge hi hasking rfl rfl rfl rfl
        · refine ⟨.resumed i, trivial, ?_⟩
          simp only [step, hi]
          exact work_resume hi hasking hfinished
      · refine ⟨.rejected, trivial, ?_⟩
        simp only [step, if_neg hrejects]
        have hle := work_end { s with rejects := s.rejects - 1 }
        have hlt : work { s with rejects := s.rejects - 1 } + 10 = work s := by
          simp only [work]
          omega
        omega
    · refine ⟨.hungUp, trivial, ?_⟩
      simp only [step, if_neg hhangups]
      have hle := work_end { s with hangups := s.hangups - 1 }
      have hlt : work { s with hangups := s.hangups - 1 } + 10 = work s := by
        simp only [work]
        omega
      omega
  · exact ⟨.closing, trivial, work_closing hending⟩

/-- A ringing event that finds the end of another call pending is lost: all that is pending can
complete, and whatever completes or fails, the screen does not ring once nothing is pending. -/
theorem ring_lost (s : CallController) (e : Row) (hend : s.EndPending) (he : IsRinging e) :
    ¬ s.RingKept e
    ∧ ∀ as : List Action, (∀ a ∈ as, Completes a ∨ Fails a) →
      Run.Always step (fun s => s.Quiet → s.state ≠ .ringing) (s.step (.event e)) as := by
  have hlost : ∀ as : List Action, (∀ a ∈ as, Completes a ∨ Fails a) →
      Run.Always step (fun s => s.Quiet → s.state ≠ .ringing) (s.step (.event e)) as :=
    fun as has => Run.always_of_allowed (fun _ hF => not_ringing_of_quiet hF)
      (fun _ _ hF ha => hF.step ha) as (fading_event hend e he) has
  refine ⟨fun hkept => ?_, hlost⟩
  obtain ⟨as, has, hquiet⟩ := Run.exists_final work exists_completes (s.step (.event e))
  have hring := Run.Always.final as (hkept as has) hquiet
  have hnot := Run.Always.final as (hlost as fun a ha => .inl (has a ha)) hquiet
  exact hnot hring.1

def ringingRow (id : ℕ) (unit caller : String) : Row where
  unit := unit
  kind := KIND_CALL
  sourceId := id
  address := some caller
  body := none
  timestamp := none
  direction := some "ringing"
  duration := none
  raw := "{}"
  id := id
  receivedAt := 0

/-- The first call is rejected, and its audio is being closed. -/
def rejecting : CallController :=
  Run.final step start [.event (ringingRow 1 "lisa01" "100"), .reject, .rejected]

theorem ring_lost_rejecting : ¬ rejecting.RingKept (ringingRow 2 "lisa02" "200") :=
  (ring_lost rejecting (ringingRow 2 "lisa02" "200") (.inl rfl) ⟨rfl, rfl⟩).1

/-- The second call rings, the end of the first goes through, and the screen shows an ended call. -/
theorem ring_lost_in_end : ¬ ∀ (as : List Action) (e : Row),
    (Run.final step start as).EndPending → IsRinging e → (Run.final step start as).RingKept e := by
  intro h
  have hkept := h [.event (ringingRow 1 "lisa01" "100"), .reject, .rejected]
    (ringingRow 2 "lisa02" "200") (.inl rfl) ⟨rfl, rfl⟩
  have hrun := hkept (List.replicate 4 Action.closing) fun a ha => by
    rw [List.eq_of_mem_replicate ha]
    trivial
  have hshown := Run.Always.final _ hrun (by decide +kernel)
  exact absurd hshown.1 (by decide +kernel)

end CallController

end Rackphone
