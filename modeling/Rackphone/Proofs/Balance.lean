import Rackphone.Balance

/-!
# A balance request that is not answered is made again at once

An answer is what moves a SIM's due time. A SIM whose request failed stays due, so the alarm that
ends the pass is armed for a minute later. Passes that begin only when their SIMs have been answered
ask each of them an interval after the last time.
-/

namespace Rackphone

namespace Balance

variable {K : KotlinChars} {c : BalanceConfig}

/-- The SIM's last unforced request is an interval ago. -/
def Rested (c : BalanceConfig) (s : Balance) (sub : ℤ) : Prop :=
  ∀ t ∈ s.requested sub, t + c.balanceIntervalMs ≤ s.clock

structure Inv (c : BalanceConfig) (s : Balance) : Prop where
  clock_pos : 0 < s.clock
  requested_pos : ∀ sub, ∀ t ∈ s.requested sub, 0 < t
  single : s.passes.countP (fun p => p.force = false) ≤ 1
  rested : ∀ p ∈ s.passes, p.force = false →
    (p.asking :: p.rest).Nodup ∧ ∀ sub ∈ p.rest, s.Rested c sub

theorem inv_start (balanceAt : ℤ → ℤ) (clock : ℕ+) : Inv c (start balanceAt clock) where
  clock_pos := by
    show (0 : ℤ) < clock
    exact_mod_cast clock.pos
  requested_pos _ _ h := by cases h
  single := Nat.zero_le 1
  rested _ h := by cases h

/-! ## One pass -/

/-- A SIM that is ready and due has rested. -/
theorem rested_of_due {s : Balance} (h : Inv c s) {active : ActiveSubs}
    (hmay : s.MayPass c active) {sub : ℤ} (hsub : sub ∈ s.due K c active false) :
    s.Rested c sub := by
  intro t ht
  unfold due at hsub
  split_ifs at hsub
  · cases hsub
  · simp only [Bool.false_or, List.mem_filter, decide_eq_true_eq] at hsub
    have hpos := h.requested_pos sub t ht
    rcases hmay.2 sub hsub.1 t ht with hans | hago
    · have hrun := hsub.2
      unfold runAt nextRunAt at hrun
      rw [if_neg (by omega)] at hrun
      omega
    · exact hago

theorem nodup_due (s : Balance) (active : ActiveSubs) (force : Bool) :
    (s.due K c active force).Nodup := by
  unfold due
  split_ifs
  · exact .nil
  · exact active.2.filter _

theorem inv_schedule {s : Balance} (h : Inv c s) (active : ActiveSubs) :
    Inv c (s.schedule K c active) :=
  ⟨h.clock_pos, h.requested_pos, h.single, h.rested⟩

theorem inv_record {s : Balance} (h : Inv c s) (sub : ℤ) (o : UssdOutcome) :
    Inv c (s.record sub o) := by
  unfold record
  split_ifs
  · exact ⟨h.clock_pos, h.requested_pos, h.single, h.rested⟩
  · exact h

theorem passes_record (s : Balance) (sub : ℤ) (o : UssdOutcome) :
    (s.record sub o).passes = s.passes := by
  unfold record
  split_ifs <;> rfl

theorem rested_record {s : Balance} {sub' : ℤ} (sub : ℤ) (o : UssdOutcome) :
    (s.record sub o).Rested c sub' ↔ s.Rested c sub' := by
  unfold record
  split_ifs <;> rfl

theorem inv_ask_forced {s : Balance} (h : Inv c s) (active : ActiveSubs) (subs : List ℤ) :
    Inv c (s.ask K c active true subs) := by
  cases subs with
  | nil => exact inv_schedule h active
  | cons sub rest =>
    refine ⟨h.clock_pos, h.requested_pos, ?_, fun p hp hforce => ?_⟩
    · simpa [ask] using h.single
    · rcases List.mem_append.1 hp with hp | hp
      · exact h.rested p hp hforce
      · rw [List.mem_singleton.1 hp] at hforce
        cases hforce

/-- The only unforced pass may ask the SIMs that have rested. -/
theorem inv_ask_unforced {s : Balance} (h : Inv c s) (hnone : ∀ p ∈ s.passes, p.force = true)
    {subs : List ℤ} (hnodup : subs.Nodup) (hrested : ∀ sub ∈ subs, s.Rested c sub)
    (active : ActiveSubs) : Inv c (s.ask K c active false subs) := by
  cases subs with
  | nil => exact inv_schedule h active
  | cons sub rest =>
    refine ⟨h.clock_pos, fun sub' t ht => ?_, ?_, fun p hp hforce => ?_⟩
    · by_cases heq : sub' = sub
      · subst heq
        simp only [ask, Bool.false_eq_true, if_false, Function.update_self] at ht
        obtain rfl := Option.some.inj ht
        exact h.clock_pos
      · simp only [ask, Bool.false_eq_true, if_false, Function.update_of_ne heq] at ht
        exact h.requested_pos sub' t ht
    · simpa [ask] using hnone
    · rcases List.mem_append.1 hp with hp | hp
      · rw [hnone p hp] at hforce
        cases hforce
      · obtain rfl := List.mem_singleton.1 hp
        refine ⟨hnodup, fun sub' hsub' t ht => ?_⟩
        have hne : sub' ≠ sub := by
          rintro rfl
          exact (List.nodup_cons.1 hnodup).1 hsub'
        simp only [ask, Bool.false_eq_true, if_false, Function.update_of_ne hne] at ht
        exact hrested sub' (List.mem_cons_of_mem _ hsub') t ht

theorem inv_startRefresh {s : Balance} (h : Inv c s) {active : ActiveSubs} {force : Bool}
    (hmay : force = false → s.MayPass c active) : Inv c (s.startRefresh K c active force) := by
  cases force with
  | true => exact inv_ask_forced h active _
  | false =>
    exact inv_ask_unforced h (hmay rfl).1 (nodup_due s active false)
      (fun _ hsub => rested_of_due h (hmay rfl) hsub) active

/-- What is left of the passes when one of them goes on. -/
theorem inv_eraseIdx {s : Balance} (h : Inv c s) {i : ℕ} {p : BalancePass}
    (hp : s.passes[i]? = some p) :
    Inv c { s with passes := s.passes.eraseIdx i }
      ∧ (p.force = false → ∀ q ∈ s.passes.eraseIdx i, q.force = true) := by
  obtain ⟨hlt, hget⟩ := List.getElem?_eq_some_iff.1 hp
  have hperm := List.getElem_cons_eraseIdx_perm hlt
  rw [hget] at hperm
  have hcount := hperm.countP_eq fun q => q.force = false
  rw [List.countP_cons] at hcount
  have hsingle := h.single
  refine ⟨⟨h.clock_pos, h.requested_pos, ?_, fun q hq => h.rested q (List.mem_of_mem_eraseIdx hq)⟩,
    fun hforce q hq => ?_⟩
  · show (s.passes.eraseIdx i).countP _ ≤ 1
    omega
  · rw [if_pos (by simpa using hforce)] at hcount
    have hzero : (s.passes.eraseIdx i).countP (fun q => q.force = false) = 0 := by omega
    have := List.countP_eq_zero.1 hzero q hq
    simpa using this

/-! ## Runs -/

theorem inv_step (s : Balance) (a : Action) (h : Inv c s) (ha : s.Orderly c a) :
    Inv c (s.step K c a) := by
  cases a with
  | tick ms =>
    have hle : s.clock ≤ s.clock + ms := Int.le_add_of_nonneg_right (Int.natCast_nonneg ms)
    exact ⟨h.clock_pos.trans_le hle, h.requested_pos, h.single, fun p hp hforce =>
      ⟨(h.rested p hp hforce).1, fun sub hsub t ht =>
        ((h.rested p hp hforce).2 sub hsub t ht).trans hle⟩⟩
  | alarm active =>
    simp only [step]
    split_ifs with hdue
    · have halarm : Inv c { s with alarm := none } :=
        ⟨h.clock_pos, h.requested_pos, h.single, h.rested⟩
      exact inv_startRefresh halarm fun _ => ha hdue
    · exact h
  | refresh active force => exact inv_startRefresh h ha
  | outcome i o active =>
    cases hp : s.passes[i]? with
    | none => simpa only [step, hp] using h
    | some p =>
      simp only [step, hp]
      obtain ⟨hinv, hothers⟩ := inv_eraseIdx h hp
      have hrecord := inv_record hinv p.asking o
      cases hforce : p.force with
      | true => exact inv_ask_forced hrecord active _
      | false =>
        obtain ⟨hnodup, hrested⟩ := h.rested p (List.mem_of_getElem? hp) hforce
        refine inv_ask_unforced hrecord ?_ (List.nodup_cons.1 hnodup).2 (fun sub hsub => ?_) active
        · rw [passes_record]
          exact hothers hforce
        · exact (rested_record _ _).2 (hrested sub hsub)
  | lateAnswer sub => exact inv_record h sub _
  | boot active =>
    exact ⟨h.clock_pos, h.requested_pos, Nat.zero_le 1, fun p hp => by cases hp⟩
  | reschedule active => exact inv_schedule h active

theorem spaced_step (s : Balance) (a : Action) (h : Inv c s) (ha : s.Orderly c a) :
    s.Spaced K c a := by
  intro sub hsub
  cases a with
  | alarm active =>
    simp only [asks] at hsub
    split_ifs at hsub with hdue
    · exact rested_of_due h (ha hdue) (List.mem_of_mem_head? hsub)
    · cases hsub
  | refresh active force =>
    cases force with
    | true => cases hsub
    | false => exact rested_of_due h (ha rfl) (List.mem_of_mem_head? hsub)
  | outcome i o active =>
    cases hp : s.passes[i]? with
    | none =>
      simp only [asks, hp] at hsub
      cases hsub
    | some p =>
      simp only [asks, hp] at hsub
      split_ifs at hsub with hforce
      · cases hsub
      · exact (h.rested p (List.mem_of_getElem? hp) (by simpa using hforce)).2 sub
          (List.mem_of_mem_head? hsub)
  | _ => cases hsub

/-- In every run whose unforced passes begin one at a time and with every SIM at hand answered or
rested, the unforced requests for a SIM are an interval apart. -/
theorem meets_asks_spaced (K : KotlinChars) (c : BalanceConfig) (balanceAt : ℤ → ℤ) (clock : ℕ+)
    (as : List Action) (h : Run.Meets (step K c) (Orderly c) (start balanceAt clock) as) :
    Run.Meets (step K c) (Spaced K c) (start balanceAt clock) as :=
  Run.meets_of_meets_of inv_step spaced_step as (inv_start balanceAt clock) h

/-- Checks once a day. -/
def daily : BalanceConfig := ⟨"*102#", 24, by constructor <;> decide⟩

def oneActive : ActiveSubs := ⟨[1], by simp⟩

/-- Two days of a SIM that answers. -/
theorem answered_spaced :
    Run.Meets (step asciiChars daily) (Spaced asciiChars daily) (start (fun _ => 0) 1)
      [.boot oneActive, .tick 60000, .alarm oneActive, .tick 3000,
        .outcome 0 .answered oneActive, .tick (24 * 3600000), .alarm oneActive] :=
  meets_asks_spaced _ _ _ _ _ (by decide +kernel)

/-- The network refuses, the pass ends, and its alarm asks the SIM again a minute later. -/
theorem refused_asks_again :
    ¬ Run.Meets (step asciiChars daily) (Spaced asciiChars daily) (start (fun _ => 0) 1)
      [.boot oneActive, .tick 60000, .alarm oneActive, .outcome 0 (.refused (-1)) oneActive,
        .tick 60000, .alarm oneActive] := by
  intro h
  have hagain := h.2.2.2.2.2.1 1 (by decide +kernel) 60001 (by decide +kernel)
  exact absurd hagain (by decide +kernel)

end Balance

end Rackphone
