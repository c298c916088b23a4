import Rackphone.Backoff
import Rackphone.Proofs.Keepalive

/-!
# A short interval waits out the retry day after a success too

`nextRunAt` takes the later of the schedule and the retry, and does not ask whether the attempt
that the retry counts from has succeeded since. The retry is the later of the two exactly where the
interval, from the success, ends within a day of the attempt.
-/

namespace Rackphone

open Keepalive

namespace Backoff

/-- What is on record for a SIM that was attempted. -/
structure Inv (s : Backoff) : Prop where
  attempt : ∀ sub, s.followed sub ≠ none → 0 < s.config.lastAttemptMs sub
  success : ∀ sub, s.followed sub = some true → 0 < s.config.lastSuccessMs sub

theorem nextRunAt_of_pos {successMs attemptMs : ℤ} (hs : 0 < successMs) (ha : 0 < attemptMs)
    (intervalMs now : ℤ) :
    nextRunAt successMs attemptMs intervalMs now
      = max (successMs + intervalMs) (attemptMs + RETRY_MS) := by
  have hnle : ¬ successMs ≤ 0 := not_le.2 hs
  simp only [nextRunAt, nextDueAt, if_neg hnle, if_pos ha]

theorem le_nextRunAt {attemptMs : ℤ} (ha : 0 < attemptMs) (successMs intervalMs now : ℤ) :
    attemptMs + RETRY_MS ≤ nextRunAt successMs attemptMs intervalMs now := by
  simp only [nextRunAt, if_pos ha]
  exact le_max_right _ _

/-- The day after the attempt has no say exactly where the interval outlasts it. -/
theorem runAtFor_iff {config : KeepaliveConfig} {sub : ℤ} (hs : 0 < config.lastSuccessMs sub)
    (ha : 0 < config.lastAttemptMs sub) :
    (∀ now : ℕ+, runAtFor config sub now = config.lastSuccessMs sub + config.keepaliveIntervalMs)
      ↔ Outlasts (config.lastAttemptMs sub) (config.lastSuccessMs sub)
          config.keepaliveIntervalHours := by
  simp only [runAtFor, nextRunAt_of_pos hs ha, max_eq_left_iff]
  exact ⟨fun h => h 1, fun h _ => h⟩

/-- For a SIM whose last attempt was followed by a success, the interval outlasts the day. -/
def Outlasting (s : Backoff) : Prop := ∀ sub, s.followed sub = some true →
  Outlasts (s.config.lastAttemptMs sub) (s.config.lastSuccessMs sub)
    s.config.keepaliveIntervalHours

theorem Inv.followsFailure_iff {s : Backoff} (h : s.Inv) :
    (∀ sub, s.FollowsFailure sub) ↔ s.Outlasting := by
  constructor
  · intro hf sub hsub
    exact (runAtFor_iff (h.success sub hsub) (h.attempt sub (by simp [hsub]))).1
      ((hf sub).success hsub)
  · intro ho sub
    refine ⟨fun hsub => ?_, fun hsub now => ?_⟩
    · exact (runAtFor_iff (h.success sub hsub) (h.attempt sub (by simp [hsub]))).2 (ho sub hsub)
    · exact le_nextRunAt (h.attempt sub (by simp [hsub])) _ _ _

theorem inv_start (config : KeepaliveConfig) : (start config).Inv :=
  ⟨fun _ h => absurd rfl h, fun _ h => by cases h⟩

theorem inv_step (s : Backoff) (a : Action) (h : s.Inv) : (s.step a).Inv := by
  cases a with
  | fire phone force now later =>
    constructor
    · intro sub hsub
      show 0 < (Keepalive.fire phone s.config force now later).config.lastAttemptMs sub
      rw [lastAttemptMs_fire]
      split_ifs with hatt
      · exact_mod_cast now.pos
      · exact h.attempt sub (by simpa [step, hatt] using hsub)
    · intro sub hsub
      show 0 < (Keepalive.fire phone s.config force now later).config.lastSuccessMs sub
      rw [lastSuccessMs_fire]
      by_cases hatt : (Keepalive.fire phone s.config force now later).Attempted sub
      · simp [step, hatt] at hsub
      · exact h.success sub (by simpa [step, hatt] using hsub)
  | success s' atMs =>
    constructor
    · intro sub hsub
      refine h.attempt sub fun hnone => hsub ?_
      by_cases heq : sub = s'
      · subst heq
        simp [step, hnone]
      · simp [step, Function.update_of_ne heq, hnone]
    · intro sub hsub
      show 0 < Function.update s.config.lastSuccessMs s' atMs sub
      by_cases heq : sub = s'
      · subst heq
        rw [Function.update_self]
        exact_mod_cast atMs.pos
      · rw [Function.update_of_ne heq]
        exact h.success sub (by simpa [step, Function.update_of_ne heq] using hsub)
  | setIntervalHours hours => exact ⟨h.attempt, h.success⟩

/-- A step keeps the intervals outlasting exactly where it is covered. -/
theorem outlasting_step {s : Backoff} (ho : s.Outlasting) (a : Action) :
    (s.step a).Outlasting ↔ s.Covered a := by
  cases a with
  | fire phone force now later =>
    refine ⟨fun _ => trivial, fun _ sub hsub => ?_⟩
    have hnot : ¬ (Keepalive.fire phone s.config force now later).Attempted sub := by
      intro hatt
      simp [step, hatt] at hsub
    have hbefore : s.followed sub = some true := by simpa [step, hnot] using hsub
    simp only [step, lastAttemptMs_fire, if_neg hnot, lastSuccessMs_fire, intervalHours_fire]
    exact ho sub hbefore
  | success s' atMs =>
    constructor
    · intro h hne
      have hsub : (s.step (.success s' atMs)).followed s' = some true := by
        obtain ⟨b, hb⟩ := Option.ne_none_iff_exists'.1 hne
        simp [step, hb]
      simpa [step, KeepaliveConfig.recordSuccess] using h s' hsub
    · intro hc sub hsub
      by_cases heq : sub = s'
      · subst heq
        have hne : s.followed sub ≠ none := by
          intro hnone
          simp [step, hnone] at hsub
        simpa [step, KeepaliveConfig.recordSuccess] using hc hne
      · have hbefore : s.followed sub = some true := by
          simpa [step, Function.update_of_ne heq] using hsub
        simpa [step, KeepaliveConfig.recordSuccess, Function.update_of_ne heq]
          using ho sub hbefore
  | setIntervalHours hours => exact Iff.rfl

/-- A success outlasts the day of an attempt before it where the interval is a day or more. -/
theorem outlasts_of_day_le {attemptMs successMs hours : ℤ} (hle : attemptMs ≤ successMs)
    (hday : 24 ≤ hours) : Outlasts attemptMs successMs hours := by
  unfold Outlasts RETRY_MS HOUR_MS
  omega

/-- In every run, from any settings: the SIMs back off after failures and only then exactly where
each success, and each interval set after one, outlasts the day that began with the attempt. -/
theorem always_followsFailure_iff (config : KeepaliveConfig) (as : List Action) :
    Run.Always step (fun s => ∀ sub, s.FollowsFailure sub) (start config) as
      ↔ Run.Meets step Covered (start config) as := by
  have hstart : (start config).Inv ∧ (start config).Outlasting :=
    ⟨inv_start config, fun _ h => by cases h⟩
  refine Run.always_iff_meets (I := fun s => s.Inv ∧ s.Outlasting) (d := fun _ _ => True)
    (fun s h => h.1.followsFailure_iff.2 h.2) (fun s a h _ hc => ?_) (fun s a h _ hc hf => ?_)
    as hstart (Run.meets_of_forall fun _ _ => trivial)
  · exact ⟨inv_step s a h.1, (outlasting_step h.2 a).2 hc⟩
  · exact hc ((outlasting_step h.2 a).1 ((inv_step s a h.1).followsFailure_iff.1 hf))

/-- An hourly keepalive that has sent nothing yet. -/
def hourly : KeepaliveConfig where
  keepaliveEnabled := true
  keepaliveIntervalHours := 1
  keepaliveBody := "rackphone keepalive"
  lastSuccessMs _ := 0
  lastAttemptMs _ := 0
  interval_mem := by constructor <;> decide

/-- A forced message that succeeds four seconds later: the next one waits a day, not an hour. -/
theorem hourly_waits_day :
    ¬ Run.Always step (fun s => ∀ sub, s.FollowsFailure sub) (start hourly)
      [.fire twoSims true 1000 1001, .success 1 5000] := by
  intro h
  have hrun := (Run.Always.final _ h 1).success (by decide) 6000
  exact absurd hrun (by decide)

end Backoff

end Rackphone
