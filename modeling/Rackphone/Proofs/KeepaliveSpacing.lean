import Rackphone.KeepaliveSpacing
import Rackphone.Proofs.Backoff

/-!
# A keepalive that is killed may spend again

A pass asks for a day since the attempt on record and an interval since the success on record.
These are the last ones as long as no kill puts back older ones, which `apply()` allows.
-/

namespace Rackphone

open Keepalive

namespace KeepaliveSpacing

/-- The times on record are those of the history. -/
structure Inv (s : KeepaliveSpacing) : Prop where
  clock_pos : 0 < s.clock
  attempted : ∀ sub, ∀ a ∈ s.attempted sub, 0 < a ∧ s.config.lastAttemptMs sub = a
  succeeded : ∀ sub, ∀ t ∈ s.succeeded sub, 0 < t ∧ s.config.lastSuccessMs sub = t

theorem inv_start (config : KeepaliveConfig) (clock : ℕ+) : (start config clock).Inv where
  clock_pos := by
    show (0 : ℤ) < clock
    exact_mod_cast clock.pos
  attempted _ _ h := by cases h
  succeeded _ _ h := by cases h

/-- Other settings change no time on record. -/
theorem Inv.of_times {s s' : KeepaliveSpacing} (h : s.Inv) (hclock : s.clock ≤ s'.clock)
    (hattempted : s'.attempted = s.attempted) (hsucceeded : s'.succeeded = s.succeeded)
    (hattempts : s'.config.lastAttemptMs = s.config.lastAttemptMs)
    (hsuccesses : s'.config.lastSuccessMs = s.config.lastSuccessMs) : s'.Inv where
  clock_pos := h.clock_pos.trans_le hclock
  attempted := by
    rw [hattempted, hattempts]
    exact h.attempted
  succeeded := by
    rw [hsucceeded, hsuccesses]
    exact h.succeeded

theorem inv_fire {s : KeepaliveSpacing} (h : s.Inv) (phone : Phone) (force : Bool) :
    (s.step (.fire phone force)).Inv where
  clock_pos := h.clock_pos
  attempted sub a ha := by
    show 0 < a ∧ (s.fired phone force).config.lastAttemptMs sub = a
    have hrecord : (s.fired phone force).config.lastAttemptMs sub
        = if (s.fired phone force).Attempted sub then s.clock else s.config.lastAttemptMs sub :=
      lastAttemptMs_fire phone s.config force s.clock s.clock sub
    rw [hrecord]
    simp only [step] at ha
    by_cases hatt : (s.fired phone force).Attempted sub
    · rw [if_pos hatt] at ha ⊢
      obtain rfl := Option.some.inj ha
      exact ⟨h.clock_pos, rfl⟩
    · rw [if_neg hatt] at ha ⊢
      exact h.attempted sub a ha
  succeeded sub t ht := by
    show 0 < t ∧ (s.fired phone force).config.lastSuccessMs sub = t
    rw [fired, lastSuccessMs_fire]
    exact h.succeeded sub t ht

theorem inv_success {s : KeepaliveSpacing} (h : s.Inv) (sub : ℤ) :
    (s.step (.success sub)).Inv where
  clock_pos := h.clock_pos
  attempted := h.attempted
  succeeded sub' t ht := by
    simp only [step, KeepaliveConfig.recordSuccess] at ht ⊢
    by_cases heq : sub' = sub
    · subst heq
      rw [Function.update_self] at ht ⊢
      obtain rfl := Option.some.inj ht
      exact ⟨h.clock_pos, rfl⟩
    · rw [Function.update_of_ne heq] at ht ⊢
      exact h.succeeded sub' t ht

theorem inv_step (s : KeepaliveSpacing) (a : Action) (h : s.Inv) (ha : s.LosesNothing a) :
    (s.step a).Inv := by
  cases a with
  | tick ms => exact h.of_times (Int.le_add_of_nonneg_right (Int.natCast_nonneg ms)) rfl rfl rfl rfl
  | fire phone force => exact inv_fire h phone force
  | success sub => exact inv_success h sub
  | setIntervalHours | setEnabled | reschedule | save => exact h.of_times le_rfl rfl rfl rfl rfl
  | kill | boot => exact h.of_times le_rfl rfl rfl ha.1 ha.2

/-- An unforced pass attempts a SIM only where its run time has come. -/
theorem runAtFor_le_of_attempted {s : KeepaliveSpacing} {phone : Phone} {sub : ℤ}
    (h : (s.fired phone false).Attempted sub) :
    runAtFor s.config sub s.clock ≤ s.clock + SLACK_MS := by
  by_cases hen : s.config.keepaliveEnabled = true
  · exact ((attempted_fire hen).1 h).2.resolve_left (by simp)
  · simp [fired, Keepalive.fire, hen, Fired.Attempted] at h

theorem spaced_step (s : KeepaliveSpacing) (a : Action) (h : s.Inv) : s.Spaced a := by
  cases a with
  | fire phone force =>
    cases force with
    | true => trivial
    | false =>
      intro sub hsub
      have hrun := runAtFor_le_of_attempted hsub
      refine ⟨fun a ha => ?_, fun t ht => ?_⟩
      · obtain ⟨hpos, rfl⟩ := h.attempted sub a ha
        have hretry := Backoff.le_nextRunAt hpos (s.config.lastSuccessMs sub)
          s.config.keepaliveIntervalMs s.clock
        rw [runAtFor] at hrun
        omega
      · obtain ⟨hpos, heq⟩ := h.succeeded sub t ht
        have hdue : t + s.config.keepaliveIntervalMs ≤ runAtFor s.config sub s.clock := by
          refine le_trans (le_of_eq ?_) (le_max_left _ _)
          rw [nextDueAt, heq, if_neg (not_le.2 hpos)]
        omega
  | _ => trivial

/-- In every run in which no kill loses a time on record, from any settings, the unforced attempts
are spaced. -/
theorem meets_spaced (config : KeepaliveConfig) (clock : ℕ+) (as : List Action)
    (h : Run.Meets step LosesNothing (start config clock) as) :
    Run.Meets step Spaced (start config clock) as :=
  Run.meets_of_meets inv_step spaced_step as (inv_start config clock) h

theorem saved_waits :
    Run.Meets step Spaced (start (monthly 5) (720 * 3600000 + 5 : ℕ+))
      [.fire twoSims false, .save, .kill, .tick 60000, .fire twoSims false] :=
  meets_spaced _ _ _ ⟨trivial, trivial, ⟨rfl, rfl⟩, trivial, trivial, trivial⟩

/-- The phone starts up a month after its last message, and the alarm goes off a minute later; the
app sends and is killed before the attempt has reached the disk, the next command arms the alarm,
and it sends again a minute later. -/
theorem killed_sends_again :
    ¬ Run.Meets step Spaced (start (monthly 5) (720 * 3600000 + 5 : ℕ+))
      [.boot twoSims, .tick 60000, .fire twoSims false, .kill, .reschedule twoSims, .tick 60000,
        .fire twoSims false] := by
  intro h
  have hagain := (h.2.2.2.2.2.2.1 1 (by decide)).1 (720 * HOUR_MS + 60005) (by decide)
  exact absurd hagain (by decide)

end KeepaliveSpacing

end Rackphone
