import Rackphone.Keepalive
import Rackphone.Lib.Run

/-!
# Backoff after a failure

The keepalive's passes, the successes the radio reports and the interval's settings in any order,
with what came last of each SIM beside the two times that are stored for it.
-/

namespace Rackphone

open Keepalive

structure Backoff where
  config : KeepaliveConfig
  /-- Whether a success came in since the SIM's last attempt; nothing before its first. -/
  followed : ℤ → Option Bool

namespace Backoff

inductive Action where
  /-- `fire`, from an alarm or by a command. -/
  | fire (phone : Phone) (force : Bool) (now later : ℕ+)
  /-- A send on the SIM has succeeded, whoever asked for it. -/
  | success (sub : ℤ) (atMs : ℕ+)
  | setIntervalHours (hours : ℤ)

/-- A unit with any settings and any times on record. -/
def start (config : KeepaliveConfig) : Backoff := ⟨config, fun _ => none⟩

def step (s : Backoff) : Action → Backoff
  | .fire phone force now later =>
    let fired := Keepalive.fire phone s.config force now later
    { config := fired.config
      followed := fun sub => if fired.Attempted sub then some false else s.followed sub }
  | .success sub atMs =>
    { config := s.config.recordSuccess sub atMs
      followed := Function.update s.followed sub ((s.followed sub).map fun _ => true) }
  | .setIntervalHours hours => { s with config := s.config.setIntervalHours hours }

/-- After a success the SIM runs an interval later, and before one no earlier than a day after the
attempt. -/
structure FollowsFailure (s : Backoff) (sub : ℤ) : Prop where
  success : s.followed sub = some true → ∀ now : ℕ+,
    runAtFor s.config sub now = s.config.lastSuccessMs sub + s.config.keepaliveIntervalMs
  failure : s.followed sub = some false → ∀ now : ℕ+,
    s.config.lastAttemptMs sub + RETRY_MS ≤ runAtFor s.config sub now

/-- An interval from the success ends no sooner than the day that began with the attempt. -/
def Outlasts (attemptMs successMs hours : ℤ) : Prop :=
  attemptMs + RETRY_MS ≤ successMs + hours * HOUR_MS

instance (a s h : ℤ) : Decidable (Outlasts a s h) := inferInstanceAs (Decidable (_ ≤ _))

/-- The interval in force when a success comes in, or set after one, outlasts the retry day. -/
def Covered (s : Backoff) : Action → Prop
  | .fire .. => True
  | .success sub atMs => s.followed sub ≠ none →
    Outlasts (s.config.lastAttemptMs sub) atMs s.config.keepaliveIntervalHours
  | .setIntervalHours hours => ∀ sub, s.followed sub = some true →
    Outlasts (s.config.lastAttemptMs sub) (s.config.lastSuccessMs sub) (clampInterval hours)

end Backoff

end Rackphone
