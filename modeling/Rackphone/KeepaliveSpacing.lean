import Rackphone.Keepalive
import Rackphone.Lib.Run

/-!
# How far apart the keepalive spends

The keepalive on a phone that may kill the app at any moment. The process reads its settings and
the times on record from memory; what `apply()` leaves behind reaches the disk later, and a kill
puts back what the disk had. The clock never goes back. A pass that is killed halfway is a pass
over the subscriptions it came to. The times of the real attempts and successes are the history.
-/

namespace Rackphone

open Keepalive

structure KeepaliveSpacing where
  /-- What the process reads. -/
  config : KeepaliveConfig
  disk : KeepaliveConfig
  clock : ℤ
  alarm : Option ℤ
  /-- The time of each SIM's last attempt. -/
  attempted : ℤ → Option ℤ
  /-- The time of each SIM's last recorded success. -/
  succeeded : ℤ → Option ℤ

namespace KeepaliveSpacing

inductive Action where
  | tick (ms : ℕ)
  /-- `fire`: an alarm, or a command that may force it. -/
  | fire (phone : Phone) (force : Bool)
  /-- `onPartResult` records a success on the SIM. -/
  | success (sub : ℤ)
  | setIntervalHours (hours : ℤ)
  | setEnabled (enabled : Bool)
  /-- `schedule`, called from elsewhere. -/
  | reschedule (phone : Phone)
  /-- What was applied so far reaches the disk. -/
  | save
  | kill
  /-- The phone starts up again, and `BootReceiver` re-arms the alarm. -/
  | boot (phone : Phone)

/-- A unit with any settings, at any time. -/
def start (config : KeepaliveConfig) (clock : ℕ+) : KeepaliveSpacing :=
  ⟨config, config, clock, none, fun _ => none, fun _ => none⟩

/-- The pass an alarm or a command makes now. -/
def fired (s : KeepaliveSpacing) (phone : Phone) (force : Bool) : Fired :=
  Keepalive.fire phone s.config force s.clock s.clock

def step (s : KeepaliveSpacing) : Action → KeepaliveSpacing
  | .tick ms => { s with clock := s.clock + ms }
  | .fire phone force =>
    { s with
      config := (s.fired phone force).config
      alarm := (s.fired phone force).alarm
      attempted := fun sub =>
        if (s.fired phone force).Attempted sub then some s.clock else s.attempted sub }
  | .success sub =>
    { s with
      config := s.config.recordSuccess sub s.clock
      succeeded := Function.update s.succeeded sub (some s.clock) }
  | .setIntervalHours hours => { s with config := s.config.setIntervalHours hours }
  | .setEnabled enabled => { s with config := { s.config with keepaliveEnabled := enabled } }
  | .reschedule phone => { s with alarm := schedule phone s.config s.clock }
  | .save => { s with disk := s.config }
  | .kill => { s with config := s.disk }
  | .boot phone => { s with config := s.disk, alarm := schedule phone s.disk s.clock }

/-- An unforced attempt starts a day after the SIM's last attempt and an interval after its last
success, less the slack. -/
def Spaced (s : KeepaliveSpacing) : Action → Prop
  | .fire phone false => ∀ sub, (s.fired phone false).Attempted sub →
    (∀ a ∈ s.attempted sub, a + RETRY_MS - SLACK_MS ≤ s.clock)
      ∧ ∀ t ∈ s.succeeded sub, t + s.config.keepaliveIntervalMs - SLACK_MS ≤ s.clock
  | _ => True

/-- Each attempt and success on record has reached the disk. -/
def Saved (s : KeepaliveSpacing) : Prop :=
  s.disk.lastAttemptMs = s.config.lastAttemptMs ∧ s.disk.lastSuccessMs = s.config.lastSuccessMs

/-- What ends the process loses no time on record. -/
def LosesNothing (s : KeepaliveSpacing) : Action → Prop
  | .kill | .boot _ => s.Saved
  | _ => True

end KeepaliveSpacing

end Rackphone
