import Rackphone.Lib.Run

/-!
# The battery guard

`rackphone-battery`'s `control.sh`, the loop of `guard.sh`, and the commands that reach the charge
control besides it. Three things are written by different commands: the kernel's nodes, the cached
method and the marker that says charging is suspended. The guard decides by the marker alone. A
battery is what these hold; the state of a run carries, for its history, whether a node was probed
since charging was last suspended or resumed.
-/

namespace Rackphone

inductive Candidate where
  | qcom_input_suspend
  | qcom_charging_enabled
  | battery_input_suspend
  | battery_battery_charging_enabled
  | battery_charging_enabled
deriving DecidableEq

namespace Candidate

def path : Candidate → String
  | qcom_input_suspend => "/sys/class/qcom-battery/input_suspend"
  | qcom_charging_enabled => "/sys/class/qcom-battery/charging_enabled"
  | battery_input_suspend => "/sys/class/power_supply/battery/input_suspend"
  | battery_battery_charging_enabled =>
    "/sys/class/power_supply/battery/battery_charging_enabled"
  | battery_charging_enabled => "/sys/class/power_supply/battery/charging_enabled"

def suspend : Candidate → String
  | qcom_input_suspend | battery_input_suspend => "1"
  | _ => "0"

def resume : Candidate → String
  | qcom_input_suspend | battery_input_suspend => "0"
  | _ => "1"

end Candidate

/-- Most preferred first. -/
def CANDIDATES : List Candidate :=
  [.qcom_input_suspend, .qcom_charging_enabled, .battery_input_suspend,
    .battery_battery_charging_enabled, .battery_charging_enabled]

/-- What a write to a node does: some kernels export one and drop what is written. -/
inductive OnWrite where
  | stores
  | ignores
  | fails
deriving DecidableEq

structure Node where
  value : String
  onWrite : OnWrite
deriving DecidableEq

def Node.write (n : Node) (v : String) : Option Node :=
  match n.onWrite with
  | .stores => some { n with value := v }
  | .ignores => some n
  | .fails => none

structure Battery where
  /-- The candidates that are there to write to. -/
  nodes : Candidate → Option Node
  /-- The entry cached by the last probe that found one. -/
  method : Option Candidate
  suspended : Bool

namespace Battery

def cat (b : Battery) (c : Candidate) : Option String := (b.nodes c).map Node.value

/-- `echo v > node`, which fails on a node that is not writable. -/
def echo (b : Battery) (c : Candidate) (v : String) : Option Battery :=
  (b.nodes c).bind fun n =>
    (n.write v).map fun n' => { b with nodes := Function.update b.nodes c (some n') }

def detectFrom : List Candidate → Battery → Battery × Option Candidate
  | [], b => (b, none)
  | c :: cs, b =>
    match b.echo c c.resume with
    | none => detectFrom cs b
    | some b' =>
      if b'.cat c = some c.resume then ({ b' with method := some c }, some c)
      else detectFrom cs b'

def detect (b : Battery) : Battery × Option Candidate := detectFrom CANDIDATES b

/-- The cached method, if its node is writable. -/
def usable (b : Battery) : Option Candidate := b.method.filter fun c => (b.nodes c).isSome

def isPinned (pinned : String) : Bool := pinned ≠ "" && pinned ≠ "auto"

def methodEntry (pinned : String) (b : Battery) : Battery × Option Candidate :=
  if isPinned pinned then (b, CANDIDATES.find? fun c => pinned.toList <:+ c.path.toList) else
    match b.usable with
    | some c => (b, some c)
    | none => b.detect

/-- `suspend_charging`, with whether it succeeded. -/
def suspendCharging (pinned : String) (b : Battery) : Battery × Bool :=
  match b.methodEntry pinned with
  | (b, none) => (b, false)
  | (b, some c) =>
    match b.echo c c.suspend with
    | none => (b, false)
    | some b' => ({ b' with suspended := true }, true)

def resumeAll : List Candidate → Battery → Battery × Bool
  | [], b => (b, false)
  | c :: cs, b =>
    match b.echo c c.resume with
    | none => resumeAll cs b
    | some b' => ((resumeAll cs b').1, true)

/-- `resume_charging`, with whether it wrote to a node. -/
def resumeCharging (b : Battery) : Battery × Bool :=
  let resumed := resumeAll CANDIDATES b
  ({ resumed.1 with suspended := false }, resumed.2)

end Battery

/-- What `case "$v" in ''|*[!0-9]*)` lets through, read as a number. -/
def digits (text : String) : Option ℕ :=
  if text ≠ "" ∧ text.toList.all Char.isDigit then
    some (text.toList.foldl (fun n c => 10 * n + (c.toNat - '0'.toNat)) 0)
  else none

/-- The settings a pass reads, as text. -/
structure Settings where
  enabled : String
  maxPercent : String
  minPercent : String
  safetyFloor : String

namespace Settings

def maxp (s : Settings) : ℕ := (digits s.maxPercent).getD 80

def minp (s : Settings) : ℕ := (digits s.minPercent).getD 60

def floor (s : Settings) : ℕ := (digits s.safetyFloor).getD 20

end Settings

inductive Decision where
  | resume
  | suspend
  | keep
deriving DecidableEq

/-- What a pass does, by what it read and whether the marker is there. -/
def decision (s : Settings) (capacity : String) (suspended : Bool) : Decision :=
  if s.maxp ≤ s.minp then .resume else
    match digits capacity with
    | none => .resume
    | some cap =>
      if s.enabled ≠ "1" then if suspended then .resume else .keep
      else if cap ≤ s.floor then if suspended then .resume else .keep
      else if s.maxp ≤ cap then if suspended then .keep else .suspend
      else if cap ≤ s.minp then if suspended then .resume else .keep
      else .keep

inductive BatteryCommand where
  /-- The guard starts, or stops for whatever reason. -/
  | restart
  | pass (settings : Settings) (capacity : String)
  | suspend
  | resume
  | redetect
  | detect
  /-- `control.sh method`, and a reading of the status or the metrics. -/
  | method

structure Watched where
  battery : Battery
  probed : Bool

namespace Watched

/-- The guard starts on a device in any condition. -/
def start (b : Battery) : Watched := ⟨b.resumeCharging.1, false⟩

variable (pinned : String)

def resume (s : Watched) : Watched := ⟨s.battery.resumeCharging.1, false⟩

def suspend (s : Watched) : Watched :=
  let suspended := s.battery.suspendCharging pinned
  ⟨suspended.1, if suspended.2 then false else s.probed⟩

def step (s : Watched) : BatteryCommand → Watched
  | .restart | .resume => s.resume
  | .pass settings capacity =>
    match decision settings capacity s.battery.suspended with
    | .resume => s.resume
    | .suspend => s.suspend pinned
    | .keep => s
  | .suspend => s.suspend pinned
  | .redetect => ⟨({ s.battery with method := none } : Battery).detect.1, true⟩
  | .detect => ⟨s.battery.detect.1, true⟩
  | .method =>
    ⟨(s.battery.methodEntry pinned).1,
      s.probed || (!Battery.isPinned pinned && s.battery.usable.isNone)⟩

end Watched

/-- Readings on which charging must be on. -/
def Released (s : Settings) (capacity : String) : Prop :=
  s.maxp ≤ s.minp ∨ s.enabled ≠ "1" ∨
    ∀ cap, digits capacity = some cap → cap ≤ s.floor ∨ cap ≤ s.minp

/-- Readings on which charging must be off. -/
def Full (s : Settings) (capacity : String) : Prop :=
  s.minp < s.maxp ∧ s.enabled = "1" ∧
    ∃ cap, digits capacity = some cap ∧ s.maxp ≤ cap ∧ s.floor < cap

def Battery.Holds (b : Battery) (c : Candidate) : Prop := b.cat c = some c.suspend

instance (b : Battery) (c : Candidate) : Decidable (b.Holds c) :=
  inferInstanceAs (Decidable (_ = _))

structure Enforced (pinned : String) (s : Settings) (capacity : String) (b : Battery) : Prop where
  suspended_iff : b.suspended = true ↔ ∃ c, b.Holds c
  released : Released s capacity → ∀ c, ¬ b.Holds c
  full : Full s capacity → ∃ c, (b.methodEntry pinned).2 = some c ∧ b.Holds c

namespace Watched

/-- A pass leaves the window enforced. -/
def Enforces (pinned : String) (s : Watched) : BatteryCommand → Prop
  | .pass settings capacity =>
    Enforced pinned settings capacity (s.step pinned (.pass settings capacity)).battery
  | _ => True

/-- A pass that leaves a suspension as it is finds the node not probed since. Below the maximum a
second node, suspended through an older cached method, does as well. -/
def Vouched (s : Watched) : BatteryCommand → Prop
  | .pass settings capacity =>
    s.battery.suspended = true → decision settings capacity true = .keep →
      s.probed = false ∨
        ¬ Full settings capacity ∧ ∃ c, s.battery.Holds c ∧ s.battery.method ≠ some c
  | _ => True

end Watched

end Rackphone
