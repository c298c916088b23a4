import Mathlib

/-!
# The keepalive

The companion app's periodic message (`Keepalive.kt`): when each subscription is due, the time the
alarm is armed for, and what an alarm that fires sends. Times are milliseconds. Which
subscriptions are configured, and the number to text for each, come from the SIMs in the phone.
-/

namespace Rackphone

def HOUR_MS : ℤ := 3600000

def RETRY_MS : ℤ := 24 * HOUR_MS

def SLACK_MS : ℤ := 60000

def MIN_DELAY_MS : ℤ := 60000

def MIN_INTERVAL_HOURS : ℤ := 1

def MAX_INTERVAL_HOURS : ℤ := 8760

def SOURCE_KEEPALIVE : String := "keepalive"

def clampInterval (hours : ℤ) : ℤ := max MIN_INTERVAL_HOURS (min hours MAX_INTERVAL_HOURS)

/-- What the keepalive reads of `Config`; a time that was never recorded is zero. -/
structure KeepaliveConfig where
  keepaliveEnabled : Bool
  keepaliveIntervalHours : ℤ
  keepaliveBody : String
  lastSuccessMs : ℤ → ℤ
  lastAttemptMs : ℤ → ℤ
  interval_mem : keepaliveIntervalHours ∈ Set.Icc MIN_INTERVAL_HOURS MAX_INTERVAL_HOURS

namespace KeepaliveConfig

/-- The setter clamps, so what the settings hold stays in the declared range. -/
def setIntervalHours (c : KeepaliveConfig) (hours : ℤ) : KeepaliveConfig :=
  { c with
    keepaliveIntervalHours := clampInterval hours
    interval_mem := ⟨le_max_left _ _, max_le (by decide) (min_le_right _ _)⟩ }

def recordSuccess (c : KeepaliveConfig) (sub atMs : ℤ) : KeepaliveConfig :=
  { c with lastSuccessMs := Function.update c.lastSuccessMs sub atMs }

def recordAttempt (c : KeepaliveConfig) (sub atMs : ℤ) : KeepaliveConfig :=
  { c with lastAttemptMs := Function.update c.lastAttemptMs sub atMs }

def keepaliveIntervalMs (c : KeepaliveConfig) : ℤ := c.keepaliveIntervalHours * HOUR_MS

end KeepaliveConfig

namespace Keepalive

def nextDueAt (lastSuccessMs intervalMs nowMs : ℤ) : ℤ :=
  if lastSuccessMs ≤ 0 then nowMs + intervalMs else lastSuccessMs + intervalMs

def nextRunAt (lastSuccessMs lastAttemptMs intervalMs nowMs : ℤ) : ℤ :=
  let due := nextDueAt lastSuccessMs intervalMs nowMs
  let retry := if 0 < lastAttemptMs then lastAttemptMs + RETRY_MS else 0
  max due retry

def runAtFor (config : KeepaliveConfig) (sub nowMs : ℤ) : ℤ :=
  nextRunAt (config.lastSuccessMs sub) (config.lastAttemptMs sub) config.keepaliveIntervalMs nowMs

structure SendRequest where
  target : String
  body : String
  subId : ℤ
  source : String
  id : String
deriving DecidableEq

/-- What is asked of `Sender`; the radio's answer comes later and through another path. -/
inductive Attempt where
  | send (request : SendRequest)
  | reject (request : SendRequest) (reason : String)
deriving DecidableEq

def Attempt.request : Attempt → SendRequest
  | .send request => request
  | .reject request _ => request

structure Phone where
  /-- The configured subscriptions, in order. -/
  subs : List ℤ
  targetFor : ℤ → Option String
  /-- The id given to a subscription's request. -/
  newId : ℤ → String

variable (phone : Phone)

/-- The time the alarm is armed for; nothing where it is cancelled. -/
def schedule (config : KeepaliveConfig) (now : ℤ) : Option ℤ :=
  if !config.keepaliveEnabled then none else
    let earliest := ((phone.subs.map fun sub => runAtFor config sub now).min?).getD
      (now + config.keepaliveIntervalMs)
    some (max earliest (now + MIN_DELAY_MS))

def sendFor (config : KeepaliveConfig) (sub : ℤ) : Attempt :=
  let request : SendRequest :=
    { target := (phone.targetFor sub).getD ""
      body := config.keepaliveBody
      subId := sub
      source := SOURCE_KEEPALIVE
      id := phone.newId sub }
  if request.target = "" then .reject request "no_target" else .send request

/-- The loop of `fire`. An attempt is recorded before it is made. -/
def fireAll (force : Bool) (now : ℤ) : KeepaliveConfig → List ℤ → KeepaliveConfig × List Attempt
  | config, [] => (config, [])
  | config, sub :: subs =>
    if !force && decide (now + SLACK_MS < runAtFor config sub now) then
      fireAll force now config subs
    else
      let recorded := config.recordAttempt sub now
      let rest := fireAll force now recorded subs
      (rest.1, sendFor phone recorded sub :: rest.2)

inductive Status where
  | disabled
  | not_due
  | sent
deriving DecidableEq

structure Fired where
  config : KeepaliveConfig
  alarm : Option ℤ
  status : Status
  sent : List Attempt

/-- `fire`, which reads the clock again when it arms the next alarm. -/
def fire (config : KeepaliveConfig) (force : Bool) (now later : ℤ) : Fired :=
  if !force && !config.keepaliveEnabled then ⟨config, none, .disabled, []⟩ else
    let (config', sent) := fireAll phone force now config phone.subs
    ⟨config', schedule phone config' later, if sent.isEmpty then .not_due else .sent, sent⟩

def Fired.Attempted (f : Fired) (sub : ℤ) : Prop := ∃ a ∈ f.sent, a.request.subId = sub

instance (f : Fired) (sub : ℤ) : Decidable (f.Attempted sub) :=
  inferInstanceAs (Decidable (∃ a ∈ f.sent, _))

/-- What changes the settings the keepalive reads; a success is the radio's answer to a send. -/
inductive Event where
  | fire (phone : Phone) (force : Bool) (now later : ℤ)
  | success (sub atMs : ℤ)
  | setIntervalHours (hours : ℤ)

def step (config : KeepaliveConfig) : Event → KeepaliveConfig
  | .fire phone force now later => (fire phone config force now later).config
  | .success sub atMs => config.recordSuccess sub atMs
  | .setIntervalHours hours => config.setIntervalHours hours

end Keepalive

end Rackphone
