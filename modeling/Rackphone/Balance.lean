import Rackphone.CallReceiver
import Rackphone.Keepalive
import Rackphone.Lib.Run

/-!
# Balance checks

`nextRunAt`, `schedule` and `refresh` of `Balance.kt`, with how a request of `Ussd.kt` ends. A pass
asks one SIM at a time and goes on when the request has ended, at whatever time that is. The
settings stay as they are; a restart ends every pass. When a SIM's last unforced request started is
the history.
-/

namespace Rackphone

/-- The settings of the checks. -/
structure BalanceConfig where
  balanceCode : String
  balanceIntervalHours : ℤ
  interval_mem : balanceIntervalHours ∈ Set.Icc 1 8760

def BalanceConfig.balanceIntervalMs (c : BalanceConfig) : ℤ := c.balanceIntervalHours * HOUR_MS

/-- How a request ends. -/
inductive UssdOutcome where
  | answered
  | refused (failureCode : ℤ)
  | timedOut
  | thrown
  | noPermission
  | noTelephony
deriving DecidableEq

/-- What `activeSubIds` reads. -/
abbrev ActiveSubs := {subs : List ℤ // subs.Nodup}

/-- A pass that waits for a request, with the SIMs it is still to ask. -/
structure BalancePass where
  force : Bool
  asking : ℤ
  rest : List ℤ
deriving DecidableEq

structure Balance where
  balanceAt : ℤ → ℤ
  clock : ℤ
  alarm : Option ℤ
  passes : List BalancePass
  /-- The start of each SIM's last unforced request. -/
  requested : ℤ → Option ℤ

namespace Balance

inductive Action where
  | tick (ms : ℕ)
  /-- The alarm fires, not before its time. -/
  | alarm (active : ActiveSubs)
  /-- `refresh`, called by a command or from the screen. -/
  | refresh (active : ActiveSubs) (force : Bool)
  /-- The request of a pass ends. -/
  | outcome (i : ℕ) (o : UssdOutcome) (active : ActiveSubs)
  /-- The network answers a request that was given up. -/
  | lateAnswer (sub : ℤ)
  | boot (active : ActiveSubs)
  | reschedule (active : ActiveSubs)

def start (balanceAt : ℤ → ℤ) (clock : ℕ+) : Balance :=
  ⟨balanceAt, clock, none, [], fun _ => none⟩

def nextRunAt (lastAtMs intervalMs nowMs : ℤ) : ℤ :=
  if lastAtMs ≤ 0 then nowMs else lastAtMs + intervalMs

variable (K : KotlinChars) (c : BalanceConfig)

/-- An empty code turns the checks off. -/
def isBlank : Bool := c.balanceCode.toList.all K.isWhitespace

def runAt (s : Balance) (sub : ℤ) : ℤ :=
  nextRunAt (s.balanceAt sub) c.balanceIntervalMs s.clock

def schedule (s : Balance) (active : ActiveSubs) : Balance :=
  { s with
    alarm := if isBlank K c then none
      else
        let earliest := ((active.1.map (s.runAt c)).min?).getD (s.clock + c.balanceIntervalMs)
        some (max earliest (s.clock + MIN_DELAY_MS)) }

/-- The SIMs a pass asks. -/
def due (s : Balance) (active : ActiveSubs) (force : Bool) : List ℤ :=
  if isBlank K c then []
  else active.1.filter fun sub => force || decide (s.runAt c sub ≤ s.clock)

/-- `ask` for the SIMs that are left. -/
def ask (s : Balance) (active : ActiveSubs) (force : Bool) : List ℤ → Balance
  | [] => s.schedule K c active
  | sub :: rest =>
    { s with
      passes := s.passes ++ [⟨force, sub, rest⟩]
      requested := if force then s.requested
        else Function.update s.requested sub (some s.clock) }

def startRefresh (s : Balance) (active : ActiveSubs) (force : Bool) : Balance :=
  s.ask K c active force (s.due K c active force)

/-- Only an answer is recorded, and only for a SIM that has an id. -/
def record (s : Balance) (sub : ℤ) (o : UssdOutcome) : Balance :=
  if o = .answered ∧ 0 ≤ sub then
    { s with balanceAt := Function.update s.balanceAt sub s.clock }
  else s

/-- Whether the alarm can fire. -/
def AlarmDue (s : Balance) : Prop := ∃ t ∈ s.alarm, t ≤ s.clock

instance (s : Balance) : Decidable s.AlarmDue :=
  inferInstanceAs (Decidable (∃ t ∈ s.alarm, t ≤ s.clock))

def step (s : Balance) : Action → Balance
  | .tick ms => { s with clock := s.clock + ms }
  | .alarm active =>
    if s.AlarmDue then { s with alarm := none }.startRefresh K c active false else s
  | .refresh active force => s.startRefresh K c active force
  | .outcome i o active =>
    match s.passes[i]? with
    | none => s
    | some p =>
      { s with passes := s.passes.eraseIdx i }.record p.asking o |>.ask K c active p.force p.rest
  | .lateAnswer sub => s.record sub .answered
  | .boot active => { s with passes := [] }.schedule K c active
  | .reschedule active => s.schedule K c active

/-- The SIM that an action asks unforced. -/
def asks (s : Balance) : Action → Option ℤ
  | .alarm active => if s.AlarmDue then (s.due K c active false).head? else none
  | .refresh active force => if force then none else (s.due K c active false).head?
  | .outcome i _ _ =>
    match s.passes[i]? with
    | none => none
    | some p => if p.force then none else p.rest.head?
  | .tick _ | .lateAnswer _ | .boot _ | .reschedule _ => none

/-- An unforced request starts an interval after the SIM's last one. -/
def Spaced (s : Balance) (a : Action) : Prop :=
  ∀ sub ∈ s.asks K c a, ∀ t ∈ s.requested sub, t + c.balanceIntervalMs ≤ s.clock

/-- The SIM's last unforced request has been answered, or is an interval ago. -/
def Ready (s : Balance) (sub : ℤ) : Prop :=
  ∀ t ∈ s.requested sub, t ≤ s.balanceAt sub ∨ t + c.balanceIntervalMs ≤ s.clock

instance (s : Balance) (sub : ℤ) : Decidable (s.Ready c sub) :=
  Option.decidableForallMem (s.requested sub)

/-- No unforced pass is under way, and every SIM at hand is ready for one. -/
def MayPass (s : Balance) (active : ActiveSubs) : Prop :=
  (∀ p ∈ s.passes, p.force = true) ∧ ∀ sub ∈ active.1, s.Ready c sub

instance (s : Balance) (active : ActiveSubs) : Decidable (s.MayPass c active) :=
  inferInstanceAs (Decidable (_ ∧ _))

/-- The unforced passes begin where they may. -/
def Orderly (s : Balance) : Action → Prop
  | .alarm active => s.AlarmDue → s.MayPass c active
  | .refresh active force => force = false → s.MayPass c active
  | .tick _ | .outcome .. | .lateAnswer _ | .boot _ | .reschedule _ => True

instance (s : Balance) : DecidablePred (s.Orderly c)
  | .alarm active => inferInstanceAs (Decidable (s.AlarmDue → s.MayPass c active))
  | .refresh active force => inferInstanceAs (Decidable (force = false → s.MayPass c active))
  | .tick _ | .outcome .. | .lateAnswer _ | .boot _ | .reschedule _ => isTrue trivial

end Balance

end Rackphone
