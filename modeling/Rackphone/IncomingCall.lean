import Rackphone.CallReceiver

/-!
# One incoming call and its records

The broadcasts of the phone while calls are collected, cut at the calls that rang from an idle
phone: a ringing broadcast, whatever comes until the phone is idle again, and the idle broadcast.
A call that waits while another is in progress has its broadcasts among those.
-/

namespace Rackphone

open CallReceiver (callerOf)

inductive Broadcast where
  | ringing (b : RingingBroadcast)
  | offhook (now : ℤ)
  | idle (now : ℤ)

namespace Broadcast

def toAction : Broadcast → CallReceiver.Action
  | ringing b => .ringing b
  | offhook now => .offhook now
  | idle now => .idle now

def isOffhook : Broadcast → Bool
  | offhook _ => true
  | _ => false

variable (K : KotlinChars)

/-- The receiver after some broadcasts. -/
def received (bs : List Broadcast) : CallReceiver :=
  Run.final (CallReceiver.step K) CallReceiver.start (bs.map toAction)

/-- No broadcast came since the last idle one. -/
def PhoneIdle (bs : List Broadcast) : Prop := bs = [] ∨ ∃ before now, bs = before ++ [idle now]

/-- Whom the ringing broadcasts name, or that it is unknown. -/
def callers (bs : List Broadcast) : List String :=
  bs.filterMap fun
    | ringing b => some (callerOf K b)
    | _ => none

def offhooks (bs : List Broadcast) : List ℤ :=
  bs.filterMap fun
    | offhook now => some now
    | _ => none

end Broadcast

open Broadcast (callers offhooks)

/-- A call that rang from an idle phone. -/
structure IncomingCall where
  first : RingingBroadcast
  rest : List Broadcast
  inProgress : ∀ now, .idle now ∉ rest
  ended : ℤ

namespace IncomingCall

variable (K : KotlinChars) (c : IncomingCall)

def broadcasts : List Broadcast := .ringing c.first :: (c.rest ++ [.idle c.ended])

/-- Whom its ringing broadcasts named before it was answered. -/
def announced : List String :=
  callerOf K c.first :: callers K (c.rest.takeWhile fun b => !b.isOffhook)

def WentOffhook : Prop := ∃ b ∈ c.rest, b.isOffhook = true

instance : Decidable c.WentOffhook := inferInstanceAs (Decidable (∃ b ∈ c.rest, _))

/-- The call is logged once: a ringing record, at most one more that names the caller, and its
outcome, under one id; and the outcome's number was announced while the call rang. -/
def LoggedOnce (records : List CallEvent) : Prop :=
  ∃ (ringing : CallEvent) (further : Option CallEvent) (outcome : CallEvent),
    records = ringing :: (further.toList ++ [outcome])
      ∧ ringing.direction = "ringing"
      ∧ (∀ r ∈ further, r.direction = "ringing" ∧ r.address ≠ "" ∧ r.address = outcome.address)
      ∧ outcome.direction = (if c.WentOffhook then "in" else "missed")
      ∧ (∀ r ∈ records, r.kind = KIND_CALL ∧ r.callId = ringing.callId)
      ∧ (outcome.address ≠ "" → outcome.address ∈ c.announced K)

/-- A ringing broadcast names the caller before the call is answered, or none does later. -/
def NamedInTime : Prop :=
  (∃ name ∈ c.announced K, name ≠ UNKNOWN_CALLER)
    ∨ ∀ name ∈ callers K c.rest, name = UNKNOWN_CALLER

/-- Where the call was answered, the clock was past its zero. -/
def ClockSet : Prop :=
  offhooks c.rest = [] ∨ ∃ now, (offhooks c.rest).find? (fun now => now ≠ 0) = some now ∧ 0 < now

end IncomingCall

end Rackphone
