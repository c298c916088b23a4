import Rackphone.EventStore
import Rackphone.Lib.Lines
import Rackphone.Lib.Run

/-!
# Calls seen from the phone state

`CallReceiver` (`CallReceiver.kt`) with what it keeps in SharedPreferences and in
`current-call.env`, `Numbers.sanitise`, and `CallControl.dial`. A step is one broadcast, handled
from start to end, or a change of `collectCalls`.
-/

namespace Rackphone

/-- Kotlin's `Char.isDigit` and `Char.isWhitespace`. -/
structure KotlinChars where
  isDigit : Char → Bool
  isWhitespace : Char → Bool

/-- What they say of ASCII. -/
def asciiChars : KotlinChars := ⟨Char.isDigit, Char.isWhitespace⟩

namespace Numbers

variable (K : KotlinChars)

def MAX_DIGITS : ℕ := 20

/-- Grouping characters a number is commonly written with. -/
def PUNCTUATION : List Char := [' ', '\u00A0', '-', '\u2013', '(', ')', '.', '/']

/-- The loop over the characters; `first` at index 0. -/
def clean : Bool → List Char → Option (List Char)
  | _, [] => some []
  | first, ch :: rest =>
    if ch ∈ PUNCTUATION then clean false rest
    else if (ch = '+' ∧ first) ∨ K.isDigit ch then (clean false rest).map (ch :: ·)
    else none

def sanitise (raw : Option String) : Option String :=
  match raw with
  | none => none
  | some raw =>
    let trimmed := Lines.strip K.isWhitespace raw.toList
    if trimmed = [] then none
    else
      match clean K true trimmed with
      | none => none
      | some cleaned =>
        let digits := cleaned.countP K.isDigit
        if digits = 0 ∨ digits > MAX_DIGITS then none else some (String.ofList cleaned)

end Numbers

def UNKNOWN_CALLER : String := "unknown"

def SUB_DEFAULT : ℤ := -1

/-- What `Inbox.record` is given. -/
structure CallEvent where
  kind : String
  address : String
  ts : ℤ
  direction : String
  duration : Option ℤ
  callId : String
  sub : ℤ
deriving DecidableEq

/-- A ringing broadcast, with what is asked of the phone while it is handled. -/
structure RingingBroadcast where
  /-- `EXTRA_INCOMING_NUMBER`. -/
  number : Option String
  /-- `EXTRA_SUBSCRIPTION_INDEX`. -/
  subscription : ℤ
  /-- `ActiveCall.ringingNumber()`. -/
  ringingNumber : Option String
  /-- The SIM of `ActiveCall.current`'s account. -/
  accountSub : ℤ
  /-- The start of a random UUID. -/
  generated : String
  now : ℤ

structure CallReceiver where
  collectCalls : Bool
  ringingFrom : String
  ringingSinceMs : ℤ
  callAnsweredMs : ℤ
  ringingSub : ℤ
  callId : String
  /-- `current-call.env`, where it exists. -/
  currentCall : Option String
  /-- What was recorded, oldest first. -/
  recorded : List CallEvent
  /-- No ringing broadcast was collected since the last idle one. -/
  ended : Bool

def shouldRecordRinging (wasRinging : Bool) : Bool := !wasRinging

def namesCallerLate (wasRinging : Bool) (recorded : String) (number : Option String) : Bool :=
  wasRinging && recorded = UNKNOWN_CALLER && number.getD "" ≠ ""

def correlatedCallId (existing generated : String) : String :=
  if existing = "" then generated else existing

namespace CallReceiver

inductive Action where
  | ringing (b : RingingBroadcast)
  | offhook (now : ℤ)
  | idle (now : ℤ)
  | setCollectCalls (value : Bool)

/-- Nothing was ever collected. -/
def start : CallReceiver where
  collectCalls := true
  ringingFrom := ""
  ringingSinceMs := 0
  callAnsweredMs := 0
  ringingSub := SUB_DEFAULT
  callId := ""
  currentCall := none
  recorded := []
  ended := true

variable (K : KotlinChars) (s : CallReceiver)

def persistCallId (callId : String) : CallReceiver := { s with callId }

def writeCurrentCall (caller : String) : CallReceiver :=
  if caller = "" then { s with currentCall := none }
  else { s with currentCall := some s!"ringing=true\nringing_from={caller}\n" }

def address (caller : String) : String := if caller = UNKNOWN_CALLER then "" else caller

def recordRinging (caller : String) (since : ℤ) (callId : String) (sub : ℤ) : CallReceiver :=
  { s with
    recorded := s.recorded ++ [⟨KIND_CALL, address caller, since, "ringing", none, callId, sub⟩] }

def ringingSubOf (b : RingingBroadcast) : ℤ :=
  if 0 ≤ b.subscription then b.subscription else b.accountSub

/-- The number of the caller, or that it is unknown. -/
def callerOf (b : RingingBroadcast) : String :=
  ((Numbers.sanitise K (some (b.number.getD ""))).or
    (Numbers.sanitise K (some (b.ringingNumber.getD "")))).getD UNKNOWN_CALLER

def startRinging (b : RingingBroadcast) : CallReceiver :=
  let wasRinging := s.ringingFrom ≠ ""
  let caller := callerOf K b
  if namesCallerLate wasRinging s.ringingFrom
      (if caller = UNKNOWN_CALLER then none else some caller) then
    ({ s with ringingFrom := caller }.writeCurrentCall caller).recordRinging caller
      s.ringingSinceMs s.callId s.ringingSub
  else if shouldRecordRinging wasRinging then
    let callId := correlatedCallId s.callId b.generated
    let sub := ringingSubOf b
    let s : CallReceiver := s.persistCallId callId
    let s : CallReceiver :=
      { s with
        ringingFrom := caller
        ringingSinceMs := b.now
        callAnsweredMs := 0
        ringingSub := sub }
    (s.writeCurrentCall caller).recordRinging caller b.now callId sub
  else s

def finish (now : ℤ) : CallReceiver :=
  let cleared : CallReceiver :=
    { s with
      ringingSub := SUB_DEFAULT, ringingFrom := "", ringingSinceMs := 0, callAnsweredMs := 0 }
  let cleared := (cleared.persistCallId "").writeCurrentCall ""
  if s.ringingFrom = "" then cleared
  else
    let answered := s.callAnsweredMs > 0
    { cleared with
      recorded := s.recorded ++
        [{ kind := KIND_CALL
           address := address s.ringingFrom
           ts := if s.ringingSinceMs > 0 then s.ringingSinceMs else now
           direction := if answered then "in" else "missed"
           duration := some (if answered then (now - s.callAnsweredMs).tdiv 1000 else 0)
           callId := s.callId
           sub := s.ringingSub }] }

def onReceive : Action → CallReceiver
  | .setCollectCalls value => { s with collectCalls := value }
  | .ringing b => if s.collectCalls then s.startRinging K b else s
  | .offhook now =>
    if s.collectCalls ∧ s.ringingFrom ≠ "" ∧ s.callAnsweredMs = 0 then
      { s with callAnsweredMs := now }
    else s
  | .idle now => if s.collectCalls then s.finish now else s

def step (a : Action) : CallReceiver :=
  match a with
  | .ringing _ => { s.onReceive K a with ended := s.ended && !s.collectCalls }
  | .idle _ => { s.onReceive K a with ended := true }
  | .offhook _ | .setCollectCalls _ => s.onReceive K a

/-! ## Dialling -/

/-- What `CallControl.dial` asks of the phone. -/
structure Phone where
  /-- `ActiveCall.current` is set. -/
  activeCall : Bool
  /-- `CALL_PHONE` is granted. -/
  granted : Bool
  activeSubIds : List ℤ
  subId : ℤ
  defaultSubId : ℤ
  /-- `placeCall` does not throw. -/
  places : Bool

structure DialStatus where
  status : String
  error : Option String
  /-- The number, the time and the SIM of a call that was placed. -/
  placed : Option (String × ℤ × ℤ)
deriving DecidableEq

def isRinging : Bool := s.ringingFrom ≠ ""

def isKnown (phone : Phone) (sub : ℤ) : Bool :=
  sub < 0 || phone.activeSubIds = [] || sub ∈ phone.activeSubIds

def subFor (phone : Phone) (requested : ℤ) : ℤ :=
  if 0 ≤ requested then requested
  else if 0 ≤ phone.subId then phone.subId
  else phone.defaultSubId

def dial (phone : Phone) (callee : String) (sub now : ℤ) : DialStatus :=
  match Numbers.sanitise K (some callee) with
  | none => ⟨"rejected", some "invalid_destination", none⟩
  | some number =>
    if phone.activeCall ∨ s.isRinging then ⟨"rejected", some "busy", none⟩
    else if !phone.granted then ⟨"rejected", some "permission_denied", none⟩
    else if !isKnown phone sub then ⟨"rejected", some "unknown_sim", none⟩
    else if phone.places then ⟨"dialing", none, some (number, now, subFor phone sub)⟩
    else ⟨"failed", none, none⟩

/-! ## What a call leaves behind -/

structure Clear : Prop where
  ringingFrom : s.ringingFrom = ""
  ringingSinceMs : s.ringingSinceMs = 0
  callAnsweredMs : s.callAnsweredMs = 0
  ringingSub : s.ringingSub = SUB_DEFAULT
  callId : s.callId = ""
  currentCall : s.currentCall = none

/-- The broadcast opened a call of its own. -/
structure Opened (b : RingingBroadcast) (s' : CallReceiver) : Prop where
  ringingFrom : s'.ringingFrom = callerOf K b
  ringingSinceMs : s'.ringingSinceMs = b.now
  callAnsweredMs : s'.callAnsweredMs = 0
  callId : s'.callId = b.generated
  recorded : s'.recorded = s.recorded ++
    [⟨KIND_CALL, address (callerOf K b), b.now, "ringing", none, b.generated, ringingSubOf b⟩]

/-- The step leaves nothing of a call that is over. -/
structure Tidy (a : Action) : Prop where
  idle : ∀ now, a = .idle now → (s.step K a).Clear
  ringing : ∀ b, a = .ringing b → s.collectCalls → s.ended → Opened K s b (s.step K a)
  dial : (s.step K a).ended → ∀ (phone : Phone) (callee : String) (sub now : ℤ),
    phone.activeCall = false → ((s.step K a).dial K phone callee sub now).error ≠ some "busy"

/-- An idle broadcast that is not collected finds no call tracked. -/
def IdleCollected : Action → Prop
  | .idle _ => s.collectCalls = false → s.ringingFrom = ""
  | _ => True

instance (a : Action) : Decidable (s.IdleCollected a) :=
  match a with
  | .idle _ => inferInstanceAs (Decidable (_ → _))
  | .ringing _ | .offhook _ | .setCollectCalls _ => isTrue trivial

end CallReceiver

end Rackphone
