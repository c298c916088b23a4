import Rackphone.EventStore
import Rackphone.Lib.Run

/-!
# The call controller

`CallController` of `call_controller.dart`. Between two completions the isolate runs what is
ready, so a step is a control, an event or one completion with what follows it up to the next
`await`. What is left of a dial or an accept (the gateway's answer, `_bridge`, the `catch`) stays
with it, since it may resume after a later one has begun. What only the screen reads is left out:
the messages, `_startedAt`, `_muted` and the keys; and so is `dispose`.
-/

namespace Rackphone

inductive CallState where
  | idle | ringing | connecting | inCall | ended
deriving DecidableEq

/-- What a `_closeAudio` waits for. -/
inductive CloseStage where
  | downlink | uplink | connection | audio
deriving DecidableEq

def CloseStage.next : CloseStage → Option CloseStage
  | .downlink => some .uplink
  | .uplink => some .connection
  | .connection => some .audio
  | .audio => none

/-- What a dial or an accept waits for. -/
inductive AttemptPhase where
  /-- `gateway.dial` or `gateway.answerCall`. -/
  | asking
  /-- `socketFactory`. -/
  | opening
  /-- `connection.ready`. -/
  | preparing (connection : ℕ)
  /-- `audio.start`. -/
  | starting (connection : ℕ)
  /-- The close of what arrived too late. -/
  | discarding
  /-- `_closeAudio` in the `catch`. -/
  | closing (stage : CloseStage)
  | finished
deriving DecidableEq

structure CallAttempt where
  unit : String
  /-- A dial, not an accept. -/
  dialled : Bool
  phase : AttemptPhase
deriving DecidableEq

/-- What `socketFactory` returned. -/
structure CallConnection where
  unit : String
  /-- The dial or accept it was opened for. -/
  attempt : ℕ
  closed : Bool
  /-- `_onClosed` waits for its `closed`. -/
  watched : Bool
  /-- A subscription plays its downlink. -/
  downlink : Bool
  /-- A subscription sends the microphone to it. -/
  uplink : Bool
deriving DecidableEq

def CallConnection.Bridged (c : CallConnection) : Prop := c.downlink ∨ c.uplink

instance (c : CallConnection) : Decidable c.Bridged := inferInstanceAs (Decidable (_ ∨ _))

structure CallController where
  state : CallState
  unit : Option String
  caller : Option String
  outgoing : Bool
  placedAt : Option ℤ
  /-- `_ending`, with what the `_closeAudio` of `_end` waits for. -/
  ending : Option CloseStage
  connection : Option ℕ
  downlinkSubscription : Option ℕ
  uplinkSubscription : Option ℕ
  attempts : List CallAttempt
  connections : List CallConnection
  /-- How many `hangup`s wait for `gateway.endCall`. -/
  hangups : ℕ
  /-- How many `reject`s wait for `gateway.rejectCall`. -/
  rejects : ℕ

namespace CallController

inductive Action where
  | event (e : Row)
  | dial (unit callee : String)
  | accept
  | reject
  | hangup
  | dismissEnded
  /-- The gateway answers a dial or an accept. -/
  | answered (i : ℕ) (placedAt : Option ℤ)
  /-- What a dial or an accept waits for completes. -/
  | resumed (i : ℕ)
  /-- It raises. -/
  | raised (i : ℕ)
  /-- `gateway.endCall` returns or raises. -/
  | hungUp
  /-- `gateway.rejectCall` returns or raises. -/
  | rejected
  /-- The `_closeAudio` of `_end` goes on. -/
  | closing
  /-- A connection's `closed` completes or raises. -/
  | closed (c : ℕ)
  /-- A subscription has an error. -/
  | failed

def start : CallController where
  state := .idle
  unit := none
  caller := none
  outgoing := false
  placedAt := none
  ending := none
  connection := none
  downlinkSubscription := none
  uplinkSubscription := none
  attempts := []
  connections := []
  hangups := 0
  rejects := 0

variable (s : CallController)

def update (i : ℕ) (f : CallConnection → CallConnection) : CallController :=
  { s with connections := s.connections.modify i f }

def setPhase (i : ℕ) (phase : AttemptPhase) : CallController :=
  { s with attempts := s.attempts.modify i fun a => { a with phase } }

def cancelDownlink : CallController :=
  match s.downlinkSubscription with
  | some c => s.update c fun c => { c with downlink := false }
  | none => s

def cancelUplink : CallController :=
  match s.uplinkSubscription with
  | some c => s.update c fun c => { c with uplink := false }
  | none => s

def closeConnection : CallController :=
  match s.connection with
  | some c => s.update c fun c => { c with closed := true }
  | none => s

/-- `_closeAudio` up to its first `await`. -/
def closeAudio : CallController := s.cancelDownlink

/-- What `_closeAudio` does when what it waited for has completed. -/
def closeStep : CloseStage → CallController
  | .downlink => s.cancelUplink
  | .uplink => { s with downlinkSubscription := none, uplinkSubscription := none }.closeConnection
  | .connection => { s with connection := none }
  | .audio => s

def end_ : CallController :=
  if s.ending.isSome ∨ s.state = .idle ∨ s.state = .ended then s
  else
    let s : CallController := { s with ending := some .downlink }
    s.closeAudio

def fail : CallController :=
  if s.ending.isSome then s else s.end_

def onClosed : CallController :=
  if s.ending.isSome then s
  else if s.state = .ended ∨ s.state = .idle then s
  else s.end_

/-- What `_bridge` checks after every `await`, where it goes on. -/
def Live : Prop := s.state = .connecting ∧ s.ending = none

instance : Decidable s.Live := inferInstanceAs (Decidable (_ ∧ _))

def predatesDial (e : Row) : Bool :=
  match s.placedAt, e.timestamp with
  | some placedAt, some timestamp => timestamp < placedAt
  | _, _ => false

def onEvent (e : Row) : CallController :=
  if e.kind ≠ KIND_CALL then s
  else if e.direction = some "ringing" then
    if s.state = .connecting ∨ s.state = .inCall then s
    else
      { s with
        unit := some e.unit
        caller := if e.address = some "" then none else e.address
        outgoing := false
        placedAt := none
        state := .ringing }
  else if s.unit ≠ some e.unit ∨ s.state = .idle then s
  else if s.outgoing then
    if e.direction = some "out" ∧ s.predatesDial e = false then s.end_ else s
  else
    match e.address with
    | some address => if address ≠ "" ∧ s.caller ≠ some address then s else s.end_
    | none => s.end_

/-- A dial or an accept begins and asks the gateway. -/
def begin (unit : String) (dialled : Bool) : CallController :=
  { s with state := .connecting, attempts := s.attempts ++ [⟨unit, dialled, .asking⟩] }

/-- `_bridge` up to its first `await`. -/
def bridge (i : ℕ) : CallController :=
  if s.Live then s.setPhase i .opening else s.setPhase i .finished

/-- `socketFactory` returned. -/
def connected (i : ℕ) (a : CallAttempt) : CallController :=
  if s.Live then
    { s with
      connections := s.connections ++ [CallConnection.mk a.unit i false true false false]
      connection := some s.connections.length }.setPhase i (.preparing s.connections.length)
  else
    { s with
      connections := s.connections
        ++ [CallConnection.mk a.unit i true false false false] }.setPhase i .discarding

/-- `audio.start` returned. -/
def started (i c : ℕ) : CallController :=
  if s.Live then
    let s : CallController :=
      { s with downlinkSubscription := some c, uplinkSubscription := some c, state := .inCall }
    (s.update c fun c => { c with downlink := true, uplink := true }).setPhase i .finished
  else s.setPhase i .discarding

def resume (i : ℕ) (a : CallAttempt) : CallController :=
  match a.phase with
  | .opening => s.connected i a
  | .preparing c => if s.Live then s.setPhase i (.starting c) else s.setPhase i .finished
  | .starting c => s.started i c
  | .discarding => s.setPhase i .finished
  | .closing stage =>
    (s.closeStep stage).setPhase i ((stage.next.map AttemptPhase.closing).getD .finished)
  | .asking | .finished => s

/-- The `catch` of `dial` and `accept`. -/
def catchFailure (i : ℕ) : CallController :=
  s.fail.closeAudio.setPhase i (.closing .downlink)

def step : Action → CallController
  | .event e => s.onEvent e
  | .dial unit callee =>
    if s.state ≠ .idle ∧ s.state ≠ .ended then s
    else
      { s with unit := some unit, caller := some callee, outgoing := true, placedAt := none }.begin
        unit true
  | .accept =>
    match s.unit with
    | some unit => if s.state ≠ .ringing then s else s.begin unit false
    | none => s
  | .reject =>
    if s.state ≠ .ringing ∨ s.unit = none then s else { s with rejects := s.rejects + 1 }
  | .hangup =>
    if s.unit ≠ none ∧ (s.state = .connecting ∨ s.state = .inCall) then
      { s with hangups := s.hangups + 1 }
    else s.end_
  | .dismissEnded =>
    if s.state ≠ .ended then s else { s with unit := none, caller := none, state := .idle }
  | .answered i placedAt =>
    match s.attempts[i]? with
    | none => s
    | some a =>
      if a.phase ≠ .asking then s
      else if a.dialled then { s with placedAt }.bridge i
      else s.bridge i
  | .resumed i =>
    match s.attempts[i]? with
    | none => s
    | some a => s.resume i a
  | .raised i =>
    match s.attempts[i]? with
    | none => s
    | some a =>
      match a.phase with
      | .closing _ | .finished => s
      | _ => s.catchFailure i
  | .hungUp => if s.hangups = 0 then s else { s with hangups := s.hangups - 1 }.end_
  | .rejected => if s.rejects = 0 then s else { s with rejects := s.rejects - 1 }.end_
  | .closing =>
    match s.ending with
    | none => s
    | some stage =>
      match stage.next with
      | some next => { s.closeStep stage with ending := some next }
      | none => { s with ending := none, state := .ended }
  | .closed c =>
    match s.connections[c]? with
    | none => s
    | some d =>
      if d.watched then (s.update c fun c => { c with watched := false }).onClosed else s
  | .failed => s.fail

/-- Nothing that was begun is left to complete. -/
def Quiet : Prop :=
  s.ending = none ∧ s.hangups = 0 ∧ s.rejects = 0 ∧ ∀ a ∈ s.attempts, a.phase = .finished

/-- The connection is held or bridged. -/
def Attached (c : ℕ) : Prop :=
  s.connection = some c ∨ ∃ d, s.connections[c]? = some d ∧ d.Bridged

structure AudioSafe : Prop where
  single : ∀ c d, s.Attached c → s.Attached d → c = d
  closed : s.state = .idle ∨ s.state = .ended → s.Quiet → ∀ d ∈ s.connections, d.closed
  shown : s.state = .inCall → ∀ (c : ℕ) (d : CallConnection), s.connections[c]? = some d →
    d.Bridged → d.attempt + 1 = s.attempts.length ∧ s.unit = some d.unit

/-- What a dial or an accept does from here does not reach the call of a later one: `_bridge` does
not find that one connecting when it takes a connection or starts the audio, and the `_closeAudio`
of the `catch` drops neither a subscription that runs nor a connection that is open. -/
def Harmless : AttemptPhase → Prop
  | .opening | .starting _ => ¬ s.Live
  | .closing .uplink => ∀ d ∈ s.connections, ¬ d.Bridged
  | .closing .connection => ∀ d ∈ s.connections, d.closed
  | _ => True

def OwnCall : Action → Prop
  | .resumed i => ∀ a ∈ s.attempts[i]?, i + 1 < s.attempts.length → s.Harmless a.phase
  | _ => True

/-- A call's end has begun and is not through. -/
def EndPending : Prop := s.ending.isSome ∨ 0 < s.hangups ∨ 0 < s.rejects

/-- Something that was begun completes, and does not fail. -/
def Completes : Action → Prop
  | .answered _ _ | .resumed _ | .hungUp | .rejected | .closing => True
  | _ => False

/-- It fails, or a connection closes. -/
def Fails : Action → Prop
  | .raised _ | .closed _ | .failed => True
  | _ => False

def IsRinging (e : Row) : Prop := e.kind = KIND_CALL ∧ e.direction = some "ringing"

/-- The screen rings with the caller of a ringing event. -/
def Shows (e : Row) : Prop :=
  s.state = .ringing ∧ s.unit = some e.unit
    ∧ s.caller = if e.address = some "" then none else e.address

/-- A ringing event is shown, once what was begun before it has completed. -/
def RingKept (e : Row) : Prop :=
  ∀ as : List Action, (∀ a ∈ as, Completes a) →
    Run.Always step (fun s => s.Quiet → s.Shows e) (s.step (.event e)) as

instance : Decidable s.Quiet := inferInstanceAs (Decidable (_ ∧ _ ∧ _ ∧ ∀ a ∈ _, _ = _))

instance (phase : AttemptPhase) : Decidable (s.Harmless phase) :=
  match phase with
  | .opening | .starting _ => inferInstanceAs (Decidable (¬ s.Live))
  | .closing .uplink => inferInstanceAs (Decidable (∀ d ∈ s.connections, ¬ d.Bridged))
  | .closing .connection => inferInstanceAs (Decidable (∀ d ∈ s.connections, d.closed))
  | .closing .downlink | .closing .audio | .asking | .preparing _ | .discarding | .finished =>
    isTrue trivial

instance (a : Action) : Decidable (s.OwnCall a) :=
  match a with
  | .resumed i => inferInstanceAs
      (Decidable (∀ a ∈ s.attempts[i]?, i + 1 < s.attempts.length → s.Harmless a.phase))
  | .event _ | .dial _ _ | .accept | .reject | .hangup | .dismissEnded | .answered _ _ | .raised _
  | .hungUp | .rejected | .closing | .closed _ | .failed => isTrue trivial

end CallController

end Rackphone
