import Rackphone.BusyClose
import Rackphone.Lib.Chain
import Rackphone.Lib.Run

/-!
# The screen's decoder work

`ScreenController` of `screen_controller.dart` from the one call of `connect` on, one handler or
one continuation of an `await` at a time. The transport gives out one introduction and packets
after it, on two streams; what comes to a cancelled subscription is lost. A cancellation does not
fail, and `close` and `dispose` may without a difference.
-/

namespace Rackphone

namespace ScreenController

inductive ScreenState where
  | connecting
  | live
  | heldByAnotherDevice
  | closed
  | failed
deriving DecidableEq

/-- What `_runDecoderWork` is given. -/
inductive Op (δ π : Type*) where
  | configure (device : δ)
  | feed (packet : π)
deriving DecidableEq

/-- A call of the decoder. -/
inductive Call (δ π : Type*) where
  | configure (device : δ)
  | feed (packet : π)
  | dispose
deriving DecidableEq

/-- Whether `socketFactory` is awaited, has given a connection that is listened to, or neither. -/
inductive Connection where
  | awaited
  | open
  | absent
deriving DecidableEq

/-- What `disconnect` awaits. -/
inductive Teardown where
  | idle
  | cancellingDevice
  | cancellingVideo
  | closing
  | draining (work : Option ℕ)
  | disposing
  | over
deriving DecidableEq

structure State (δ π : Type*) where
  connection : Connection
  /-- What the transport has given out. -/
  introduced : Bool
  packets : List π
  deviceSubscription : Bool
  videoSubscription : Bool
  decoderWork : Chain (Op δ π)
  device : Option δ
  state : ScreenState
  message : Option (List Char)
  holder : Option (List Char)
  disconnecting : Bool
  disposed : Bool
  teardown : Teardown
  calls : List (Call δ π)

variable {δ π : Type*}

def init : State δ π where
  connection := .awaited
  introduced := false
  packets := []
  deviceSubscription := false
  videoSubscription := false
  decoderWork := .empty
  device := none
  state := .connecting
  message := none
  holder := none
  disconnecting := false
  disposed := false
  teardown := .idle
  calls := []

inductive Action (δ π : Type*) where
  /-- `socketFactory` completes, or fails. -/
  | connected
  | connectFailed (failure : List Char)
  /-- The transport gives something out. -/
  | introduction (device : δ)
  | packet (packet : π)
  | streamError (failure : List Char)
  | closed (reason : BusyClose.CloseReason)
  /-- A piece of decoder work whose `await` is over goes on. -/
  | resume (job : ℕ)
  /-- The decoder is done with one, or failed. -/
  | complete (job : ℕ) (failure : Option (List Char))
  | disconnect
  /-- What `disconnect` awaits is over. -/
  | teardown
  | dispose

def Op.call : Op δ π → Call δ π
  | .configure device => .configure device
  | .feed packet => .feed packet

namespace State

variable (s : State δ π)

def fail (failure : List Char) : State δ π :=
  if s.disconnecting ∨ s.disposed then s
  else { s with message := some failure, state := .failed }

/-- `connect` once `socketFactory` has completed. -/
def onConnected : State δ π :=
  if s.disconnecting ∨ s.disposed then { s with connection := .absent }
  else { s with connection := .open, deviceSubscription := true, videoSubscription := true }

def onDevice (device : δ) : State δ π :=
  if s.device.isSome ∨ s.disconnecting then s
  else
    { s with device := some device, decoderWork := s.decoderWork.add (.configure device) }

def onPacket (packet : π) : State δ π :=
  { s with decoderWork := s.decoderWork.add (.feed packet) }

def onClosed (reason : BusyClose.CloseReason) : State δ π :=
  if s.disconnecting then s
  else
    { s with
      message := some reason.message
      holder := BusyClose.screenHolder reason
      state :=
        match reason.kind with
        | .closed => .closed
        | .heldByAnotherDevice => .heldByAnotherDevice
        | .networkFailure => .failed }

/-- What `_runDecoderWork` does once the decoder is done. -/
def onComplete (op : Op δ π) : Option (List Char) → State δ π
  | some failure => s.fail failure
  | none =>
    match op with
    | .configure _ => if s.disconnecting then s else { s with state := .live }
    | .feed _ => s

def disconnect : State δ π :=
  if s.disconnecting then s
  else { s with disconnecting := true, deviceSubscription := false, teardown := .cancellingDevice }

/-- `disconnect` up to its next `await`. -/
def onTeardown : State δ π :=
  match s.teardown with
  | .cancellingDevice => { s with videoSubscription := false, teardown := .cancellingVideo }
  | .cancellingVideo => { s with teardown := .closing }
  | .closing => { s with teardown := .draining s.decoderWork.last }
  | .draining work =>
    if s.decoderWork.Completed work then
      { s with calls := s.calls ++ [.dispose], teardown := .disposing }
    else s
  | .disposing =>
    { s with teardown := .over, state := if s.disposed then s.state else .closed }
  | .idle | .over => s

end State

def step (s : State δ π) : Action δ π → State δ π
  | .connected => if s.connection = .awaited then s.onConnected else s
  | .connectFailed failure =>
    if s.connection = .awaited then { s.fail failure with connection := .absent } else s
  | .introduction device =>
    if s.connection = .open ∧ s.introduced = false then
      let s := { s with introduced := true }
      if s.deviceSubscription then s.onDevice device else s
    else s
  | .packet packet =>
    if s.connection = .open ∧ s.introduced then
      let s := { s with packets := s.packets ++ [packet] }
      if s.videoSubscription then s.onPacket packet else s
    else s
  | .streamError failure =>
    if s.deviceSubscription ∨ s.videoSubscription then s.fail failure else s
  | .closed reason => if s.connection = .open then s.onClosed reason else s
  | .resume job =>
    match s.decoderWork.starts job with
    | some op =>
      { s with decoderWork := s.decoderWork.start job op, calls := s.calls ++ [op.call] }
    | none => s
  | .complete job failure =>
    match s.decoderWork.runs job with
    | some op =>
      ({ s with decoderWork := s.decoderWork.finish job op }).onComplete op failure
    | none => s
  | .disconnect => s.disconnect
  | .teardown => s.onTeardown
  | .dispose => ({ s with disposed := true }).disconnect

/-! ## Serial work -/

/-- The operations there are for an introduction and packets, in order. -/
def work (device : Option δ) (packets : List π) : List (Op δ π) :=
  device.toList.map .configure ++ packets.map .feed

/-- The decoder is called for the work in order, each operation finished before the next starts,
and not after its `dispose`. -/
def Serialised (s : State δ π) : Prop :=
  ∃ (finished : List (Op δ π)) (running : Option (Op δ π)) (disposed : Bool),
    s.decoderWork.log
        = finished.flatMap (fun op => [.start op, .finish op]) ++ running.toList.map .start
      ∧ finished ++ running.toList <+: work s.device s.packets
      ∧ s.calls = (finished ++ running.toList).map Op.call ++ if disposed then [.dispose] else []

/-- The first call is no packet. -/
def ConfiguredFirst (s : State δ π) : Prop := ∀ p, s.calls.head? ≠ some (.feed p)

/-- No packet comes to a controller that the introduction did not come to. -/
def Introduced (s : State δ π) : Action δ π → Prop
  | .packet _ => s.connection = .open → s.introduced → s.videoSubscription → s.device.isSome
  | _ => True

end ScreenController

end Rackphone
