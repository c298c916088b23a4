import Rackphone.Lib.Run

/-!
# The screen relay and its client

`ScreenRelay.pump` of `gateway/relay.py` with its three tasks, and `_route` of `screen_socket.dart`.
Two streams come from the device and share one WebSocket; the first byte of a message names its
channel, and a client may send any message. Any task may take a step at any time, the device writes
and reads pieces of any size, and either end may go away in the middle.
-/

namespace Rackphone

inductive Channel where
  | video
  | control
deriving DecidableEq

namespace Channel

def tag : Channel → UInt8
  | video => 0
  | control => 1

def ofTag (b : UInt8) : Option Channel :=
  if b = 0 then some video else if b = 1 then some control else none

end Channel

def READ_SIZE : ℕ := 64 * 1024

inductive WebSocketMessage where
  | text (s : String)
  | bytes (data : List UInt8)
deriving DecidableEq

namespace WebSocketMessage

/-- The channel of a message and what it carries; none where it is passed over. -/
def addressed : WebSocketMessage → Option (Channel × List UInt8)
  | text _ => none
  | bytes [] => none
  | bytes (b :: data) => (Channel.ofTag b).map fun c => (c, data)

/-- A text, an empty message, or one of a channel there is not. -/
def Stray : WebSocketMessage → Prop
  | text _ => True
  | bytes [] => True
  | bytes (b :: _) => b ≠ 0 ∧ b ≠ 1

/-- What one message carries on a channel. -/
def payload (c : Channel) (m : WebSocketMessage) : List UInt8 :=
  match m.addressed with
  | some (c', data) => if c' = c then data else []
  | none => []

end WebSocketMessage

open WebSocketMessage in
/-- What some messages carry on a channel, joined. -/
def payloads (c : Channel) (ms : List WebSocketMessage) : List UInt8 := ms.flatMap (payload c)

/-- Where a `_device_to_client` task is. -/
inductive CopyStage where
  | reading
  /-- It has read some bytes and is about to send them. -/
  | holding (data : List UInt8)
  | returned

def CopyStage.held : CopyStage → List UInt8
  | holding data => data
  | reading | returned => []

structure ScreenRelay where
  /-- All the device has written to each of its sockets. -/
  written : Channel → List UInt8
  unread : Channel → List UInt8
  /-- The device closed the socket. -/
  ended : Channel → Bool
  copy : Channel → CopyStage
  toClient : List WebSocketMessage
  /-- All the client has received on each channel. -/
  clientReceived : Channel → List UInt8
  /-- Every message the client sent. -/
  clientSent : List WebSocketMessage
  toGateway : List WebSocketMessage
  /-- The `_client_to_device` task is in its loop. -/
  dispatching : Bool
  /-- It waits in `drain`. -/
  draining : Bool
  /-- On the way to the device. -/
  outgoing : Channel → List UInt8
  deviceReceived : Channel → List UInt8
  pumping : Bool
  connected : Bool

namespace ScreenRelay

/-- `pump` starts its tasks. -/
def start : ScreenRelay where
  written _ := []
  unread _ := []
  ended _ := false
  copy _ := .reading
  toClient := []
  clientReceived _ := []
  clientSent := []
  toGateway := []
  dispatching := true
  draining := false
  outgoing _ := []
  deviceReceived _ := []
  pumping := true
  connected := true

inductive Action where
  | deviceWrite (c : Channel) (data : List UInt8)
  | deviceClose (c : Channel)
  /-- `reader.read` returns with as much as is there, up to a limit. -/
  | read (c : Channel) (available : ℕ)
  | sendBytes (c : Channel)
  | clientReceive
  /-- The client sends a message of its own. -/
  | clientSend (m : WebSocketMessage)
  | receive
  | drained
  | deviceRead (c : Channel) (count : ℕ)
  /-- The WebSocket ends; of what is on the way each end still gets this much. -/
  | disconnect (toClient toGateway : ℕ)
  /-- A task of the pump has ended, the heartbeat's too, and the others are cancelled. -/
  | stop

variable (s : ScreenRelay)

/-- `reader.read(READ_SIZE)`: some bytes that are there, or none at the end. -/
def read (c : Channel) (available : ℕ) : ScreenRelay :=
  match s.copy c with
  | .reading =>
    if s.unread c = [] then
      if s.ended c then { s with copy := Function.update s.copy c .returned } else s
    else
      let n := min (available + 1) READ_SIZE
      { s with
        copy := Function.update s.copy c (.holding ((s.unread c).take n))
        unread := Function.update s.unread c ((s.unread c).drop n) }
  | _ => s

/-- `websocket.send_bytes(bytes((channel,)) + data)`, which raises where the client is gone. -/
def sendBytes (c : Channel) : ScreenRelay :=
  match s.copy c with
  | .holding data =>
    if s.connected then
      { s with
        copy := Function.update s.copy c .reading
        toClient := s.toClient ++ [.bytes (c.tag :: data)] }
    else { s with copy := Function.update s.copy c .returned }
  | _ => s

/-- `ScreenSocket._route`. -/
def route (m : WebSocketMessage) : ScreenRelay :=
  match m.addressed with
  | some (c, data) =>
    { s with clientReceived := Function.update s.clientReceived c (s.clientReceived c ++ data) }
  | none => s

/-- The body of the loop of `_client_to_device`, for a message that is no disconnect. -/
def dispatch (m : WebSocketMessage) : ScreenRelay :=
  match m.addressed with
  | some (c, data) =>
    { s with
      outgoing := Function.update s.outgoing c (s.outgoing c ++ data)
      draining := true }
  | none => s

/-- `websocket.receive()`; after the last message comes the disconnect, if there was one. -/
def receive : ScreenRelay :=
  if s.dispatching ∧ ¬ s.draining then
    match s.toGateway with
    | m :: rest => { s with toGateway := rest }.dispatch m
    | [] => if s.connected then s else { s with dispatching := false }
  else s

/-- `_socket.add`, which does nothing once the socket is closed. -/
def clientSend (m : WebSocketMessage) : ScreenRelay :=
  { s with
    clientSent := s.clientSent ++ [m]
    toGateway := if s.connected then s.toGateway ++ [m] else s.toGateway }

def deviceWrite (c : Channel) (data : List UInt8) : ScreenRelay :=
  if s.ended c then s
  else
    { s with
      written := Function.update s.written c (s.written c ++ data)
      unread := Function.update s.unread c (s.unread c ++ data) }

def deviceRead (c : Channel) (count : ℕ) : ScreenRelay :=
  { s with
    outgoing := Function.update s.outgoing c ((s.outgoing c).drop count)
    deviceReceived :=
      Function.update s.deviceReceived c (s.deviceReceived c ++ (s.outgoing c).take count) }

def clientReceive : ScreenRelay :=
  match s.toClient with
  | m :: rest => { s with toClient := rest }.route m
  | [] => s

def disconnect (toClient toGateway : ℕ) : ScreenRelay :=
  { s with
    connected := false
    toClient := s.toClient.take toClient
    toGateway := s.toGateway.take toGateway }

def stop : ScreenRelay :=
  { s with
    pumping := false
    copy := fun _ => .returned
    dispatching := false }

def step : Action → ScreenRelay
  | .deviceWrite c data => s.deviceWrite c data
  | .deviceClose c => { s with ended := Function.update s.ended c true }
  | .read c available => s.read c available
  | .sendBytes c => s.sendBytes c
  | .clientReceive => s.clientReceive
  | .clientSend m => s.clientSend m
  | .receive => s.receive
  | .drained => { s with draining := false }
  | .deviceRead c count => s.deviceRead c count
  | .disconnect toClient toGateway => s.disconnect toClient toGateway
  | .stop => s.stop

end ScreenRelay

end Rackphone
