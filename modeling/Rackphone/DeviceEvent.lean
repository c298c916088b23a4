import Rackphone.EventStore

/-!
# Device events

What the companion app's collectors hand to `Inbox.record` (`SmsReceiver.kt`,
`NotificationCollector.kt`, `CallReceiver.kt`, `RackInCallService.kt`): an object of named fields,
without the id. The spool gives it an id, which becomes its last field, and the gateway reads the
columns of a row out of the fields.
-/

namespace Rackphone

open Json (Scalar)

inductive DeviceEvent where
  /-- `SmsReceiver.onReceive`; no body where the unit does not include bodies. -/
  | sms (address : String) (ts : ℤ) (sub : ℤ) (body : Option String)
  /-- `NotificationCollector.onNotificationPosted`. -/
  | notification (package app title : String) (ts : ℤ) (body : Option String)
  /-- `CallReceiver.recordRinging`. -/
  | ringing (address : String) (ts : ℤ) (callId : String) (sub : ℤ)
  /-- `CallReceiver.finish`; the duration is there where the call was answered. -/
  | finished (address : String) (ts : ℤ) (answered : Option ℤ) (callId : String) (sub : ℤ)
  /-- `RackInCallService.recordIfOutgoing`. -/
  | outgoing (address : String) (ts : ℤ) (duration : ℤ) (sub : ℤ)
deriving DecidableEq

namespace DeviceEvent

def bodyField : Option String → Scalar
  | none => .null
  | some s => .str s

def fields : DeviceEvent → List (String × Scalar)
  | sms address ts sub body =>
    [("kind", .str "sms"), ("address", .str address), ("ts", .num ts), ("direction", .str "in"),
      ("sub", .num sub), ("body", bodyField body)]
  | notification package app title ts body =>
    [("kind", .str "notification"), ("address", .str package), ("app", .str app),
      ("title", .str title), ("ts", .num ts), ("body", bodyField body)]
  | ringing address ts callId sub =>
    [("kind", .str "call"), ("address", .str address), ("ts", .num ts),
      ("direction", .str "ringing"), ("call_id", .str callId), ("sub", .num sub)]
  | finished address ts answered callId sub =>
    [("kind", .str "call"), ("address", .str address), ("ts", .num ts),
      ("direction", .str (if answered.isSome then "in" else "missed")),
      ("duration", .num (answered.getD 0)), ("call_id", .str callId), ("sub", .num sub)]
  | outgoing address ts duration sub =>
    [("kind", .str "call"), ("address", .str address), ("ts", .num ts), ("direction", .str "out"),
      ("duration", .num duration), ("sub", .num sub)]

def kind : DeviceEvent → String
  | sms .. => KIND_SMS
  | notification .. => KIND_NOTIFICATION
  | ringing .. | finished .. | outgoing .. => KIND_CALL

def address : DeviceEvent → String
  | sms address .. | ringing address .. | finished address .. | outgoing address .. => address
  | notification package .. => package

def ts : DeviceEvent → ℤ
  | sms _ ts .. | notification _ _ _ ts _ | ringing _ ts .. | finished _ ts .. | outgoing _ ts .. =>
    ts

def body : DeviceEvent → Option String
  | sms _ _ _ body | notification _ _ _ _ body => body
  | ringing .. | finished .. | outgoing .. => none

def direction : DeviceEvent → Option String
  | sms .. => some "in"
  | notification .. => none
  | ringing .. => some "ringing"
  | finished _ _ answered _ _ => some (if answered.isSome then "in" else "missed")
  | outgoing .. => some "out"

def duration : DeviceEvent → Option ℤ
  | finished _ _ answered _ _ => some (answered.getD 0)
  | outgoing _ _ duration _ => some duration
  | sms .. | notification .. | ringing .. => none

end DeviceEvent

structure Spooled where
  id : ℕ
  event : DeviceEvent
deriving DecidableEq

namespace Spooled

/-- The object with its id, put last. -/
def fields (x : Spooled) : List (String × Scalar) := x.event.fields ++ [("id", .num x.id)]

/-- The event the gateway binds for a line of the spool that reads back as it was written. -/
def toEvent (unit : String) (x : Spooled) : Event where
  unit := unit
  kind := x.event.kind
  sourceId := x.id
  address := some x.event.address
  body := x.event.body
  timestamp := some x.event.ts
  direction := x.event.direction
  duration := x.event.duration
  raw := String.ofList (Json.printObject jsonDumps x.fields)

@[simp] theorem unit_toEvent (unit : String) (x : Spooled) : (x.toEvent unit).unit = unit := rfl

@[simp] theorem sourceId_toEvent (unit : String) (x : Spooled) :
    (x.toEvent unit).sourceId = x.id := rfl

end Spooled

end Rackphone
