import Rackphone.InboxController

/-!
# The inbox's lists

The lists of `inbox_controller.dart`, with the events as `GatewayEvent.fromJson` reads them. A
query, the stream and a send may complete in any order, and what completes is merged into the list
as it is then, so a step is one completion. The gateway answers a query with events of the kind it
was asked for, and a send with the message.
-/

namespace Rackphone

structure GatewayEvent where
  id : ℤ
  unit : String
  kind : String
  address : Option String
  body : Option String
  timestamp : Option ℤ
  direction : Option String
  duration : Option ℤ
  receivedAt : Option ℤ
deriving DecidableEq

namespace GatewayEvent

/-- A row as the gateway answers with it. -/
def ofRow (r : Row) : GatewayEvent where
  id := r.id
  unit := r.unit
  kind := r.kind
  address := r.address
  body := r.body
  timestamp := r.timestamp
  direction := r.direction
  duration := r.duration
  receivedAt := some r.receivedAt

/-- Milliseconds: the device's clock, and only where it is missing the host's. -/
def occurredAt (e : GatewayEvent) : Option ℤ :=
  e.timestamp.or (e.receivedAt.map fun received => received * 1000)

end GatewayEvent

instance : InboxEvent GatewayEvent ℤ :=
  ⟨GatewayEvent.id, GatewayEvent.kind, GatewayEvent.direction, fun e => e.occurredAt.getD 0⟩

structure InboxLists where
  unit : String
  /-- The kinds the unit offers. -/
  kinds : List InboxKind
  /-- The gateway can send. -/
  messaging : Bool
  events : InboxKind → List GatewayEvent
  /-- What the queries, the stream and the sends have brought for this unit, in any order. -/
  received : List GatewayEvent

namespace InboxLists

inductive Action where
  /-- A query of `load` completes. -/
  | loaded (kind : InboxKind) (queried : List GatewayEvent)
      (asked : ∀ e ∈ queried, e.kind = gatewayKind kind)
  | streamed (event : GatewayEvent)
  | sent (event : GatewayEvent) (sms : event.kind = KIND_SMS)

def Action.events : Action → List GatewayEvent
  | .loaded _ queried _ => queried
  | .streamed event | .sent event _ => [event]

def start (unit : String) (kinds : List InboxKind) (messaging : Bool) : InboxLists where
  unit := unit
  kinds := kinds
  messaging := messaging
  events _ := []
  received := []

def setEvents (s : InboxLists) (k : InboxKind) (candidates : List GatewayEvent) : InboxLists :=
  { s with events := Function.update s.events k (boundedUnique k candidates) }

def merge (s : InboxLists) : Action → InboxLists
  | .loaded kind queried _ =>
    if kind ∈ s.kinds then s.setEvents kind (s.events kind ++ queried) else s
  | .streamed event =>
    if event.unit ≠ s.unit then s
    else
      match kindOf event with
      | none => s
      | some kind => if kind ∈ s.kinds then s.setEvents kind (event :: s.events kind) else s
  | .sent event _ =>
    if s.messaging then s.setEvents .messages (event :: s.events .messages) else s

/-- What a completion brings an inbox: the rows of a kind the unit offers, an event of the unit and
of such a kind, or the message of a gateway that can send. -/
def Action.brings (unit : String) (kinds : List InboxKind) (messaging : Bool) :
    Action → List GatewayEvent
  | .loaded kind queried _ => if kind ∈ kinds then queried else []
  | .streamed event => if event.unit = unit ∧ ∃ k ∈ kinds, kindOf event = some k then [event] else []
  | .sent event _ => if messaging then [event] else []

/-- The lists after a completion, and for the history what it brought. -/
def step (s : InboxLists) (a : Action) : InboxLists :=
  { s.merge a with received := s.received ++ a.brings s.unit s.kinds s.messaging }

/-- A list shows the newest of the distinct events of its kind that were received, newest first. -/
structure ShowsNewest (k : InboxKind) (shown received : List GatewayEvent) : Prop where
  newest : shown.map newestFirst = Page.newest maximumPerKind
    ((received.filter fun e => kindOf e = some k).map newestFirst).toFinset
  received : shown ⊆ received.filter fun e => kindOf e = some k
  ids : (shown.map GatewayEvent.id).Nodup

/-- Events with the same id have the same kind and time. -/
def SameIds (events : List GatewayEvent) : Prop :=
  ∀ e ∈ events, ∀ e' ∈ events, e.id = e'.id → e.kind = e'.kind ∧ e.occurredAt = e'.occurredAt

instance (events : List GatewayEvent) : Decidable (SameIds events) :=
  inferInstanceAs (Decidable (∀ e ∈ events, ∀ e' ∈ events, _ → _))

end InboxLists

end Rackphone
