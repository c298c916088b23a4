import Rackphone.Capability

/-!
# The client's inbox

`inbox_controller.dart` for one unit, with the gateway it asks. A refresh starts the stream's
request where no stream is up, and then one history query for each kind the unit offers. The
gateway takes the stream's cursor when it handles the stream's request and a page when it handles a
query, in any order, while the drain loop goes on inserting rows. A query remembers, for its
history, the highest row id there was when it was answered.
-/

namespace Rackphone

inductive InboxKind where
  | messages | calls | notifications
deriving DecidableEq

instance : Fintype InboxKind := ⟨{.messages, .calls, .notifications}, fun k => by cases k <;> simp⟩

def gatewayKind : InboxKind → String
  | .messages => KIND_SMS
  | .calls => KIND_CALL
  | .notifications => KIND_NOTIFICATION

def queryLimit : ℕ := 200

def maximumPerKind : ℕ := 500

/-- What the inbox looks at in an event, be it a row of the gateway's or what the client reads. -/
class InboxEvent (α : Type) (κ : outParam Type) [LinearOrder κ] where
  id : α → κ
  kind : α → String
  direction : α → Option String
  /-- Milliseconds, zero where there is no time. -/
  occurredAt : α → ℤ

section InboxEvent

variable {α κ : Type} [LinearOrder κ] [InboxEvent α κ]

/-- A ringing call is none of the kinds. -/
def kindOf (e : α) : Option InboxKind :=
  if InboxEvent.kind e = KIND_SMS then some .messages
  else if InboxEvent.kind e = KIND_CALL ∧ InboxEvent.direction e ≠ some "ringing" then some .calls
  else if InboxEvent.kind e = KIND_NOTIFICATION then some .notifications
  else none

/-- Ties fall back to the store's id. -/
def newestFirst (e : α) : ℤ ×ₗ κ := toLex (InboxEvent.occurredAt e, InboxEvent.id e)

/-- The first of the events of the kind that share an id. -/
def unique (kind : InboxKind) (candidates : List α) : List α :=
  Page.distinctFrom InboxEvent.id [] (candidates.filter fun e => kindOf e = some kind)

def boundedUnique (kind : InboxKind) (candidates : List α) : List α :=
  Page.top newestFirst maximumPerKind (unique kind candidates)

end InboxEvent

/-- The device's clock, or the host's where the device reported none. -/
def occurredAt (r : Row) : ℤ := r.timestamp.getD (r.receivedAt * 1000)

instance : InboxEvent Row ℕ := ⟨Row.id, fun r => r.kind, fun r => r.direction, occurredAt⟩

/-- A unit as the gateway lists it: a unit file's name is never empty. -/
structure RackUnit where
  name : String
  name_ne : name ≠ ""
  config : GatewayConfig

namespace RackUnit

def can (unit : RackUnit) (c : Capability) : Prop := c ∈ unit.config.capabilitiesFor unit.name

instance (unit : RackUnit) (c : Capability) : Decidable (unit.can c) :=
  inferInstanceAs (Decidable (c ∈ unit.config.capabilitiesFor unit.name))

def offers (unit : RackUnit) : InboxKind → Prop
  | .messages | .calls => unit.can .sms
  | .notifications => unit.can .notifications

instance (unit : RackUnit) : DecidablePred unit.offers
  | .messages => inferInstanceAs (Decidable (unit.can .sms))
  | .calls => inferInstanceAs (Decidable (unit.can .sms))
  | .notifications => inferInstanceAs (Decidable (unit.can .notifications))

def kinds (unit : RackUnit) : List InboxKind :=
  [.messages, .calls, .notifications].filter fun k => unit.offers k

def rowsOf (unit : RackUnit) (store : EventStore) (k : InboxKind) : List Row :=
  store.rows.filter fun r => r.unit = unit.name ∧ r.kind = gatewayKind k

def newest (unit : RackUnit) (store : EventStore) (k : InboxKind) : List Row :=
  Page.top Row.newestKey queryLimit (unit.rowsOf store k)

end RackUnit

inductive QueryPhase where
  | sent
  | answered (page : List Row) (asOf : ℕ)
  | merged (asOf : ℕ)
  | failed
deriving DecidableEq

structure Query where
  load : ℕ
  kind : InboxKind
  phase : QueryPhase
deriving DecidableEq

/-- The highest row id there was when the query was answered. -/
def Query.asOf (q : Query) : Option ℕ :=
  match q.phase with
  | .answered _ asOf | .merged asOf => some asOf
  | .sent | .failed => none

/-- The page of a query that is answered and not merged yet. -/
def Query.page (q : Query) : Option (List Row) :=
  match q.phase with
  | .answered page _ => some page
  | _ => none

def Query.isMerged (q : Query) : Bool :=
  match q.phase with
  | .merged _ => true
  | _ => false

inductive StreamPhase where
  | down
  | requested
  | opened (cursor : ℕ)
deriving DecidableEq

structure InboxController where
  store : EventStore
  events : InboxKind → List Row
  stream : StreamPhase
  /-- The load that was started with the stream's request. -/
  streamLoad : ℕ
  loads : ℕ
  queries : List Query

namespace InboxController

inductive Action where
  | insert (receivedAt : ℤ) (events : List Event)
  /-- `refresh`, or the reconnect after a drop: `listen`, then `load`. -/
  | refresh
  /-- The gateway handles the stream's request. -/
  | takeCursor
  /-- The stream delivers a row. -/
  | deliver (i : ℕ)
  | drop
  | answer (i : ℕ)
  | merge (i : ℕ)
  | fail (i : ℕ)

def start (store : EventStore) : InboxController := ⟨store, fun _ => [], .down, 0, 0, []⟩

def setEvents (s : InboxController) (k : InboxKind) (candidates : List Row) : InboxController :=
  { s with events := fun k' => if k' = k then boundedUnique k candidates else s.events k' }

def setPhase (s : InboxController) (i : ℕ) (q : Query) (phase : QueryPhase) : InboxController :=
  { s with queries := s.queries.set i { q with phase } }

variable (unit : RackUnit)

def delivered (s : InboxController) (i : ℕ) : Option (Row × InboxKind) :=
  match s.stream, s.store.rows[i]? with
  | .opened cursor, some r =>
    if cursor < r.id ∧ r.unit = unit.name then
      match kindOf r with
      | some k => if unit.offers k then some (r, k) else none
      | none => none
    else none
  | _, _ => none

def step (s : InboxController) : Action → InboxController
  | .insert receivedAt events => { s with store := (s.store.addEvents receivedAt events).1 }
  | .refresh =>
    { s with
      stream := if s.stream = .down then .requested else s.stream
      streamLoad := if s.stream = .down then s.loads else s.streamLoad
      loads := s.loads + 1
      queries := s.queries ++ unit.kinds.map fun k => ⟨s.loads, k, .sent⟩ }
  | .takeCursor =>
    if s.stream = .requested then { s with stream := .opened s.store.latestEventId } else s
  | .deliver i =>
    match s.delivered unit i with
    | some (r, k) => s.setEvents k (r :: s.events k)
    | none => s
  | .drop => { s with stream := .down }
  | .answer i =>
    match s.queries[i]? with
    | some q =>
      if q.phase = .sent then
        match permittedRows s.store unit.config (some (gatewayKind q.kind)) (some unit.name) none
          queryLimit with
        | some page => s.setPhase i q (.answered page s.store.latestEventId)
        | none => s.setPhase i q .failed
      else s
    | none => s
  | .merge i =>
    match s.queries[i]? with
    | some q =>
      match q.phase with
      | .answered page asOf =>
        (s.setEvents q.kind (s.events q.kind ++ page)).setPhase i q (.merged asOf)
      | _ => s
    | none => s
  | .fail i =>
    match s.queries[i]? with
    | some q => s.setPhase i q .failed
    | none => s

def Loaded (s : InboxController) (n : ℕ) : Prop :=
  ∀ k, unit.offers k → ∃ q ∈ s.queries, q.load = n ∧ q.kind = k ∧ q.isMerged

instance (s : InboxController) (n : ℕ) : Decidable (s.Loaded unit n) :=
  inferInstanceAs (Decidable (∀ k, unit.offers k →
    ∃ q ∈ s.queries, q.load = n ∧ q.kind = k ∧ q.isMerged))

/-- Once the stream is open and its load, or a later one, has succeeded, each of the newest rows of
an offered kind is in the list or above the cursor. -/
def NoGap (s : InboxController) : Prop :=
  ∀ cursor, s.stream = .opened cursor → ∀ n < s.loads, s.streamLoad ≤ n → s.Loaded unit n →
    ∀ k, unit.offers k → ∀ r ∈ unit.newest s.store k, kindOf r = some k →
      r ∈ s.events k ∨ cursor < r.id

/-- Fewer events than the list holds are newer, by the client's order, than any candidate that is
among the newest rows of the kind. -/
def KeepsNewest (s : InboxController) (k : InboxKind) (candidates : List Row) : Prop :=
  ∀ r ∈ unit.newest s.store k, r ∈ candidates → kindOf r = some k →
    Page.ahead newestFirst (unique k candidates) r < maximumPerKind

/-- The cursor is taken when none of the newest rows of a kind has arrived since a query of that
kind was answered that the stream's load or a later one sent; and what is merged or delivered
pushes none of the newest rows off the list. -/
def InOrder (s : InboxController) : Action → Prop
  | .takeCursor => s.stream = .requested → ∀ q ∈ s.queries, s.streamLoad ≤ q.load →
    ∀ asOf ∈ q.asOf, ∀ r ∈ unit.newest s.store q.kind, kindOf r = some q.kind → r.id ≤ asOf
  | .deliver i => ∀ d ∈ s.delivered unit i, s.KeepsNewest unit d.2 (d.1 :: s.events d.2)
  | .merge i => ∀ q ∈ s.queries[i]?, ∀ page ∈ q.page,
    s.KeepsNewest unit q.kind (s.events q.kind ++ page)
  | _ => True

instance (s : InboxController) (k : InboxKind) (candidates : List Row) :
    Decidable (s.KeepsNewest unit k candidates) :=
  inferInstanceAs (Decidable (∀ r ∈ unit.newest s.store k, r ∈ candidates → kindOf r = some k →
    Page.ahead newestFirst (unique k candidates) r < maximumPerKind))

instance (s : InboxController) : DecidablePred (s.InOrder unit)
  | .takeCursor => inferInstanceAs (Decidable (s.stream = .requested → ∀ q ∈ s.queries,
      s.streamLoad ≤ q.load → ∀ asOf ∈ q.asOf, ∀ r ∈ unit.newest s.store q.kind,
        kindOf r = some q.kind → r.id ≤ asOf))
  | .deliver i => inferInstanceAs (Decidable (∀ d ∈ s.delivered unit i,
      s.KeepsNewest unit d.2 (d.1 :: s.events d.2)))
  | .merge i => inferInstanceAs (Decidable (∀ q ∈ s.queries[i]?, ∀ page ∈ q.page,
      s.KeepsNewest unit q.kind (s.events q.kind ++ page)))
  | .insert .. | .refresh | .drop | .answer _ | .fail _ => isTrue trivial

end InboxController

end Rackphone
