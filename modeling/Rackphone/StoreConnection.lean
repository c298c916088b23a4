import Rackphone.EventStore
import Rackphone.Lib.Connection
import Rackphone.Lib.Run

/-!
# Two threads on the store's connection

The drain thread commits batches with `add_events` and acknowledges them; API threads call
`add_sent`, one at a time behind the send lock. Both use the one connection of `gateway/store.py`,
a statement at a time, and either `with` commits or rolls back whatever is open on it. Any
statement and any commit may raise, and a commit that raises is rolled back.
-/

namespace Rackphone

structure SentMessage where
  unit : String
  address : String
  body : String
  timestamp : ℤ
  sub : Option ℤ

def SentMessage.event (x : SentMessage) (lowest : ℤ) : Event :=
  EventStore.sentEventBelow lowest x.unit x.address x.body x.timestamp x.sub

/-- Where the drain thread is in storing and acknowledging a batch. -/
inductive DrainPhase where
  | idle
  /-- In the loop of `add_events`, with the events that were new so far. -/
  | inserting (receivedAt : ℤ) (passed rest stored : List Event)
  /-- `add_events` has returned and the ack comes next. -/
  | acking (batch stored : List Event)

def DrainPhase.passed : DrainPhase → List Event
  | inserting _ passed _ _ => passed
  | _ => []

def DrainPhase.toAck : DrainPhase → List Event
  | acking batch _ => batch
  | _ => []

/-- The statement `add_sent` makes next. -/
inductive SentPhase where
  | idle
  | selecting (x : SentMessage)
  | inserting (x : SentMessage) (lowest : ℤ)
  | fetching (id : ℕ)
  | committing (row : Option Row)

structure StoreConnection where
  connection : Connection EventStore
  drain : DrainPhase
  sent : SentPhase

namespace StoreConnection

def opened (store : EventStore) : StoreConnection := ⟨.opened store, .idle, .idle⟩

inductive Action where
  | addEvents (receivedAt : ℤ) (events : List Event)
  /-- It makes its next statement, which may raise, or acknowledges the batch. -/
  | drain (raises : Bool)
  | addSent (x : SentMessage)
  /-- It makes its next statement, which may raise. -/
  | sent (raises : Bool) (now : ℤ)

def table (s : StoreConnection) : EventStore := s.connection.working

/-- `add_events` rolls back and raises: the batch stays in flight on the device. -/
def drainRolledBack (s : StoreConnection) : StoreConnection :=
  { s with connection := s.connection.rollback, drain := .idle }

def sentRolledBack (s : StoreConnection) : StoreConnection :=
  { s with connection := s.connection.rollback, sent := .idle }

/-- Whether the next statement of `add_sent` ends in a rollback: it raises, or it is an `INSERT`
that stored no row. -/
def SentRollsBack (s : StoreConnection) (raises : Bool) : Prop :=
  match s.sent with
  | .idle => False
  | .inserting x lowest => raises ∨ ¬ s.table.stores (x.event lowest)
  | _ => raises

instance (s : StoreConnection) (raises : Bool) : Decidable (s.SentRollsBack raises) := by
  unfold SentRollsBack; split <;> infer_instance

/-- The next statement of `add_sent`, where it does not end in a rollback. -/
def sentNext (s : StoreConnection) (now : ℤ) : StoreConnection :=
  match s.sent with
  | .idle => s
  | .selecting x => { s with sent := .inserting x (s.table.lowestSourceId x.unit) }
  | .inserting x lowest =>
    let e := x.event lowest
    { s with
      connection := s.connection.write (s.table.insertOrIgnore e now)
      sent := .fetching (s.table.newRow e now).id }
  | .fetching id => { s with sent := .committing (s.table.rows.find? fun r => r.id = id) }
  | .committing _ => { s with connection := s.connection.commit, sent := .idle }

def step (s : StoreConnection) : Action → StoreConnection
  | .addEvents receivedAt events =>
    match s.drain with
    | .idle => { s with drain := .inserting receivedAt [] events [] }
    | _ => s
  | .drain raises =>
    match s.drain with
    | .idle => s
    | .inserting receivedAt passed (e :: rest) stored =>
      if raises then s.drainRolledBack
      else
        { s with
          connection := s.connection.write (s.table.insertOrIgnore e receivedAt)
          drain := .inserting receivedAt (passed ++ [e]) rest
            (if s.table.stores e then stored ++ [e] else stored) }
    | .inserting _ passed [] stored =>
      if raises then s.drainRolledBack
      else { s with connection := s.connection.commit, drain := .acking passed stored }
    | .acking _ _ => { s with drain := .idle }
  | .addSent x =>
    match s.sent with
    | .idle => { s with sent := .selecting x }
    | _ => s
  | .sent raises now => if s.SentRollsBack raises then s.sentRolledBack else s.sentNext now

/-- A batch that is about to be acknowledged is committed, every event of it. -/
def AcksCommitted (s : StoreConnection) : Prop :=
  ∀ e ∈ s.drain.toAck, e.key ∈ s.connection.committed.keys

/-- A rollback of `add_sent` finds every event the running `add_events` has passed committed. -/
def RollbackSafe (s : StoreConnection) : Action → Prop
  | .sent raises _ =>
    s.SentRollsBack raises → ∀ e ∈ s.drain.passed, e.key ∈ s.connection.committed.keys
  | _ => True

instance : DecidablePred AcksCommitted := fun s => by unfold AcksCommitted; infer_instance

instance (s : StoreConnection) : DecidablePred s.RollbackSafe
  | .sent _ _ => by unfold RollbackSafe; infer_instance
  | .addEvents _ _ | .drain _ | .addSent _ => isTrue trivial

end StoreConnection

end Rackphone
