import Rackphone.Lib.Run
import Rackphone.StoreConnection

/-!
# Sends while the drain thread works

`add_sent` of `gateway/store.py` a statement at a time, on the one connection that the drain
thread's `add_events` and `prune` use too. The send lock lets one send run at a time; it does not
keep the drain thread out. What `rowcount` and `lastrowid` give is the connection's, and read after
the statement has run. An integer that SQLite cannot store raises where it is bound; statements are
assumed not to fail for other reasons.
-/

namespace Rackphone

/-- An event off a device, whose ids start at 1. -/
structure Arrival extends Event where
  sourceId_pos : 1 ≤ sourceId

/-- A message to be stored, with the time it was queued. -/
structure QueuedMessage extends SentMessage where
  timestamp_nonneg : 0 ≤ timestamp

/-- The rest of the drain thread's call. -/
inductive DrainWork where
  | idle
  /-- The loop of `add_events`; its end commits. -/
  | inserting (receivedAt : ℤ) (rest : List Arrival)
  /-- `rowcount` comes next; `inserted` is whether the `INSERT` added a row. -/
  | counting (receivedAt : ℤ) (inserted : Bool) (rest : List Arrival)
  /-- The loop of `prune`; its end commits. -/
  | pruning (now : ℤ) (policies : List (String × ℤ))

def DrainWork.isPruning : DrainWork → Bool
  | pruning .. => true
  | _ => false

/-- What `add_sent` does next, with the row it has inserted. -/
inductive SendWork where
  | idle
  | selecting (x : QueuedMessage)
  | inserting (x : QueuedMessage) (lowest : ℤ)
  /-- `rowcount`, and after it `lastrowid`, is read. -/
  | counting (row : Row)
  | identifying (row : Row) (rowcount : ℕ)
  | fetching (row : Row) (rowcount lastrowid : ℕ)
  /-- The call is about to return, or to raise where the row was not found. -/
  | returning (row : Row) (returned : Option Row)

/-- The row the call has inserted and not committed. -/
def SendWork.row : SendWork → Option Row
  | counting row | identifying row _ | fetching row _ _ | returning row _ => some row
  | idle | selecting _ | inserting .. => none

structure SendRace where
  connection : Connection EventStore
  /-- The rows the connection's last statement changed, and the id of the last row it inserted. -/
  changes : ℕ
  lastRowid : ℕ
  drain : DrainWork
  send : SendWork
  /-- Every row an `add_sent` has inserted. -/
  sentRows : List Row
  /-- Those that a rollback of `add_events` took while the call was under way. -/
  undone : List Row

namespace SendRace

def opened (store : EventStore) : SendRace := ⟨.opened store, 0, 0, .idle, .idle, [], []⟩

def table (s : SendRace) : EventStore := s.connection.working

inductive Action where
  | addEvents (receivedAt : ℤ) (events : List Arrival)
  | prune (retentionDays : Dict String ℤ) (now : ℤ)
  /-- The drain thread's next statement, or its next `rowcount`. -/
  | drain
  | addSent (x : QueuedMessage)
  /-- What `add_sent` does next. -/
  | send (now : ℤ)

/-- The integers of the row can be bound. -/
def Binds (e : Event) : Prop :=
  Has64Bits e.sourceId ∧ (∀ n ∈ e.timestamp, Has64Bits n) ∧ ∀ n ∈ e.duration, Has64Bits n

instance (e : Event) : Decidable (Binds e) :=
  have : Decidable (∀ n ∈ e.timestamp, Has64Bits n) := Option.decidableForallMem e.timestamp
  have : Decidable (∀ n ∈ e.duration, Has64Bits n) := Option.decidableForallMem e.duration
  inferInstanceAs (Decidable (_ ∧ _ ∧ _))

/-- `INSERT OR IGNORE`. -/
def insert (s : SendRace) (e : Event) (now : ℤ) : SendRace :=
  { s with
    connection := s.connection.write (s.table.insertOrIgnore e now)
    changes := if s.table.stores e then 1 else 0
    lastRowid := if s.table.stores e then (s.table.newRow e now).id else s.lastRowid }

def Expired (now days : ℤ) (kind : String) : Row → Prop :=
  EventStore.Expired kind (now - days * 24 * 60 * 60)

instance (now days : ℤ) (kind : String) : DecidablePred (Expired now days kind) :=
  inferInstanceAs (DecidablePred (EventStore.Expired _ _))

/-- The statement `prune` makes for a kind; none where the kind is kept for ever. -/
def pruneKind (s : SendRace) (now : ℤ) (policy : String × ℤ) : SendRace :=
  if policy.2 = 0 then s
  else
    let deleted := s.table.delete (Expired now policy.2 policy.1)
    { s with connection := s.connection.write deleted.1, changes := deleted.2 }

/-- The row of the send under way that going back to the last commit would take. -/
def uncommitted (s : SendRace) : List Row :=
  s.send.row.toList.filter fun row => row ∈ s.table.rows ∧ row ∉ s.connection.committed.rows

def drainNext (s : SendRace) : SendRace :=
  match s.drain with
  | .idle => s
  | .inserting receivedAt (e :: rest) =>
    if Binds e.toEvent then
      { s.insert e.toEvent receivedAt with
        drain := .counting receivedAt (s.table.stores e.toEvent) rest }
    else
      { s with
        connection := s.connection.rollback
        drain := .idle
        undone := s.undone ++ s.uncommitted }
  | .counting receivedAt _ rest => { s with drain := .inserting receivedAt rest }
  | .pruning now (policy :: rest) => { s.pruneKind now policy with drain := .pruning now rest }
  | .inserting _ [] | .pruning _ [] => { s with connection := s.connection.commit, drain := .idle }

/-- What `INSERT` binds. -/
def sendEvent (x : QueuedMessage) (lowest : ℤ) : Event := x.event lowest

/-- A send that raises rolls the connection back. -/
def sendRaises (s : SendRace) : SendRace :=
  { s with connection := s.connection.rollback, send := .idle }

def sendNext (s : SendRace) (now : ℤ) : SendRace :=
  match s.send with
  | .idle => s
  | .selecting x => { s with send := .inserting x (s.table.lowestSourceId x.unit) }
  | .inserting x lowest =>
    let e := sendEvent x lowest
    if Binds e then
      { s.insert e now with
        send := .counting (s.table.newRow e now)
        sentRows := if s.table.stores e then s.sentRows ++ [s.table.newRow e now] else s.sentRows }
    else s.sendRaises
  | .counting row => { s with send := .identifying row s.changes }
  | .identifying row rowcount => { s with send := .fetching row rowcount s.lastRowid }
  | .fetching row rowcount lastrowid =>
    if rowcount ≠ 1 then s.sendRaises
    else { s with send := .returning row (s.table.rows.find? fun r => r.id = lastrowid) }
  | .returning _ _ => { s with connection := s.connection.commit, send := .idle }

def step (s : SendRace) : Action → SendRace
  | .addEvents receivedAt events =>
    match s.drain with
    | .idle => { s with drain := .inserting receivedAt events }
    | _ => s
  | .prune retentionDays now =>
    match s.drain with
    | .idle => { s with drain := .pruning now retentionDays.items }
    | _ => s
  | .drain => s.drainNext
  | .addSent x =>
    match s.send with
    | .idle => { s with send := .selecting x }
    | _ => s
  | .send now => s.sendNext now

/-! ## What should hold -/

/-- A `SELECT` with the row's id finds the row. -/
def Finds (s : SendRace) (row : Row) : Prop :=
  s.table.rows.find? (fun r => r.id = row.id) = some row

/-- The send does what it is for: its `INSERT` adds a row, below zero or at it and below every id
the unit's messages have, and from then on what the call would return, were it let alone, is that
row. -/
def SendSound (s : SendRace) : Prop :=
  match s.send with
  | .idle | .selecting _ => True
  | .inserting x lowest =>
    let e := sendEvent x lowest
    Binds e ∧ s.table.stores e ∧ e.sourceId ≤ 0
      ∧ ∀ r ∈ s.table.rows, r.unit = x.unit → r.kind = KIND_SMS → e.sourceId < r.sourceId
  | .counting row => s.changes = 1 ∧ s.lastRowid = row.id ∧ s.Finds row
  | .identifying row rowcount => rowcount = 1 ∧ s.lastRowid = row.id ∧ s.Finds row
  | .fetching row rowcount lastrowid => rowcount = 1 ∧ lastrowid = row.id ∧ s.Finds row
  | .returning row returned => returned = some row

/-- No sent row has the key of an arrival, whenever it comes. -/
def NeverMistaken (s : SendRace) : Prop := ∀ r ∈ s.sentRows, ∀ e : Arrival, r.key ≠ e.key

/-- An arrival that was inserted is not taken for one the table had. -/
def Counted (s : SendRace) : Prop :=
  match s.drain with
  | .counting _ inserted _ => inserted = true → s.changes ≠ 0
  | _ => True

structure Sound (s : SendRace) : Prop where
  send : s.SendSound
  kept : s.undone = []
  never : s.NeverMistaken
  counted : s.Counted

/-- A send that chooses its id can store its timestamp, and the unit has an id left below. -/
def SendFits (s : SendRace) : Prop :=
  match s.send with
  | .selecting x => x.timestamp < 2 ^ 63 ∧ -2 ^ 63 < s.table.lowestSourceId x.unit
  | _ => True

/-- An `INSERT` of the drain thread does not come between that of a send and its `rowcount`, nor
store a row before its `lastrowid` is read. -/
def InsertSpares (s : SendRace) (e : Event) : Prop :=
  match s.send with
  | .counting _ => False
  | .identifying _ _ => s.table.stores e = false
  | _ => True

/-- A `DELETE` does not take the row of a send that has yet to read it back; before `rowcount` is
read it takes one other row. -/
def DeleteSpares (s : SendRace) (expired : Row → Prop) [DecidablePred expired] : Prop :=
  match s.send with
  | .counting row => ¬ expired row ∧ s.table.rows.countP (fun r => expired r) = 1
  | .identifying row _ | .fetching row _ _ => ¬ expired row
  | _ => True

/-- The drain thread's next statement leaves the send under way alone. -/
def DrainSpares (s : SendRace) : Prop :=
  match s.drain with
  | .inserting _ (e :: _) =>
    if Binds e.toEvent then s.InsertSpares e.toEvent else s.uncommitted = []
  | .pruning now ((kind, days) :: _) => days = 0 ∨ s.DeleteSpares (Expired now days kind)
  | _ => True

def Undisturbed (s : SendRace) : Action → Prop
  | .send _ => s.SendFits
  | .drain => s.DrainSpares
  | _ => True

end SendRace

end Rackphone
