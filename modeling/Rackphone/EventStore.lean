import Rackphone.Lib.Dict
import Rackphone.Lib.Json
import Rackphone.Lib.Page

/-!
# The event store

The gateway's SQLite table of events (`gateway/store.py`). A row's key is
`(unit, kind, source_id)`; an insert whose key is taken is ignored, and any other gets the row id
one above the highest there is. A table carries both facts: its keys are distinct, and its rows
stand in the order of their ids, so an operation that only inserts extends the list of rows. Old
rows are deleted by the time their device gave them, which need not be the order of their ids.
-/

namespace Rackphone

/-- One event as `INSERT` binds it; `raw` is the text `json.dumps` writes for the payload. -/
structure Event where
  unit : String
  kind : String
  sourceId : ℤ
  address : Option String
  body : Option String
  timestamp : Option ℤ
  direction : Option String
  duration : Option ℤ
  raw : String
deriving DecidableEq

abbrev EventKey := String × String × ℤ

def Event.key (e : Event) : EventKey := (e.unit, e.kind, e.sourceId)

structure Row extends Event where
  id : ℕ
  receivedAt : ℤ
deriving DecidableEq

/-- `ORDER BY ts DESC, id DESC`: a row without a device time sorts below every row with one. -/
def Row.newestKey (r : Row) : WithBot ℤ ×ₗ ℕ := toLex (r.timestamp, r.id)

def KIND_SMS : String := "sms"
def KIND_CALL : String := "call"
def KIND_NOTIFICATION : String := "notification"

def MAX_QUERY_LIMIT : ℕ := 1000

/-- Whether SQLite can store an integer. -/
def Has64Bits (n : ℤ) : Prop := -2 ^ 63 ≤ n ∧ n < 2 ^ 63

instance (n : ℤ) : Decidable (Has64Bits n) := inferInstanceAs (Decidable (_ ∧ _))

/-- How `json.dumps` writes. -/
def jsonDumps : Json.Style := ⟨true, false⟩

structure EventStore where
  rows : List Row
  ids_lt : Table.Ascending Row.id rows
  ids_pos : ∀ r ∈ rows, 0 < r.id
  keys_nodup : (rows.map fun r => r.key).Nodup

namespace EventStore

def empty : EventStore := ⟨[], .nil, by simp, by simp⟩

def keys (s : EventStore) : List EventKey := s.rows.map fun r => r.key

instance (s : EventStore) (k : EventKey) : Decidable (k ∈ s.keys) :=
  inferInstanceAs (Decidable (k ∈ s.rows.map fun r => r.key))

def latestEventId (s : EventStore) : ℕ := Table.maxId Row.id s.rows

/-- The row an insert adds: SQLite gives it one above the highest row id. -/
def newRow (s : EventStore) (e : Event) (receivedAt : ℤ) : Row :=
  { e with id := s.latestEventId + 1, receivedAt }

@[simp] theorem key_newRow (s : EventStore) (e : Event) (t : ℤ) : (s.newRow e t).key = e.key := rfl

def insertOrIgnore (s : EventStore) (e : Event) (receivedAt : ℤ) : EventStore :=
  if h : e.key ∈ s.keys then s else
    { rows := s.rows ++ [s.newRow e receivedAt]
      ids_lt := s.ids_lt.concat rfl
      ids_pos := by
        intro r hr
        rcases List.mem_append.1 hr with hr | hr
        · exact s.ids_pos r hr
        · rw [List.mem_singleton.1 hr]
          exact Nat.succ_pos _
      keys_nodup := Table.nodup_concat s.keys_nodup h }

/-- The statement's `rowcount`: whether the insert stored a row. -/
def stores (s : EventStore) (e : Event) : Bool := e.key ∉ s.keys

/-- The batch loop of `add_events`, with the events that were new. -/
def addEvents (s : EventStore) (receivedAt : ℤ) : List Event → EventStore × List Event
  | [] => (s, [])
  | e :: es =>
    let rest := addEvents (s.insertOrIgnore e receivedAt) receivedAt es
    (rest.1, if s.stores e then e :: rest.2 else rest.2)

/-- `COALESCE(MIN(source_id), 0)` over a unit's messages. -/
def lowestSourceId (s : EventStore) (unit : String) : ℤ :=
  ((s.rows.filter fun r => r.unit = unit ∧ r.kind = KIND_SMS).map fun r => r.sourceId).min?.getD 0

def sentRaw (sub : Option ℤ) : List (String × Json.Scalar) :=
  [("kind", .str KIND_SMS), ("direction", .str "out")]
    ++ (match sub with
      | none => []
      | some n => [("sub", .num n)])

def sentEventBelow (lowest : ℤ) (unit address body : String) (timestamp : ℤ) (sub : Option ℤ) :
    Event where
  unit := unit
  kind := KIND_SMS
  sourceId := min (-timestamp) (lowest - 1)
  address := some address
  body := some body
  timestamp := some timestamp
  direction := some "out"
  duration := none
  raw := String.ofList (Json.printObject jsonDumps (sentRaw sub))

/-- The event `add_sent` stores, below every id the unit's messages have. -/
def sentEvent (s : EventStore) (unit address body : String) (timestamp : ℤ) (sub : Option ℤ) :
    Event :=
  sentEventBelow (s.lowestSourceId unit) unit address body timestamp sub

/-- `add_sent` run to its end: the stored row, or nothing where the insert was ignored and the
call raised. -/
def addSent (s : EventStore) (unit address body : String) (timestamp : ℤ) (sub : Option ℤ)
    (now : ℤ) : Option (EventStore × Row) :=
  let e := s.sentEvent unit address body timestamp sub
  if s.stores e then some (s.insertOrIgnore e now, s.newRow e now) else none

/-- The `WHERE` clause of `prune`. SQLite's integer division rounds towards zero. -/
def Expired (kind : String) (cutoff : ℤ) (r : Row) : Prop :=
  r.kind = kind ∧ (r.timestamp.map fun ts => ts.tdiv 1000).getD r.receivedAt < cutoff

instance (kind : String) (cutoff : ℤ) : DecidablePred (Expired kind cutoff) :=
  fun _ => inferInstanceAs (Decidable (_ ∧ _))

/-- `DELETE`, with its `rowcount`. -/
def delete (s : EventStore) (p : Row → Prop) [DecidablePred p] : EventStore × ℕ :=
  ({ rows := s.rows.filter fun r => ¬ p r
     ids_lt := s.ids_lt.filter _
     ids_pos := fun r hr => s.ids_pos r (List.mem_of_mem_filter hr)
     keys_nodup := s.keys_nodup.sublist (List.filter_sublist.map _) },
    s.rows.countP fun r => p r)

def pruneAll (now : ℤ) : EventStore → List (String × ℤ) → EventStore × ℕ
  | s, [] => (s, 0)
  | s, (kind, days) :: policies =>
    if days = 0 then pruneAll now s policies else
      let deleted := s.delete (Expired kind (now - days * 24 * 60 * 60))
      let rest := pruneAll now deleted.1 policies
      (rest.1, deleted.2 + rest.2)

/-- `prune`, with the number of rows it removed. -/
def prune (s : EventStore) (retentionDays : Dict String ℤ) (now : ℤ) : EventStore × ℕ :=
  pruneAll now s retentionDays.items

/-- The `WHERE` clause of `query_events`; an empty string restricts nothing, as no text does. -/
def Matches (kind unit : Option String) (since : Option ℤ) (r : Row) : Prop :=
  (∀ k, kind = some k → k ≠ "" → r.kind = k) ∧ (∀ u, unit = some u → u ≠ "" → r.unit = u)
    ∧ ∀ t, since = some t → ∃ ts, r.timestamp = some ts ∧ t ≤ ts

instance (kind unit : Option String) (since : Option ℤ) : DecidablePred (Matches kind unit since) :=
  fun r =>
    have : Decidable (∀ k, kind = some k → k ≠ "" → r.kind = k) := match kind with
      | none => isTrue (by simp)
      | some k => decidable_of_iff (k ≠ "" → r.kind = k) (by simp)
    have : Decidable (∀ u, unit = some u → u ≠ "" → r.unit = u) := match unit with
      | none => isTrue (by simp)
      | some u => decidable_of_iff (u ≠ "" → r.unit = u) (by simp)
    have : Decidable (∀ t, since = some t → ∃ ts, r.timestamp = some ts ∧ t ≤ ts) :=
      match since, r.timestamp with
      | none, _ => isTrue (by simp)
      | some t, none => isFalse (by simp)
      | some t, some ts => decidable_of_iff (t ≤ ts) (by simp)
    inferInstanceAs (Decidable (_ ∧ _ ∧ _))

def queryEvents (s : EventStore) (kind unit : Option String) (since : Option ℤ) (limit : ℕ) :
    List Row :=
  Page.top Row.newestKey (max 1 (min limit MAX_QUERY_LIMIT))
    (s.rows.filter fun r => Matches kind unit since r)

end EventStore

end Rackphone
