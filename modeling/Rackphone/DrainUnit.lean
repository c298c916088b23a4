import Rackphone.Lib.Fallible
import Rackphone.Lib.JsonDumps
import Rackphone.Redelivery
import Rackphone.Spool

/-!
# One drain, whatever the spool holds

`drain_unit` of `gateway/drain.py` from the text it reads back to the ack. `from_spool_line` passes
the values of a payload on as they are, and `add_events` hands them to `sqlite3`, which binds null,
booleans, numbers and text. A column's affinity is not modelled: a row keeps what was bound.
-/

namespace Rackphone

open Json (Value lookup IsText)

inductive SqlValue where
  | null
  | integer (n : ℤ)
  | real (spelling : List Char)
  | text (s : String)
deriving DecidableEq

/-- An event as `INSERT` binds it, whatever the types of its columns. -/
structure BoundEvent where
  unit : String
  kind : String
  sourceId : ℤ
  address : SqlValue
  body : SqlValue
  timestamp : SqlValue
  direction : SqlValue
  duration : SqlValue
  raw : String
deriving DecidableEq

namespace SqlValue

def ofText : Option String → SqlValue
  | none => null
  | some s => text s

def ofInt : Option ℤ → SqlValue
  | none => null
  | some n => integer n

end SqlValue

/-- An event whose columns have the types the schema declares. -/
def Event.bound (e : Event) : BoundEvent where
  unit := e.unit
  kind := e.kind
  sourceId := e.sourceId
  address := .ofText e.address
  body := .ofText e.body
  timestamp := .ofInt e.timestamp
  direction := .ofText e.direction
  duration := .ofInt e.duration
  raw := e.raw

def BoundEvent.key (e : BoundEvent) : EventKey := (e.unit, e.kind, e.sourceId)

structure BoundRow extends BoundEvent where
  id : ℕ
  receivedAt : ℤ
deriving DecidableEq

def Row.bound (r : Row) : BoundRow := ⟨r.toEvent.bound, r.id, r.receivedAt⟩

structure EventTable where
  rows : List BoundRow
  ids_lt : Table.Ascending BoundRow.id rows
  keys_nodup : (rows.map fun r => r.key).Nodup

namespace EventTable

def empty : EventTable := ⟨[], .nil, by simp⟩

/-- A store as the table it is. -/
def ofStore (s : EventStore) : EventTable where
  rows := s.rows.map Row.bound
  ids_lt := List.pairwise_map.2 s.ids_lt
  keys_nodup := by
    rw [List.map_map]
    exact s.keys_nodup

def keys (t : EventTable) : List EventKey := t.rows.map fun r => r.key

instance (t : EventTable) (k : EventKey) : Decidable (k ∈ t.keys) :=
  inferInstanceAs (Decidable (k ∈ t.rows.map fun r => r.key))

def newRow (t : EventTable) (e : BoundEvent) (receivedAt : ℤ) : BoundRow :=
  { e with id := Table.maxId BoundRow.id t.rows + 1, receivedAt }

def insertOrIgnore (t : EventTable) (e : BoundEvent) (receivedAt : ℤ) : EventTable :=
  if h : e.key ∈ t.keys then t else
    { rows := t.rows ++ [t.newRow e receivedAt]
      ids_lt := t.ids_lt.concat rfl
      keys_nodup := Table.nodup_concat t.keys_nodup h }

/-- The statement's `rowcount`. -/
def stores (t : EventTable) (e : BoundEvent) : Bool := e.key ∉ t.keys

end EventTable

/-- The exceptions that end a drain. -/
inductive DrainError where
  | parsing (r : Raised)
  /-- A limit of the interpreter or of SQLite. -/
  | limit
  | overflow
  | encoding
  | unsupported
deriving DecidableEq

/-- What goes beyond a limit: a text on which `json.loads` raises what is no `JSONDecodeError`, for
its depth or its digits, and a payload nested too deeply for `json.dumps` or too long for a row. -/
structure Limits where
  text : List Char → Bool
  payload : List (List ℕ × Value) → Bool

def bindInt (n : ℤ) : Except DrainError ℤ := if Has64Bits n then .ok n else .error .overflow

def bindText (s : List ℕ) : Except DrainError String :=
  match Json.text s with
  | some t => .ok (String.ofList t)
  | none => .error .encoding

def bindValue : Value → Except DrainError SqlValue
  | .null => .ok .null
  | .bool b => .ok (.integer (if b then 1 else 0))
  | .int n => do return .integer (← bindInt n)
  | .float spelling => .ok (.real spelling)
  | .str s => do return .text (← bindText s)
  | .arr _ | .obj _ => .error .unsupported

variable (B : Builtins) (limits : Limits) (spell : List Char → List Char)

/-- The text of a payload, bound. -/
def bindRaw (fs : List (List ℕ × Value)) : Except DrainError String :=
  match Json.dumps jsonDumps spell (.obj fs) with
  | some t => .ok (String.ofList t)
  | none => .error .encoding

/-- The arguments of `INSERT`. `json.dumps` runs before the first of them is bound; what it writes,
with `ensure_ascii=False`, is the last. -/
def bindEvent (e : ParsedEvent) : Except DrainError BoundEvent :=
  if limits.payload e.raw then .error .limit
  else do
    let kind ← bindText e.kind
    let sourceId ← bindInt e.sourceId
    let address ← bindValue e.address
    let body ← bindValue e.body
    let timestamp ← bindValue e.timestamp
    let direction ← bindValue e.direction
    let duration ← bindValue e.duration
    let raw ← bindRaw spell e.raw
    return ⟨e.unit, kind, sourceId, address, body, timestamp, direction, duration, raw⟩

/-- The batch loop of `add_events`, with the events that were new; what it has inserted when it
raises is rolled back. -/
def addEvents (t : EventTable) (receivedAt : ℤ) :
    List ParsedEvent → Except DrainError (EventTable × List ParsedEvent)
  | [] => .ok (t, [])
  | e :: es => do
    let bound ← bindEvent limits spell e
    let rest ← addEvents (t.insertOrIgnore bound receivedAt) receivedAt es
    return (rest.1, if t.stores bound then e :: rest.2 else rest.2)

/-- `from_spool_line`, with the limits of `json.loads`. -/
def parseLine (unit : String) (line : List Char) : Except DrainError (Option ParsedEvent) :=
  if limits.text (Lines.strip isBlank line) then .error .limit
  else (fromSpoolLine B unit line).mapError .parsing

/-- The lines that are not blank. -/
def spoolLines (spool : List Char) : List (List Char) :=
  (Lines.split isLineBreak spool).filter fun line => Lines.strip isBlank line ≠ []

structure UnitDrain where
  table : EventTable
  stats : GatewayStats
  /-- How often the ack command has run. -/
  acks : ℕ

/-- `drain_unit`, from what the drain command answered; a drain that raises leaves everything as
it was. -/
def drainUnit (g : UnitDrain) (unit : String) (receivedAt : ℤ) (spool : List Char) :
    Except DrainError UnitDrain :=
  let lines := spoolLines spool
  if lines = [] then .ok g
  else do
    let parsed ← lines.mapM (parseLine B limits unit)
    let events := parsed.reduceOption
    let (table, stored) ← addEvents limits spell g.table receivedAt events
    return ⟨table, ⟨g.stats.drained + events.length, g.stats.stored + stored.length⟩, g.acks + 1⟩

/-- The integers of a device's event have 64 bits. -/
structure Spooled.Fits (x : Spooled) : Prop where
  id : Has64Bits x.id
  ts : Has64Bits x.event.ts
  duration : ∀ n ∈ x.event.duration, Has64Bits n

/-- The line is an object with a string kind, an integer id that SQLite can store, and text or null
address and body. -/
def WellFormed (line : List Char) (kind : List ℕ) (id : ℤ) : Prop :=
  ∃ fs, Json.loads (Lines.strip isBlank line) = some (.obj fs)
    ∧ get "kind" fs = .str kind ∧ get "id" fs = .int id ∧ Has64Bits id
    ∧ ∀ k ∈ ["address", "body"], get k fs = .null ∨ ∃ s, get k fs = .str s

/-- There is a row for the event. -/
def EventTable.Holds (t : EventTable) (unit : String) (kind : List ℕ) (id : ℤ) : Prop :=
  ∃ r ∈ t.rows, r.unit = unit ∧ Json.text kind = some r.kind.toList ∧ r.sourceId = id

/-- The drain comes to the ack with every well-formed event of its lines committed. -/
def Completes (g : UnitDrain) (unit : String) (receivedAt : ℤ) (spool : List Char) : Prop :=
  ∃ g', drainUnit B limits spell g unit receivedAt spool = .ok g' ∧ g'.acks = g.acks + 1
    ∧ ∀ line ∈ spoolLines spool, ∀ kind id, WellFormed line kind id → g'.table.Holds unit kind id

/-- `sqlite3` can bind the value. -/
def Bindable : Value → Prop
  | .null | .bool _ | .float _ => True
  | .int n => Has64Bits n
  | .str s => IsText s
  | .arr _ | .obj _ => False

/-- The kind and the id can be converted and bound, the other columns can be bound, and no string of
the payload has a lone surrogate. -/
structure Storable (fs : List (List ℕ × Value)) : Prop where
  kind : ∃ s, B.str (get "kind" fs) = .ok s ∧ IsText s
  id : ∃ n, B.int (get "id" fs) = .ok n ∧ Has64Bits n
  columns : ∀ k ∈ ["address", "body", "ts", "direction", "duration"], Bindable (get k fs)
  texts : ∀ s ∈ Json.strings (.obj fs), IsText s
  small : ¬ limits.payload fs

/-- An object that lacks a key or can be stored, or an array or a string in which a key is not
found. -/
def HarmlessPayload : Value → Prop
  | .null | .bool _ | .int _ | .float _ => False
  | .arr vs => ¬ (.str (key "kind") ∈ vs ∧ .str (key "id") ∈ vs)
  | .str s => ¬ (key "kind" <:+: s ∧ key "id" <:+: s)
  | .obj fs => (lookup (key "kind") fs).isSome → (lookup (key "id") fs).isSome →
    Storable B limits fs

def Harmless (line : List Char) : Prop :=
  ¬ limits.text (Lines.strip isBlank line)
    ∧ ∀ payload ∈ Json.loads (Lines.strip isBlank line), HarmlessPayload B limits payload

end Rackphone
