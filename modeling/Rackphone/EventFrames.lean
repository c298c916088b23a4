import Rackphone.EventStore
import Rackphone.Lib.JsonDumps
import Rackphone.Lib.LineSplitter
import Rackphone.Lib.Utf8

/-!
# The frames of the event stream

`with_notify_decision` and what `iter_new_events` yields for a row (`gateway/api.py`), and the
client's `GatewayClient.stream` (`gateway_client.dart`), which decodes the body of the response as
it arrives. What a rule's conditions say of an event is left open.
-/

namespace Rackphone

open Json (Atom Value)
open Transducer

inductive FilterMode where
  | allow
  | deny
deriving DecidableEq

structure FilterRule where
  name : String
  mode : FilterMode
  enabled : Bool
  /-- `not rule.kind or event.kind.lower() in _lowered(rule.kind)`. -/
  coversKind : String → Bool
  matchesEvent : Event → Bool

def shouldPush (event : Event) (rules : List FilterRule) : Bool × Option FilterRule :=
  let active := rules.filter fun r => r.enabled
  match active.find? fun r => r.mode = .deny ∧ r.matchesEvent event with
  | some rule => (false, some rule)
  | none =>
    let applicable := active.filter fun r => r.mode = .allow ∧ r.coversKind event.kind
    match applicable.find? fun r => r.matchesEvent event with
    | some rule => (true, some rule)
    | none =>
      match applicable with
      | rule :: _ => (false, some rule)
      | [] => (true, none)

/-- A row as SQLite holds it, whose integers have 64 bits. -/
structure StoredRow extends Row where
  id_fits : Has64Bits id
  sourceId_fits : Has64Bits sourceId
  timestamp_fits : ∀ n ∈ timestamp, Has64Bits n
  duration_fits : ∀ n ∈ duration, Has64Bits n
  receivedAt_fits : Has64Bits receivedAt

def textAtom : Option String → Atom
  | none => .scalar .null
  | some s => .scalar (.str s)

def numAtom : Option ℤ → Atom
  | none => .scalar .null
  | some n => .scalar (.num n)

/-- The columns of a row, in the order of the table. -/
def Row.columns (r : Row) : List (String × Atom) :=
  [("id", .scalar (.num r.id)), ("unit", .scalar (.str r.unit)), ("kind", .scalar (.str r.kind)),
    ("source_id", .scalar (.num r.sourceId)), ("address", textAtom r.address),
    ("body", textAtom r.body), ("ts", numAtom r.timestamp), ("direction", textAtom r.direction),
    ("duration", numAtom r.duration), ("raw_json", .scalar (.str r.raw)),
    ("received_at", .scalar (.num r.receivedAt))]

/-- The event the rules are asked about, which has neither times nor payload. -/
def Row.decisionEvent (r : Row) : Event where
  unit := r.unit
  kind := r.kind
  sourceId := r.sourceId
  address := r.address
  body := r.body
  timestamp := none
  direction := r.direction
  duration := none
  raw := "{}"

def withNotifyDecision (r : Row) : Option (List FilterRule) → List (String × Atom)
  | none => r.columns ++ [("notify", .bool true), ("filter", .scalar .null)]
  | some filters =>
    let decision := shouldPush r.decisionEvent filters
    r.columns
      ++ [("notify", .bool decision.1), ("filter", textAtom (decision.2.map FilterRule.name))]

/-- A row that is given out, with the rules of the policy then in force. -/
structure Given where
  row : StoredRow
  filters : Option (List FilterRule)

namespace Given

def fields (g : Given) : List (String × Atom) := withNotifyDecision g.row.toRow g.filters

/-- The object that is framed. -/
def object (g : Given) : List (List ℕ × Value) := Atom.members g.fields

/-- The `data:` frame `iter_new_events` yields; none where the object cannot be encoded. No number
of it has a fraction. -/
def frame (g : Given) : Option (List Char) :=
  (Json.dumps jsonDumps id (.obj g.object)).map fun t => "data: ".toList ++ t ++ ['\n', '\n']

end Given

/-- The body of the response once some rows are given out. -/
def eventBody (gs : List Given) : Option (List UInt8) :=
  (gs.mapM Given.frame).map fun frames => Utf8.encode frames.flatten

/-- Dart's `trimLeft`. -/
def isDartSpace (c : Char) : Bool :=
  (9 ≤ c.toNat ∧ c.toNat ≤ 13) ∨ c.toNat = 0x20 ∨ c.toNat = 0x85 ∨ c.toNat = 0xa0
    ∨ c.toNat = 0x1680 ∨ (0x2000 ≤ c.toNat ∧ c.toNat ≤ 0x200a) ∨ c.toNat = 0x2028
    ∨ c.toNat = 0x2029 ∨ c.toNat = 0x202f ∨ c.toNat = 0x205f ∨ c.toNat = 0x3000
    ∨ c.toNat = 0xfeff

mutual

/-- What Dart's `jsonDecode` makes of a value: an integer of more than 64 bits is a double, and a
number that is not finite is no JSON. -/
def dartValue : Value → Option Value
  | .null => some .null
  | .bool b => some (.bool b)
  | .int n => some (if Has64Bits n then .int n else .float (Json.printNum n))
  | .float spelling =>
    if spelling ∈ ["NaN".toList, "Infinity".toList, "-Infinity".toList] then none
    else some (.float spelling)
  | .str s => some (.str s)
  | .arr vs => (dartItems vs).map .arr
  | .obj fs => (dartFields fs).map .obj

def dartItems : List Value → Option (List Value)
  | [] => some []
  | v :: vs => do
    let item ← dartValue v
    let rest ← dartItems vs
    return item :: rest

def dartFields : List (List ℕ × Value) → Option (List (List ℕ × Value))
  | [] => some []
  | f :: fs => do
    let value ← dartValue f.2
    let rest ← dartFields fs
    return (f.1, value) :: rest

end

/-- `_jsonObject`: none where it throws. -/
def jsonObject (body : List Char) : Option (List (List ℕ × Value)) :=
  match (Json.loads body).bind dartValue with
  | some (.obj fs) => some fs
  | _ => none

/-- The loop over the lines; it throws at a text that is no JSON object. -/
structure EventReader where
  data : List (List Char)
  failed : Bool
deriving DecidableEq

namespace EventReader

def start : EventReader := ⟨[], false⟩

/-- Yields what the collected lines hold, if there are any. -/
def flush (s : EventReader) : EventReader × List (List (List ℕ × Value)) :=
  if s.data = [] then (s, [])
  else match jsonObject (['\n'].intercalate s.data) with
    | some fs => (start, [fs])
    | none => ({ s with failed := true }, [])

def step (s : EventReader) (line : List Char) : EventReader × List (List (List ℕ × Value)) :=
  if s.failed then (s, [])
  else if line = [] then s.flush
  else if line.take 5 = "data:".toList then
    ({ s with data := s.data ++ [(line.drop 5).dropWhile isDartSpace] }, [])
  else (s, [])

end EventReader

/-- The stages a byte of the body goes through. -/
abbrev StreamReader := Utf8.Decoder × Bool × LineSplitter.Splitter × EventReader

namespace StreamReader

def start : StreamReader := (.between, true, LineSplitter.start, EventReader.start)

def step : StreamReader → UInt8 → StreamReader × List (List (List ℕ × Value)) :=
  comp Utf8.Decoder.step (comp Utf8.dropMark (comp LineSplitter.step EventReader.step))

/-- What is yielded at the end of the body; none where the stream ends in an error. -/
def close (s : StreamReader) : Option (List (List (List ℕ × Value))) :=
  if s.1 = .between then
    let last := run EventReader.step s.2.2.2 (LineSplitter.close s.2.2.1)
    let left := last.1.flush
    if last.1.failed ∨ left.1.failed then none else some (last.2 ++ left.2)
  else none

end StreamReader

end Rackphone
