import Rackphone.Inbox
import Rackphone.Lib.JsonReader
import Rackphone.Lib.JsonRoundTrip
import Rackphone.Lib.Lines

/-!
# The spool's text

What `Inbox.record` writes, one compact object a line, and what the gateway makes of it:
`drain_unit` splits the text it reads back with `str.splitlines` and gives each line that is not
blank to `Event.from_spool_line`. Kotlin's `readLines` and Python's `splitlines` do not break a
text at the same characters.
-/

namespace Rackphone

open Json (Value Scalar codes lookup)

/-- How `org.json` writes. -/
def orgJson : Json.Style := ⟨false, true⟩

namespace Spooled

/-- `event.toString()`. -/
def line (x : Spooled) : List Char := Json.printObject orgJson x.fields

/-- The texts among an event's fields. -/
def texts (x : Spooled) : List String :=
  x.fields.filterMap fun f => match f.2 with
    | .str s => some s
    | _ => none

end Spooled

/-- `File.readLines`. -/
def readLines : List Char → List (List Char) := Lines.split fun c => c = '\n' ∨ c = '\r'

/-- The file `Inbox.record` leaves, having appended a line and trimmed the file to `cap` lines. -/
def recordText (cap : ℕ+) (file : List Char) (x : Spooled) : List Char :=
  let text := file ++ (x.line ++ ['\n'])
  let lines := readLines text
  if lines.length ≤ cap then text
  else ['\n'].intercalate (lines.drop (lines.length - cap)) ++ ['\n']

/-- The text of some events, one a line. -/
def spoolText (xs : List Spooled) : List Char := xs.flatMap fun x => x.line ++ ['\n']

/-- The spool's file after some records, each at the cap set at the time. -/
def spoolFile (records : List (ℕ+ × Spooled)) : List Char :=
  records.foldl (fun file r => recordText r.1 file r.2) []

/-- The events of the spool after the same records. -/
def spoolEvents (records : List (ℕ+ × Spooled)) : List Spooled :=
  (records.foldl (fun b r => b.append r.1 r.2) Inbox.fresh).spool.getD []

/-- Where `str.splitlines` breaks a text. -/
def isLineBreak (c : Char) : Bool :=
  c.toNat ∈ [0x0a, 0x0b, 0x0c, 0x0d, 0x1c, 0x1d, 0x1e, 0x85, 0x2028, 0x2029]

/-- What `str.strip` removes. -/
def isBlank (c : Char) : Bool :=
  c.toNat ∈ [0x09, 0x0a, 0x0b, 0x0c, 0x0d, 0x1c, 0x1d, 0x1e, 0x1f, 0x20, 0x85, 0xa0, 0x1680,
    0x2028, 0x2029, 0x202f, 0x205f, 0x3000] ∨ 0x2000 ≤ c.toNat ∧ c.toNat ≤ 0x200a

/-- The exceptions that leave `from_spool_line`. -/
inductive Raised where
  | typeError
  | conversion
deriving DecidableEq

/-- Python's `str` and `int` on what a JSON text can hold. -/
structure Builtins where
  str : Value → Except Raised (List ℕ)
  int : Value → Except Raised ℤ
  str_str : ∀ s, str (.str s) = .ok s
  int_int : ∀ n, int (.int n) = .ok n

/-- An event as `from_spool_line` returns it; a field the object does not have is null. -/
structure ParsedEvent where
  unit : String
  kind : List ℕ
  sourceId : ℤ
  address : Value
  body : Value
  timestamp : Value
  direction : Value
  duration : Value
  raw : List (List ℕ × Value)

def key (k : String) : List ℕ := codes k.toList

/-- `payload.get`. -/
def get (k : String) (fs : List (List ℕ × Value)) : Value := (lookup (key k) fs).getD .null

/-- `k in payload`. -/
def contains (k : String) : Value → Except Raised Bool
  | .obj fs => .ok (lookup (key k) fs).isSome
  | .arr vs => .ok (vs.any fun v => match v with
    | .str s => s = key k
    | _ => false)
  | .str s => .ok (decide (key k <:+: s))
  | .null | .bool _ | .int _ | .float _ => .error .typeError

variable (B : Builtins) (unit : String)

/-- The event of a payload that has both keys; only an object can be indexed by them. -/
def eventOf : Value → Except Raised ParsedEvent
  | .obj fs => do
    let kind ← B.str (get "kind" fs)
    let sourceId ← B.int (get "id" fs)
    return {
      unit, kind, sourceId, address := get "address" fs, body := get "body" fs
      timestamp := get "ts" fs, direction := get "direction" fs, duration := get "duration" fs
      raw := fs }
  | _ => .error .typeError

/-- `Event.from_spool_line`. -/
def fromSpoolLine (line : List Char) : Except Raised (Option ParsedEvent) :=
  let stripped := Lines.strip isBlank line
  if stripped = [] then .ok none
  else match Json.loads stripped with
    | none => .ok none
    | some payload => do
      let usable ← (do
        if ← contains "kind" payload then contains "id" payload else return false)
      if usable then
        let event ← eventOf B unit payload
        return some event
      else return none

def parseLines : List (List Char) → Except Raised (List ParsedEvent)
  | [] => .ok []
  | line :: lines => do
    let event ← fromSpoolLine B unit line
    let events ← parseLines lines
    return event.toList ++ events

/-- The events `drain_unit` takes from the text it reads back. -/
def drainEvents (spool : List Char) : Except Raised (List ParsedEvent) :=
  parseLines B unit ((Lines.split isLineBreak spool).filter fun line =>
    Lines.strip isBlank line ≠ [])

/-- The event a spooled one stands for. -/
def Spooled.parsed (x : Spooled) : ParsedEvent where
  unit := unit
  kind := key x.event.kind
  sourceId := x.id
  address := .str (key x.event.address)
  body := (x.event.body.map fun s => Value.str (key s)).getD .null
  timestamp := .int x.event.ts
  direction := (x.event.direction.map fun s => Value.str (key s)).getD .null
  duration := (x.event.duration.map Value.int).getD .null
  raw := Json.members x.fields

/-- No text of the event has a character that breaks a line for the gateway and not for the
device. -/
def Unbroken (x : Spooled) : Prop :=
  ∀ s ∈ x.texts, ∀ c ∈ s.toList, c.toNat ≠ 0x85 ∧ c.toNat ≠ 0x2028 ∧ c.toNat ≠ 0x2029

instance : DecidablePred Unbroken := fun x =>
  inferInstanceAs (Decidable (∀ s ∈ x.texts, ∀ c ∈ s.toList,
    c.toNat ≠ 0x85 ∧ c.toNat ≠ 0x2028 ∧ c.toNat ≠ 0x2029))

end Rackphone
