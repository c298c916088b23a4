import Rackphone.Lib.Json

/-!
# Reading JSON

A reader that takes a text one character at a time: what it is in the middle of, and the stack of
arrays and objects that are open. It accepts what Python's `json.loads` accepts, with `NaN` and the
infinities, and no control character inside a string. A string is the list of its code points,
since an escape may name a lone surrogate; a number with a fraction or an exponent is left as it is
spelled. The interpreter's limits on the depth of nesting and on the digits of a number are not
modelled.
-/

namespace Json

inductive Value where
  | null
  | bool (b : Bool)
  | int (n : ℤ)
  | float (spelling : List Char)
  | str (s : List ℕ)
  | arr (vs : List Value)
  | obj (fs : List (List ℕ × Value))

/-- Sets a key as a dictionary does: a key that is there keeps its place. -/
def setKey (k : List ℕ) (v : Value) : List (List ℕ × Value) → List (List ℕ × Value)
  | [] => [(k, v)]
  | f :: fs => if f.1 = k then (k, v) :: fs else f :: setKey k v fs

def lookup (k : List ℕ) (fs : List (List ℕ × Value)) : Option Value :=
  (fs.find? fun f => f.1 = k).map Prod.snd

/-- An array or object that is open. -/
inductive Frame where
  | arr (done : List Value)
  | key (done : List (List ℕ × Value))
  | val (done : List (List ℕ × Value)) (key : List ℕ)

inductive NumPhase where
  | neg | zero | int | dot | frac | exp | expSign | expInt
deriving DecidableEq

inductive Mode where
  | value
  | first
  | key
  | firstKey
  | colon
  | after
  /-- In a string; the code points come last first. -/
  | string (acc : List ℕ)
  | escape (acc : List ℕ)
  /-- In a `\u` escape, with the digits so far and how many are to come. -/
  | hex (acc : List ℕ) (code remaining : ℕ)
  | literal (rest : List Char) (v : Value)
  | number (phase : NumPhase) (spelling : List Char)
  | done (v : Value)

structure Reader where
  mode : Mode
  stack : List Frame

namespace Reader

def start : Reader := ⟨.value, []⟩

def isSpace (c : Char) : Bool := c = ' ' ∨ c = '\t' ∨ c = '\n' ∨ c = '\r'

def complete (v : Value) : List Frame → Reader
  | [] => ⟨.done v, []⟩
  | .arr vs :: st => ⟨.after, .arr (vs ++ [v]) :: st⟩
  | .val fs k :: st => ⟨.after, .key (setKey k v fs) :: st⟩
  | .key fs :: st => ⟨.after, .key fs :: st⟩

/-- A string is complete: a key where an object is at one, a value elsewhere. -/
def completeString (s : List ℕ) : List Frame → Reader
  | .key fs :: st => ⟨.colon, .val fs s :: st⟩
  | st => complete (.str s) st

def isHighSurrogate (u : ℕ) : Bool := 0xd800 ≤ u ∧ u < 0xdc00

def isLowSurrogate (u : ℕ) : Bool := 0xdc00 ≤ u ∧ u < 0xe000

/-- Adds a code point, joining the two halves of a surrogate pair. -/
def pushCode (u : ℕ) : List ℕ → List ℕ
  | h :: acc =>
    if isHighSurrogate h ∧ isLowSurrogate u then
      (0x10000 + (h - 0xd800) * 0x400 + (u - 0xdc00)) :: acc
    else u :: h :: acc
  | [] => [u]

def hexVal (c : Char) : Option ℕ :=
  if '0' ≤ c ∧ c ≤ '9' then some (c.toNat - 48)
  else if 'a' ≤ c ∧ c ≤ 'f' then some (c.toNat - 87)
  else if 'A' ≤ c ∧ c ≤ 'F' then some (c.toNat - 55)
  else none

def unescape (c : Char) : Option ℕ :=
  if c = '"' ∨ c = '\\' ∨ c = '/' then some c.toNat
  else if c = 'b' then some 0x08
  else if c = 'f' then some 0x0c
  else if c = 'n' then some 0x0a
  else if c = 'r' then some 0x0d
  else if c = 't' then some 0x09
  else none

def intValue (spelling : List Char) : ℤ :=
  if spelling.head? = some '-' then -(Nat.ofDigitChars 10 spelling.tail 0 : ℤ)
  else Nat.ofDigitChars 10 spelling 0

/-- The value of a number that may end here. -/
def numberValue (spelling : List Char) : NumPhase → Option Value
  | .zero | .int => some (.int (intValue spelling))
  | .frac | .expInt => some (.float spelling)
  | .neg | .dot | .exp | .expSign => none

/-- The phase a number goes on to with one more character, if it goes on. -/
def nextPhase (c : Char) : NumPhase → Option NumPhase
  | .neg => if c = '0' then some .zero else if c.isDigit then some .int else none
  | .zero => if c = '.' then some .dot else if c = 'e' ∨ c = 'E' then some .exp else none
  | .int =>
    if c.isDigit then some .int
    else if c = '.' then some .dot else if c = 'e' ∨ c = 'E' then some .exp else none
  | .dot => if c.isDigit then some .frac else none
  | .frac => if c.isDigit then some .frac else if c = 'e' ∨ c = 'E' then some .exp else none
  | .exp => if c = '+' ∨ c = '-' then some .expSign else if c.isDigit then some .expInt else none
  | .expSign | .expInt => if c.isDigit then some .expInt else none

def literalOf (c : Char) : Option (List Char × Value) :=
  if c = 'n' then some (['u', 'l', 'l'], .null)
  else if c = 't' then some (['r', 'u', 'e'], .bool true)
  else if c = 'f' then some (['a', 'l', 's', 'e'], .bool false)
  else if c = 'N' then some (['a', 'N'], .float ['N', 'a', 'N'])
  else if c = 'I' then
    some (['n', 'f', 'i', 'n', 'i', 't', 'y'], .float ['I', 'n', 'f', 'i', 'n', 'i', 't', 'y'])
  else none

def numStart (c : Char) : Option NumPhase :=
  if c = '-' then some .neg
  else if c = '0' then some .zero
  else if c.isDigit then some .int
  else none

def stepValue (c : Char) (st : List Frame) : Option Reader :=
  if isSpace c then some ⟨.value, st⟩
  else if c = '"' then some ⟨.string [], st⟩
  else if c = '{' then some ⟨.firstKey, .key [] :: st⟩
  else if c = '[' then some ⟨.first, .arr [] :: st⟩
  else match literalOf c with
    | some (rest, v) => some ⟨.literal rest v, st⟩
    | none => (numStart c).map fun phase => ⟨.number phase [c], st⟩

def stepKey (c : Char) (st : List Frame) : Option Reader :=
  if isSpace c then some ⟨.key, st⟩
  else if c = '"' then some ⟨.string [], st⟩
  else none

def stepAfter (c : Char) (st : List Frame) : Option Reader :=
  if isSpace c then some ⟨.after, st⟩
  else match st with
    | .arr vs :: st' =>
      if c = ',' then some ⟨.value, .arr vs :: st'⟩
      else if c = ']' then some (complete (.arr vs) st')
      else none
    | .key fs :: st' =>
      if c = ',' then some ⟨.key, .key fs :: st'⟩
      else if c = '}' then some (complete (.obj fs) st')
      else none
    | _ => none

def stepComplete (r : Reader) (c : Char) : Option Reader :=
  match r.mode with
  | .done v => if isSpace c then some ⟨.done v, r.stack⟩ else none
  | _ => stepAfter c r.stack

def step (r : Reader) (c : Char) : Option Reader :=
  match r.mode with
  | .value => stepValue c r.stack
  | .first =>
    if isSpace c then some r
    else match r.stack with
      | .arr vs :: st => if c = ']' then some (complete (.arr vs) st) else stepValue c r.stack
      | _ => none
  | .key => stepKey c r.stack
  | .firstKey =>
    if isSpace c then some r
    else match r.stack with
      | .key fs :: st => if c = '}' then some (complete (.obj fs) st) else stepKey c r.stack
      | _ => none
  | .colon =>
    if isSpace c then some r else if c = ':' then some ⟨.value, r.stack⟩ else none
  | .after | .done _ => stepComplete r c
  | .string acc =>
    if c = '"' then some (completeString acc.reverse r.stack)
    else if c = '\\' then some ⟨.escape acc, r.stack⟩
    else if c.toNat < 0x20 then none
    else some ⟨.string (pushCode c.toNat acc), r.stack⟩
  | .escape acc =>
    if c = 'u' then some ⟨.hex acc 0 4, r.stack⟩
    else (unescape c).map fun u => ⟨.string (pushCode u acc), r.stack⟩
  | .hex acc code remaining =>
    (hexVal c).map fun d =>
      if remaining ≤ 1 then ⟨.string (pushCode (code * 16 + d) acc), r.stack⟩
      else ⟨.hex acc (code * 16 + d) (remaining - 1), r.stack⟩
  | .literal rest v =>
    match rest with
    | [] => stepComplete (complete v r.stack) c
    | d :: rest => if c = d then some ⟨.literal rest v, r.stack⟩ else none
  | .number phase spelling =>
    match nextPhase c phase with
    | some phase' => some ⟨.number phase' (spelling ++ [c]), r.stack⟩
    | none =>
      if phase = .neg ∧ c = 'I' then
        some ⟨.literal ['n', 'f', 'i', 'n', 'i', 't', 'y']
          (.float ['-', 'I', 'n', 'f', 'i', 'n', 'i', 't', 'y']), r.stack⟩
      else (numberValue spelling phase).bind fun v => stepComplete (complete v r.stack) c

def run : Reader → List Char → Option Reader
  | r, [] => some r
  | r, c :: cs => (step r c).bind fun r' => run r' cs

def result (r : Reader) : Option Value :=
  match r.mode, r.stack with
  | .done v, [] => some v
  | .literal [] v, [] => some v
  | .number phase spelling, [] => numberValue spelling phase
  | _, _ => none

end Reader

/-- `json.loads`, where nothing stands for a `JSONDecodeError`. -/
def loads (t : List Char) : Option Value := (Reader.start.run t).bind Reader.result

end Json
