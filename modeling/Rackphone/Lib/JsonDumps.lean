import Rackphone.Lib.JsonPieces

/-!
# Writing any JSON value

`dumps` writes a value of any nesting, where it can be encoded: a string with a lone surrogate has
no text. How a number with a fraction is spelled is left to the writer. An object of null, booleans,
integers and strings reads back as it was written.
-/

namespace Json

/-- The characters some code points are; a surrogate is none. -/
def text (s : List ℕ) : Option (List Char) :=
  s.mapM fun u => if u.isValidChar then some (Char.ofNat u) else none

section Dumps

variable (sty : Style) (spell : List Char → List Char)

mutual

def dumps : Value → Option (List Char)
  | .null => some ['n', 'u', 'l', 'l']
  | .bool b => some (if b then ['t', 'r', 'u', 'e'] else ['f', 'a', 'l', 's', 'e'])
  | .int n => some (printNum n)
  | .float spelling => some (spell spelling)
  | .str s => (text s).map (printString sty)
  | .arr vs => (dumpsItems vs).map fun t => '[' :: t ++ [']']
  | .obj fs => (dumpsFields fs).map fun t => '{' :: t ++ ['}']

def dumpsItems : List Value → Option (List Char)
  | [] => some []
  | v :: vs => do
    let item ← dumps v
    let rest ← dumpsItems vs
    return if vs.isEmpty then item else item ++ sty.comma ++ rest

def dumpsFields : List (List ℕ × Value) → Option (List Char)
  | [] => some []
  | f :: fs => do
    let key ← text f.1
    let value ← dumps f.2
    let rest ← dumpsFields fs
    let field := printString sty key ++ sty.colon ++ value
    return if fs.isEmpty then field else field ++ sty.comma ++ rest

end

end Dumps

@[simp] theorem text_codes (s : List Char) : text (codes s) = some s := by
  induction s with
  | nil => rfl
  | cons c s ih =>
    have hc : c.toNat.isValidChar := c.valid
    rw [codes] at ih
    simp only [text] at ih
    simp [text, codes, hc, ih, Char.ofNat_toNat]

/-- Every code point is a character: no surrogate stands alone. -/
def IsText (s : List ℕ) : Prop := ∀ u ∈ s, u.isValidChar

instance : DecidablePred IsText := fun s =>
  inferInstanceAs (Decidable (∀ u ∈ s, u.isValidChar))

mutual

/-- The strings in a value, keys included. -/
def strings : Value → List (List ℕ)
  | .str s => [s]
  | .arr vs => stringsItems vs
  | .obj fs => stringsFields fs
  | .null | .bool _ | .int _ | .float _ => []

def stringsItems : List Value → List (List ℕ)
  | [] => []
  | v :: vs => strings v ++ stringsItems vs

def stringsFields : List (List ℕ × Value) → List (List ℕ)
  | [] => []
  | f :: fs => f.1 :: (strings f.2 ++ stringsFields fs)

end

theorem isSome_text : ∀ {s : List ℕ}, (text s).isSome ↔ IsText s
  | [] => by simp [text, IsText]
  | u :: s => by
    have ih := @isSome_text s
    rw [IsText, List.forall_mem_cons, ← IsText, ← ih]
    unfold text
    rw [List.mapM_cons]
    by_cases hu : u.isValidChar
    · simp only [hu, ↓reduceIte, true_and]
      cases List.mapM (fun u => if u.isValidChar then some (Char.ofNat u) else none) s <;> simp
    · simp [hu]

section Writable

variable (sty : Style) (spell : List Char → List Char)

mutual

/-- A value can be written where each of its strings is text. -/
theorem isSome_dumps : ∀ v : Value,
    (dumps sty spell v).isSome ↔ ∀ s ∈ strings v, IsText s
  | .null | .bool _ | .int _ | .float _ => by simp [dumps, strings]
  | .str s => by simp [dumps, strings, isSome_text]
  | .arr vs => by simp [dumps, strings, isSome_dumpsItems vs]
  | .obj fs => by simp [dumps, strings, isSome_dumpsFields fs]

theorem isSome_dumpsItems : ∀ vs : List Value,
    (dumpsItems sty spell vs).isSome ↔ ∀ s ∈ stringsItems vs, IsText s
  | [] => by simp [dumpsItems, stringsItems]
  | v :: vs => by
    rw [stringsItems, List.forall_mem_append, ← isSome_dumps v, ← isSome_dumpsItems vs, dumpsItems]
    rcases dumps sty spell v with _ | t <;> rcases dumpsItems sty spell vs with _ | t' <;> simp

theorem isSome_dumpsFields : ∀ fs : List (List ℕ × Value),
    (dumpsFields sty spell fs).isSome ↔ ∀ s ∈ stringsFields fs, IsText s
  | [] => by simp [dumpsFields, stringsFields]
  | f :: fs => by
    rw [stringsFields, List.forall_mem_cons, List.forall_mem_append, ← isSome_text,
      ← isSome_dumps f.2, ← isSome_dumpsFields fs, dumpsFields]
    rcases text f.1 with _ | k <;> rcases dumps sty spell f.2 with _ | t <;>
      rcases dumpsFields sty spell fs with _ | t' <;> simp

end

end Writable

section Flat

variable (sty : Style) (spell : List Char → List Char)

theorem dumps_toValue (v : Scalar) : dumps sty spell v.toValue = some (printScalar sty v) := by
  rcases v with _ | n | s <;> simp [Scalar.toValue, dumps, printScalar]

theorem dumpsFields_members : ∀ fs : List (String × Scalar),
    dumpsFields sty spell (members fs) = some (printFields sty fs)
  | [] => rfl
  | [f] => by simp [members, dumpsFields, dumps_toValue, printFields, printField]
  | f :: g :: fs => by
    have ih := dumpsFields_members (g :: fs)
    simp only [members, List.map_cons] at ih
    simp [members, dumpsFields.eq_2 _ _ (codes f.1.toList, f.2.toValue), ih, dumps_toValue,
      printFields, printField]

/-- A record of scalars is written as its fields are printed. -/
theorem dumps_members (fs : List (String × Scalar)) :
    dumps sty spell (.obj (members fs)) = some (printObject sty fs) := by
  simp [dumps, dumpsFields_members, printObject]

end Flat

/-- A field of a flat object. -/
inductive Atom where
  | scalar (s : Scalar)
  | bool (b : Bool)

namespace Atom

def toValue : Atom → Value
  | scalar s => s.toValue
  | bool b => .bool b

def print (sty : Style) : Atom → List Char
  | scalar s => printScalar sty s
  | bool b => if b then ['t', 'r', 'u', 'e'] else ['f', 'a', 'l', 's', 'e']

variable (sty : Style) (spell : List Char → List Char)

theorem dumps_toValue (a : Atom) : dumps sty spell a.toValue = some (a.print sty) := by
  rcases a with (_ | n | s) | b <;> simp [toValue, Scalar.toValue, dumps, print, printScalar]

/-- The dictionary a flat object is. -/
def members (fs : List (String × Atom)) : List (List ℕ × Value) :=
  fs.map fun f => (codes f.1.toList, f.2.toValue)

theorem dumpsFields_members : ∀ fs : List (String × Atom),
    dumpsFields sty spell (members fs) = some (Reader.joinFields sty (print sty) fs)
  | [] => rfl
  | [f] => by simp [members, dumpsFields, dumps_toValue, Reader.joinFields]
  | f :: g :: fs => by
    have ih := dumpsFields_members (g :: fs)
    simp only [members, List.map_cons] at ih
    simp [members, dumpsFields.eq_2 _ _ (codes f.1.toList, f.2.toValue), ih, dumps_toValue,
      Reader.joinFields]

theorem run_print (a : Atom) (st : List Frame) (hst : ∀ fs st', st ≠ .key fs :: st')
    (c : Char) (hc : Reader.Ends c) (t : List Char) :
    Reader.run ⟨.value, st⟩ (a.print sty ++ c :: t)
      = (Reader.stepComplete (Reader.complete a.toValue st) c).bind fun r => r.run t := by
  cases a with
  | scalar s => exact Reader.run_printScalar sty st s hst hc t
  | bool b =>
    cases b
    · have hlit : ∀ t, Reader.run ⟨.value, st⟩ ('f' :: 'a' :: 'l' :: 's' :: 'e' :: t)
          = Reader.run ⟨.literal [] (.bool false), st⟩ t := fun t => rfl
      exact hlit (c :: t)
    · have hlit : ∀ t, Reader.run ⟨.value, st⟩ ('t' :: 'r' :: 'u' :: 'e' :: t)
          = Reader.run ⟨.literal [] (.bool true), st⟩ t := fun t => rfl
      exact hlit (c :: t)

/-- The text of a flat object. -/
def object (fs : List (String × Atom)) : List Char :=
  '{' :: Reader.joinFields sty (print sty) fs ++ ['}']

theorem dumps_members (fs : List (String × Atom)) :
    dumps sty spell (.obj (members fs)) = some (object sty fs) := by
  simp [dumps, dumpsFields_members, object]

/-- A flat object with distinct keys reads back as it was. -/
theorem loads_object {fs : List (String × Atom)} (h : (fs.map Prod.fst).Nodup) :
    loads (object sty fs) = some (.obj (members fs)) := by
  rw [loads, object, run_joined (print sty) toValue sty (run_print sty) h]
  rfl

theorem le_of_mem_print {a : Atom} {c : Char} (h : c ∈ a.print sty) : 0x20 ≤ c.toNat := by
  rcases a with (_ | n | s) | b
  · have : ∀ d ∈ ['n', 'u', 'l', 'l'], 0x20 ≤ d.toNat := by simp
    exact this c h
  · exact (ascii_of_mem_printNum h).1
  · exact (mem_printString h).1
  · have : ∀ b : Bool, ∀ d ∈ print sty (bool b), 0x20 ≤ d.toNat := by simp [print]
    exact this b c h

theorem le_of_mem_name (f : String × Atom) {c : Char}
    (h : c ∈ printString sty f.1.toList ++ sty.colon) : 0x20 ≤ c.toNat := by
  rcases List.mem_append.1 h with h | h
  · exact (mem_printString h).1
  · rcases List.mem_cons.1 h with rfl | h
    · decide
    · exact (ascii_of_mem_gap h).1

theorem le_of_mem_joinFields {c : Char} : ∀ {fs : List (String × Atom)},
    c ∈ Reader.joinFields sty (print sty) fs → 0x20 ≤ c.toNat
  | [f], h => by
    rw [Reader.joinFields, List.mem_append] at h
    exact h.elim (le_of_mem_name sty f) (le_of_mem_print sty)
  | f :: g :: fs, h => by
    rw [Reader.joinFields, List.mem_append, List.mem_append, List.mem_append] at h
    rcases h with ((h | h) | h) | h
    · exact le_of_mem_name sty f h
    · exact le_of_mem_print sty h
    · rcases List.mem_cons.1 h with rfl | h
      · decide
      · exact (ascii_of_mem_gap h).1
    · exact le_of_mem_joinFields h

/-- No control character is written, so the text is one line. -/
theorem le_of_mem_object {fs : List (String × Atom)} {c : Char} (h : c ∈ object sty fs) :
    0x20 ≤ c.toNat := by
  rw [object, List.mem_append, List.mem_cons, List.mem_singleton] at h
  rcases h with (rfl | h) | rfl
  · decide
  · exact le_of_mem_joinFields sty h
  · decide

end Atom

section Line

variable {sty : Style} {fs : List (String × Scalar)}

theorem le_of_mem_printObject {c : Char} (h : c ∈ printObject sty fs) : 0x20 ≤ c.toNat := by
  rw [printObject, List.mem_append, List.mem_cons, List.mem_singleton] at h
  rcases h with (rfl | h) | rfl
  · decide
  · rcases mem_printFields h with ⟨f, -, h⟩ | h
    · rw [printField, List.mem_append] at h
      rcases h with h | h
      · exact Atom.le_of_mem_name sty (f.1, .scalar f.2) h
      · have hatom : c ∈ (Atom.scalar f.2).print sty := h
        exact Atom.le_of_mem_print sty hatom
    · rcases List.mem_cons.1 h with rfl | h
      · decide
      · exact (ascii_of_mem_gap h).1
  · decide

/-- A line feed after an object is passed over. -/
theorem loads_printObject_line (h : (fs.map Prod.fst).Nodup) :
    loads (printObject sty fs ++ ['\n']) = some (.obj (members fs)) := by
  rw [loads, Reader.run_append, run_printObject sty h]
  rfl

end Line

end Json
