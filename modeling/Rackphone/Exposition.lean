import Rackphone.Lib.TextFormat
import Rackphone.Spool

/-!
# Labelling an exposition

`SAMPLE_PATTERN` and `add_unit_label` of `metrics/exposition.py`. The pattern's white space and what
`str.strip` removes are one class of characters; its dot stands for anything, since no line of
`str.splitlines` holds a line feed.
-/

namespace Rackphone

namespace Exposition

open TextFormat (Entry Format Label Sample)

structure SampleMatch where
  name : List Char
  labels : Option (List Char)
  rest : List Char

/-- The last closing brace that white space follows: what stands before it and what after. -/
def lastClose : List Char → Option (List Char × List Char)
  | [] => none
  | c :: t =>
    match lastClose t with
    | some m => some (c :: m.1, m.2)
    | none => if c = '}' ∧ t.head?.any isBlank then some ([], t) else none

/-- `SAMPLE_PATTERN.match`. -/
def samplePattern (line : List Char) : Option SampleMatch :=
  let name := line.takeWhile TextFormat.isNameChar
  let after := line.dropWhile TextFormat.isNameChar
  if name.head?.any TextFormat.isNameStart then
    match after with
    | [] => none
    | c :: t =>
      if c = '{' then (lastClose t).map fun m => ⟨name, some ('{' :: m.1 ++ ['}']), m.2⟩
      else if isBlank c then some ⟨name, none, after⟩
      else none
  else none

/-- A line as `add_unit_label` writes it. -/
def labelLine (unitName line : List Char) : List Char :=
  match (if line = [] ∨ line.head? = some '#' then none else samplePattern line) with
  | none => line
  | some m =>
    let existing := match m.labels with
      | some labels => Lines.strip isBlank ((labels.drop 1).dropLast)
      | none => []
    let merged :=
      if existing ≠ [] then "\x7bunit=\"".toList ++ unitName ++ "\",".toList ++ existing ++ ['}']
      else "\x7bunit=\"".toList ++ unitName ++ "\"\x7d".toList
    m.name ++ merged ++ m.rest

/-- `add_unit_label`. -/
def addUnitLabel (exposition unitName : List Char) : List Char :=
  ['\n'].intercalate ((Lines.split isLineBreak exposition).map (labelLine unitName)) ++ ['\n']

/-! ## What labelling should do -/

def unitKey : List Char := "unit".toList

/-- The same entry, a sample with the unit among its labels. -/
def LabelledAs (unitName : List Char) : Entry → Entry → Prop
  | .comment text, .comment text' => text' = text
  | .sample s, .sample t =>
    t.name = s.name ∧ t.value = s.value ∧ t.timestamp = s.timestamp
      ∧ t.labels.Perm ((unitKey, unitName) :: s.labels)
  | _, _ => False

/-- The output is an exposition of the same entries, every sample labelled with the unit. -/
def LabelsEverySample (F : Format) (exposition unitName : List Char) (doc : List Entry) : Prop :=
  ∃ out, TextFormat.read F (addUnitLabel exposition unitName) = some out
    ∧ List.Forall₂ (LabelledAs unitName) doc out

/-! ## When it does -/

/-- The line of a sample. -/
def isSampleLine (line : List Char) : Bool :=
  (line.dropWhile TextFormat.isSep).head?.any (· ≠ '#')

/-- Behind a sample's name: white space and then no brace; or at once a brace, and after it a last
closing brace that white space follows, which is the last of the line or has no white space
before it. -/
def TakesLabel (after : List Char) : Prop :=
  match after with
  | [] => False
  | c :: t =>
    if c = '{' then
      ∃ m ∈ lastClose t, '}' ∉ m.2 ∨ m.1.getLast?.any isBlank = false
    else isBlank c = true ∧ (after.dropWhile TextFormat.isSep).head? ≠ some '{'

instance : DecidablePred TakesLabel := fun after =>
  match after with
  | [] => isFalse fun h => h
  | c :: t => inferInstanceAs (Decidable (if c = '{' then
      ∃ m ∈ lastClose t, '}' ∉ m.2 ∨ m.1.getLast?.any isBlank = false
    else isBlank c = true ∧ ((c :: t).dropWhile TextFormat.isSep).head? ≠ some '{'))

/-- Nothing but its line feed breaks the line, and a sample begins at its start with a name that
takes a label, the unit's name standing for itself between quotes. -/
structure Survives (unitName line : List Char) : Prop where
  unbroken : ∀ c ∈ line, isLineBreak c = false
  literal : isSampleLine line = true → TextFormat.IsLiteral unitName ∧ '\n' ∉ unitName
  named : isSampleLine line = true → line.head?.any TextFormat.isSep = false
  taken : isSampleLine line = true → TakesLabel (line.dropWhile TextFormat.isNameChar)

end Exposition

end Rackphone
