import Rackphone.Exposition

/-!
# One document for all units

`collect_metrics` of `metrics/exposition.py`: what every unit answered, labelled with the unit, and
behind it whether it answered and how long it took.
-/

namespace Rackphone

namespace Scrape

open TextFormat (Entry Format)

abbrev Text := List Char

/-- What `collect_unit_metrics` brought from one unit. -/
structure Answer where
  name : Text
  /-- Nothing where the unit did not answer. -/
  body : Option Text
  /-- Thousandths of a second. -/
  elapsed : ℕ

/-- `{elapsed:.3f}`. -/
def fixed3 (n : ℕ) : Text :=
  Nat.toDigits 10 (n / 1000) ++
    ['.', Nat.digitChar (n / 100 % 10), Nat.digitChar (n / 10 % 10), Nat.digitChar (n % 10)]

def UP : Text := "rackphone_up".toList
def COLLECT_DURATION : Text := "rackphone_collect_duration_seconds".toList

def EXPOSITION_HEADER : List Text :=
  ["# HELP rackphone_up Whether the unit answered this scrape.".toList,
    "# TYPE rackphone_up gauge".toList,
    "# HELP rackphone_collect_duration_seconds Time spent collecting from the unit.".toList,
    "# TYPE rackphone_collect_duration_seconds gauge".toList]

/-- A line of the bridge's own. -/
def ownLine (metric unitName value : Text) : Text :=
  metric ++ "\x7bunit=\"".toList ++ unitName ++ "\"\x7d ".toList ++ value ++ ['\n']

def Answer.up (a : Answer) : Text := if a.body.isSome then ['1'] else ['0']

def Answer.chunks (a : Answer) : Text :=
  (match a.body with
    | some body => Exposition.addUnitLabel body a.name
    | none => [])
  ++ ownLine UP a.name a.up ++ ownLine COLLECT_DURATION a.name (fixed3 a.elapsed)

/-- `collect_metrics`. -/
def collectMetrics (answers : List Answer) : Text :=
  EXPOSITION_HEADER.flatMap (fun line => line ++ ['\n']) ++ answers.flatMap Answer.chunks

/-! ## What it should say -/

/-- The format takes the bridge's numbers and comments. -/
structure TakesOwn (F : Format) : Prop where
  zero : F.isValue ['0'] = true
  one : F.isValue ['1'] = true
  duration : ∀ n, F.isValue (fixed3 n) = true
  comments : ∀ line ∈ EXPOSITION_HEADER, F.isComment line = true

/-- The entries a unit answered with, of metrics that are not the bridge's. -/
structure Says (F : Format) (a : Answer) (doc : List Entry) : Prop where
  literal : TextFormat.IsLiteral a.name ∧ '\n' ∉ a.name
  silent : a.body = none → doc = []
  read : ∀ body ∈ a.body, TextFormat.read F body = some doc
  survives : ∀ body ∈ a.body, ∀ line ∈ TextFormat.lines body, Exposition.Survives a.name line
  unlabelled : ∀ s, .sample s ∈ doc → ∀ l ∈ s.labels, l.1 ≠ Exposition.unitKey
  foreign : ∀ s, .sample s ∈ doc → s.name ≠ UP ∧ s.name ≠ COLLECT_DURATION

/-- With the unit's own two samples behind them, unlabelled as the rest. -/
def Answer.entries (a : Answer) (doc : List Entry) : List Entry :=
  doc ++ [.sample ⟨UP, [], a.up, none⟩, .sample ⟨COLLECT_DURATION, [], fixed3 a.elapsed, none⟩]

/-- Under the header every unit's entries, each labelled with its unit. -/
def Merged (as : List (Answer × List Entry)) (doc : List Entry) : Prop :=
  ∃ outs : List (List Entry),
    List.Forall₂ (fun a out => List.Forall₂ (Exposition.LabelledAs a.1.name) (a.1.entries a.2) out)
      as outs
    ∧ doc = EXPOSITION_HEADER.map .comment ++ outs.flatten

end Scrape

end Rackphone
