import Mathlib

/-!
# Sets written with separators

A set of words kept as one text, the words in the order they came with a separator between them:
a word joins at the end where splitting the text does not find it. This is sound for words that
are not empty and do not hold the separator.
-/

namespace Separated

variable {α : Type*}

def add [DecidableEq α] (sep : α) (seen word : List α) : List α :=
  if word ∈ seen.splitOn sep then seen else if seen = [] then word else seen ++ sep :: word

variable {sep : α}

theorem intercalate_concat (word : List α) : ∀ {words : List (List α)}, words ≠ [] →
    [sep].intercalate (words ++ [word]) = [sep].intercalate words ++ sep :: word
  | [w], _ => by simp
  | w :: v :: words, _ => by
    have ih : [sep].intercalate (v :: words ++ [word]) = _ :=
      intercalate_concat word (List.cons_ne_nil v words)
    rw [List.cons_append] at ih
    rw [List.cons_append, List.cons_append, List.intercalate_cons_cons, ih,
      List.intercalate_cons_cons, List.append_assoc, List.append_assoc, List.append_assoc]

theorem intercalate_ne_nil {words : List (List α)} (hne : words ≠ []) (h : [] ∉ words) :
    [sep].intercalate words ≠ [] := by
  match words with
  | [w] =>
    rw [List.intercalate_singleton]
    rintro rfl
    exact h List.mem_cons_self
  | w :: v :: words =>
    rw [List.intercalate_cons_cons]
    simp

/-- A word that is there changes nothing, and any other comes last. -/
theorem add_intercalate [DecidableEq α] {words : List (List α)} {word : List α}
    (hwords : ∀ w ∈ words, w ≠ [] ∧ sep ∉ w) (hword : word ≠ []) :
    add sep ([sep].intercalate words) word
      = [sep].intercalate (if word ∈ words then words else words ++ [word]) := by
  rcases eq_or_ne words [] with rfl | hne
  · simp [add, hword]
  · have hempty : [sep].intercalate words ≠ [] :=
      intercalate_ne_nil hne fun h => (hwords [] h).1 rfl
    rw [add, List.splitOn_intercalate sep (fun w hw => (hwords w hw).2) hne, if_neg hempty]
    split_ifs with hmem
    · rfl
    · exact (intercalate_concat word hne).symm

end Separated
