import Mathlib

/-!
# Lines that begin with a key

A settings file is a list of lines. A line belongs to a key where it begins with the key's text,
blanks aside, and what follows is a value; the last line of a key wins. Two keys are apart where
neither text begins the other, and then no line belongs to both.
-/

namespace KeyLines

variable (space : Char → Bool)

def valueIn (p line : List Char) : Option (List Char) :=
  if p <+: line.dropWhile space then some ((line.dropWhile space).drop p.length) else none

def values (p : List Char) (lines : List (List Char)) : List (List Char) :=
  lines.filterMap (valueIn space p)

/-- The value of the last line that belongs to `p`, or nothing. -/
def last (p : List Char) (lines : List (List Char)) : List Char :=
  (values space p lines).getLast?.getD []

/-- The lines that do not belong to `p`. -/
def without (p : List Char) (lines : List (List Char)) : List (List Char) :=
  lines.filter fun line => (valueIn space p line).isNone

def Apart (p q : List Char) : Prop := ¬ p <+: q ∧ ¬ q <+: p

variable {space} {p q : List Char} {lines : List (List Char)}

/-- No line belongs to two keys that are apart. -/
theorem Apart.valueIn_eq_none (h : Apart p q) {line : List Char}
    (hp : (valueIn space p line).isSome) : valueIn space q line = none := by
  unfold valueIn at hp ⊢
  split_ifs at hp with hpre
  · refine if_neg fun hq => ?_
    exact (List.prefix_or_prefix_of_prefix hpre hq).elim h.1 h.2
  · cases hp

@[simp] theorem values_without (p : List Char) (lines : List (List Char)) :
    values space p (without space p lines) = [] := by
  refine List.filterMap_eq_nil_iff.2 fun line hline => ?_
  exact Option.isNone_iff_eq_none.1 (List.mem_filter.1 hline).2

/-- Taking out the lines of one key leaves the values of the others. -/
theorem Apart.values_without (h : Apart p q) (lines : List (List Char)) :
    values space q (without space p lines) = values space q lines := by
  induction lines with
  | nil => rfl
  | cons line lines ih =>
    unfold values without at ih ⊢
    rw [List.filter_cons]
    split_ifs with hp
    · rw [List.filterMap_cons, List.filterMap_cons, ih]
    · have hnone : valueIn space q line = none :=
        h.valueIn_eq_none (by simpa [Option.isSome_iff_ne_none] using hp)
      rw [List.filterMap_cons, hnone, ih]

theorem values_append (lines lines' : List (List Char)) :
    values space p (lines ++ lines') = values space p lines ++ values space p lines' :=
  List.filterMap_append

/-- A separator that neither name holds ends both names at the same place. -/
theorem eq_of_prefix {sep : Char} {b d : List Char} : ∀ {a c : List Char}, sep ∉ a → sep ∉ c →
    a ++ sep :: b <+: c ++ sep :: d → a = c ∧ b <+: d
  | [], [], _, _, h => ⟨rfl, (List.cons_prefix_cons.1 h).2⟩
  | [], x :: c, _, hc, h => by
    obtain rfl := (List.cons_prefix_cons.1 h).1
    exact absurd List.mem_cons_self hc
  | x :: a, [], ha, _, h => by
    obtain rfl := (List.cons_prefix_cons.1 h).1
    exact absurd List.mem_cons_self ha
  | x :: a, y :: c, ha, hc, h => by
    obtain ⟨rfl, hrest⟩ := List.cons_prefix_cons.1 h
    obtain ⟨rfl, hb⟩ := eq_of_prefix (fun hm => ha (List.mem_cons_of_mem x hm))
      (fun hm => hc (List.mem_cons_of_mem x hm)) hrest
    exact ⟨rfl, hb⟩

/-! ## Entries -/

section Entries

variable {κ ν : Type*} [DecidableEq κ] {k : κ} {v : ν} {es : List (κ × ν)}

/-- The value of the last entry of a key. -/
def lastValue (k : κ) (es : List (κ × ν)) : Option ν :=
  (es.reverse.find? fun e => e.1 = k).map Prod.snd

@[simp] theorem lastValue_nil : lastValue k ([] : List (κ × ν)) = none := rfl

theorem lastValue_append (es es' : List (κ × ν)) :
    lastValue k (es ++ es') = (lastValue k es').or (lastValue k es) := by
  rw [lastValue, List.reverse_append, List.find?_append, Option.map_or]
  rfl

theorem lastValue_singleton (e : κ × ν) :
    lastValue k [e] = if e.1 = k then some e.2 else none := by
  rw [lastValue, List.reverse_singleton, List.find?_singleton]
  by_cases h : e.1 = k <;> simp [h]

theorem lastValue_eq_none : lastValue k es = none ↔ ∀ e ∈ es, e.1 ≠ k := by
  rw [lastValue, Option.map_eq_none_iff, List.find?_eq_none]
  simp

theorem mem_of_lastValue (h : lastValue k es = some v) : (k, v) ∈ es := by
  obtain ⟨e, he, rfl⟩ := Option.map_eq_some_iff.1 h
  have hk : e.1 = k := by simpa using List.find?_some he
  rw [← hk]
  exact List.mem_reverse.1 (List.mem_of_find?_eq_some he)

theorem lastValue_of_nodup (hn : (es.map Prod.fst).Nodup) (h : (k, v) ∈ es) :
    lastValue k es = some v := by
  cases hl : lastValue k es with
  | none => exact absurd rfl (lastValue_eq_none.1 hl _ h)
  | some w =>
    have hpair := List.inj_on_of_nodup_map hn (mem_of_lastValue hl) h rfl
    rw [(Prod.mk.inj hpair).2]

theorem getLast?_values (es : List (κ × ν)) :
    (es.filterMap fun e => if e.1 = k then some e.2 else none).getLast? = lastValue k es := by
  induction es using List.reverseRecOn with
  | nil => rfl
  | append_singleton es e ih =>
    rw [List.filterMap_append, List.getLast?_append, ih, lastValue_append, lastValue_singleton]
    by_cases h : e.1 = k <;> simp [h]

theorem lastValue_perm {es' : List (κ × ν)} (hn : (es.map Prod.fst).Nodup) (hp : es'.Perm es) :
    lastValue k es' = lastValue k es := by
  have hn' : (es'.map Prod.fst).Nodup := (hp.map _).nodup_iff.2 hn
  cases h : lastValue k es with
  | none => exact lastValue_eq_none.2 fun e he => lastValue_eq_none.1 h e (hp.mem_iff.1 he)
  | some v => exact lastValue_of_nodup hn' (hp.mem_iff.2 (mem_of_lastValue h))

end Entries

end KeyLines
