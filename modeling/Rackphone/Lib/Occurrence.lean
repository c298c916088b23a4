import Mathlib

/-!
# First occurrences

Where the entries of a list carry a key, the first occurrence of each key is what is left when
every entry is dropped whose key an earlier one has. A list that is read entry by entry has its
first occurrences by taking each entry with a key not seen before (`firsts_concat_of_notMem`).
-/

namespace Occurrence

variable {α κ : Type*} [DecidableEq κ] (key : α → κ)

def firsts : List α → List α
  | [] => []
  | x :: xs => x :: (firsts xs).filter fun y => key y ≠ key x

variable {key}

theorem mem_keys_firsts {k : κ} : ∀ {l : List α}, k ∈ (firsts key l).map key ↔ k ∈ l.map key
  | [] => Iff.rfl
  | x :: xs => by
    have ih := @mem_keys_firsts k xs
    rw [List.mem_map] at ih ⊢
    rw [firsts, List.map_cons, List.mem_cons, ← ih]
    constructor
    · rintro ⟨y, hy, rfl⟩
      rcases List.mem_cons.1 hy with rfl | hy
      · exact .inl rfl
      · exact .inr ⟨y, List.mem_of_mem_filter hy, rfl⟩
    · rintro (rfl | ⟨y, hy, rfl⟩)
      · exact ⟨x, List.mem_cons_self, rfl⟩
      · by_cases hyx : key y = key x
        · exact ⟨x, List.mem_cons_self, hyx.symm⟩
        · exact ⟨y, List.mem_cons_of_mem _ (List.mem_filter.2 ⟨hy, by simpa using hyx⟩), rfl⟩

theorem firsts_of_nodup : ∀ {l : List α}, (l.map key).Nodup → firsts key l = l
  | [], _ => rfl
  | x :: l, h => by
    obtain ⟨hx, hl⟩ := List.nodup_cons.1 h
    rw [firsts, firsts_of_nodup hl, List.filter_eq_self.2]
    exact fun y hy => decide_eq_true fun hyx => hx (hyx ▸ List.mem_map_of_mem hy)

theorem firsts_concat_of_notMem {x : α} : ∀ {l : List α}, key x ∉ l.map key →
    firsts key (l ++ [x]) = firsts key l ++ [x]
  | [], _ => rfl
  | y :: l, h => by
    rw [List.map_cons, List.mem_cons, not_or] at h
    rw [List.cons_append, firsts, firsts_concat_of_notMem h.2, firsts]
    simp [h.1]

theorem firsts_concat_of_mem {x : α} : ∀ {l : List α}, key x ∈ l.map key →
    firsts key (l ++ [x]) = firsts key l
  | y :: l, h => by
    rw [List.cons_append, firsts, firsts]
    rcases List.mem_cons.1 h with hxy | h
    · by_cases hl : key x ∈ l.map key
      · rw [firsts_concat_of_mem hl]
      · rw [firsts_concat_of_notMem hl]
        simp [hxy]
    · rw [firsts_concat_of_mem h]

end Occurrence
