import Mathlib

/-!
# Tables with row ids

The rows of a table stand in the order of their ids and a new row gets the id one above the
highest there is, as a rowid table without AUTOINCREMENT gives it. So an id names one row.
-/

namespace Table

variable {ρ : Type*} (id : ρ → ℕ)

/-- `COALESCE(MAX(id), 0)` over some rows. -/
def maxId (rows : List ρ) : ℕ := rows.foldr (fun r m => max (id r) m) 0

def Ascending (rows : List ρ) : Prop := rows.Pairwise fun r r' => id r < id r'

variable {id}

theorem le_maxId : ∀ {rows : List ρ} {r : ρ}, r ∈ rows → id r ≤ maxId id rows
  | r :: rows, r', h => by
    rcases List.mem_cons.1 h with rfl | h
    · exact le_max_left _ _
    · exact (le_maxId h).trans (le_max_right _ _)

theorem maxId_lt {rows : List ρ} {n : ℕ} (hn : 0 < n) (h : ∀ r ∈ rows, id r < n) :
    maxId id rows < n := by
  induction rows with
  | nil => exact hn
  | cons r rows ih =>
    exact max_lt (h r List.mem_cons_self) (ih fun r' hr' => h r' (List.mem_cons_of_mem _ hr'))

theorem Ascending.nil : Ascending id [] := List.Pairwise.nil

theorem Ascending.concat {rows : List ρ} (h : Ascending id rows) {r : ρ}
    (hr : id r = maxId id rows + 1) : Ascending id (rows ++ [r]) := by
  refine List.pairwise_append.2 ⟨h, List.pairwise_singleton _ _, fun r₀ hr₀ r' hr' => ?_⟩
  rw [List.mem_singleton.1 hr', hr]
  exact Nat.lt_succ_of_le (le_maxId hr₀)

theorem Ascending.map {rows : List ρ} (h : Ascending id rows) {f : ρ → ρ}
    (hf : ∀ r, id (f r) = id r) : Ascending id (rows.map f) :=
  List.pairwise_map.2 (h.imp fun {r r'} hlt => by rwa [hf, hf])

theorem Ascending.filter {rows : List ρ} (h : Ascending id rows) (p : ρ → Bool) :
    Ascending id (rows.filter p) :=
  List.Pairwise.filter p h

theorem le_maxId_iff : ∀ {rows : List ρ} {n : ℕ},
    n ≤ maxId id rows ↔ n = 0 ∨ ∃ r ∈ rows, n ≤ id r
  | [], n => by simp [maxId]
  | r :: rows, n => by
    have ih := @le_maxId_iff rows n
    unfold maxId at ih ⊢
    rw [List.foldr_cons, le_max_iff, ih]
    simp only [List.mem_cons, exists_eq_or_imp]
    exact or_left_comm

theorem maxId_map {f : ρ → ρ} (hf : ∀ r, id (f r) = id r) :
    ∀ rows : List ρ, maxId id (rows.map f) = maxId id rows
  | [] => rfl
  | r :: rows => congrArg₂ max (hf r) (maxId_map hf rows)

theorem Ascending.nodup {rows : List ρ} (h : Ascending id rows) : rows.Nodup :=
  h.imp fun hlt he => (he ▸ hlt).ne rfl

theorem Ascending.eq_of_id {rows : List ρ} (h : Ascending id rows) {r r' : ρ} (hr : r ∈ rows)
    (hr' : r' ∈ rows) (hid : id r = id r') : r = r' := by
  have hn : (rows.map id).Nodup := List.pairwise_map.2 (h.imp fun h => h.ne)
  exact List.inj_on_of_nodup_map hn hr hr' hid

/-- A column without duplicates takes a value it does not have. -/
theorem nodup_concat {κ : Type*} {f : ρ → κ} {rows : List ρ} (h : (rows.map f).Nodup) {r : ρ}
    (hr : f r ∉ rows.map f) : ((rows ++ [r]).map f).Nodup := by
  rw [List.map_append, List.nodup_append]
  refine ⟨h, List.nodup_singleton _, fun k hk k' hk' => ?_⟩
  rw [List.map_singleton, List.mem_singleton] at hk'
  rintro rfl
  rw [hk'] at hk
  exact hr hk

/-- A search for what at most one row has finds that row. -/
theorem find?_eq_some_iff {rows : List ρ} {p : ρ → Prop} [DecidablePred p]
    (huniq : ∀ r ∈ rows, ∀ r' ∈ rows, p r → p r' → r = r') {r : ρ} :
    rows.find? (fun r => p r) = some r ↔ r ∈ rows ∧ p r := by
  constructor
  · intro h
    exact ⟨List.mem_of_find?_eq_some h, by simpa using List.find?_some h⟩
  · rintro ⟨hr, hp⟩
    rcases h : rows.find? (fun r => p r) with _ | r'
    · exact absurd (List.find?_eq_none.1 h r hr) (by simp [hp])
    · have hp' : p r' := by simpa using List.find?_some h
      rw [huniq r' (List.mem_of_find?_eq_some h) r hr hp' hp]

/-- A list without duplicates whose entries are all equal has at most one. -/
theorem length_le_one {l : List ρ} (hnd : l.Nodup) (h : ∀ r ∈ l, ∀ r' ∈ l, r = r') :
    l.length ≤ 1 := by
  rcases l with _ | ⟨r, _ | ⟨r', l⟩⟩
  · exact Nat.zero_le 1
  · exact le_rfl
  · have hne : r ≠ r' := fun he => (List.nodup_cons.1 hnd).1 (he ▸ List.mem_cons_self)
    exact absurd (h r (by simp) r' (by simp)) hne

end Table
