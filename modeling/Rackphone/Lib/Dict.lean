import Rackphone.Lib.Table

/-!
# Insertion-ordered dictionaries

The items of a dictionary in the order its keys were first set, no key twice, as Python's `dict`
keeps them: setting a key that is there changes its value in place.
-/

structure Dict (κ : Type*) (ν : Type*) where
  items : List (κ × ν)
  nodup : (items.map Prod.fst).Nodup

namespace Dict

variable {κ ν : Type*} [DecidableEq κ]

def empty : Dict κ ν := ⟨[], List.nodup_nil⟩

def keys (d : Dict κ ν) : List κ := d.items.map Prod.fst

/-- `d.get(k)`. -/
def get (d : Dict κ ν) (k : κ) : Option ν := (d.items.find? fun i => i.1 = k).map Prod.snd

/-- `d.pop(k, None)`. -/
def pop (d : Dict κ ν) (k : κ) : Dict κ ν where
  items := d.items.filter fun i => i.1 ≠ k
  nodup := d.nodup.sublist (List.filter_sublist.map _)

/-- `d[k] = v`. -/
def set (d : Dict κ ν) (k : κ) (v : ν) : Dict κ ν :=
  if h : k ∈ d.keys then
    { items := d.items.map fun i => if i.1 = k then (k, v) else i
      nodup := by
        have : (Prod.fst ∘ fun i : κ × ν => if i.1 = k then (k, v) else i) = Prod.fst := by
          funext i
          by_cases hi : i.1 = k <;> simp [hi]
        rw [List.map_map, this]
        exact d.nodup }
  else
    { items := d.items ++ [(k, v)]
      nodup := Table.nodup_concat d.nodup h }

variable {d : Dict κ ν} {k k' : κ} {v : ν}

@[simp] theorem get_empty : (empty : Dict κ ν).get k = none := rfl

theorem get_eq_some : d.get k = some v ↔ (k, v) ∈ d.items := by
  have hfind : ∀ i, d.items.find? (fun i => i.1 = k) = some i ↔ i ∈ d.items ∧ i.1 = k := fun i =>
    Table.find?_eq_some_iff fun _ hi _ hj h h' =>
      List.inj_on_of_nodup_map d.nodup hi hj (h.trans h'.symm)
  unfold get
  rw [Option.map_eq_some_iff]
  constructor
  · rintro ⟨i, hi, rfl⟩
    obtain ⟨hmem, rfl⟩ := (hfind i).1 hi
    exact hmem
  · exact fun h => ⟨_, (hfind _).2 ⟨h, rfl⟩, rfl⟩

theorem get_eq_none : d.get k = none ↔ k ∉ d.keys := by
  constructor
  · intro h hk
    obtain ⟨i, hi, rfl⟩ := List.mem_map.1 hk
    rw [get_eq_some.2 hi] at h
    cases h
  · intro h
    rcases hv : d.get k with _ | v
    · rfl
    · exact absurd (List.mem_map_of_mem (get_eq_some.1 hv)) h

@[simp] theorem get_pop : (d.pop k).get k' = if k' = k then none else d.get k' := by
  split_ifs with h
  · rw [get_eq_none, h]
    simp [keys, pop]
  · ext v
    rw [get_eq_some, get_eq_some]
    simp [pop, h]

@[simp] theorem get_set : (d.set k v).get k' = if k' = k then some v else d.get k' := by
  ext w
  rw [get_eq_some]
  unfold set
  split_ifs with hk h h
  · -- the key is there: its item is the one that changes
    obtain ⟨i, hi, rfl⟩ := List.mem_map.1 hk
    rw [List.mem_map, Option.some.injEq]
    constructor
    · rintro ⟨j, hj, hjw⟩
      split_ifs at hjw with hji
      · exact (Prod.mk.inj hjw).2
      · rw [hjw] at hji
        exact absurd h hji
    · rintro rfl
      exact ⟨i, hi, by simp [h]⟩
  · rw [List.mem_map, get_eq_some]
    constructor
    · rintro ⟨j, hj, hjw⟩
      split_ifs at hjw with hji
      · exact absurd (Prod.mk.inj hjw).1.symm h
      · exact hjw ▸ hj
    · exact fun hi => ⟨_, hi, if_neg h⟩
  · rw [List.mem_append, List.mem_singleton, Prod.mk.injEq, Option.some.injEq]
    constructor
    · rintro (hi | hi)
      · exact absurd (h ▸ List.mem_map_of_mem hi) hk
      · exact hi.2.symm
    · exact fun hv => .inr ⟨h, hv.symm⟩
  · rw [List.mem_append, List.mem_singleton, Prod.mk.injEq, get_eq_some]
    exact ⟨fun hi => hi.resolve_right fun he => h he.1, .inl⟩

end Dict
