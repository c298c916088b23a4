import Rackphone.Lib.Dict

/-!
# Access-ordered maps

A map that keeps its items in the order they were last looked up or set, as Java's `LinkedHashMap`
does where it is asked to. The keys of a history of uses come in that order too, each once; a
window of fixed length over them moves as a map does that drops its eldest item.
-/

namespace AccessOrder

variable {κ ν : Type*} [DecidableEq κ]

/-- Setting a key moves it to the end. -/
def put (d : Dict κ ν) (k : κ) (v : ν) : Dict κ ν := (d.pop k).set k v

/-- Looking a key up that is there moves it to the end. -/
def touch (d : Dict κ ν) (k : κ) : Dict κ ν :=
  match d.get k with
  | some v => put d k v
  | none => d

/-- The eldest item goes. -/
def dropEldest (d : Dict κ ν) : Dict κ ν :=
  match d.items with
  | [] => d
  | eldest :: _ => d.pop eldest.1

/-- The keys of a history, each once, the one used last first. -/
def recent (h : List κ) : List κ := h.dedup.reverse

variable {d : Dict κ ν} {k k' : κ} {v : ν}

theorem keys_put : (put d k v).keys = d.keys.erase k ++ [k] := by
  have hnodup : d.keys.Nodup := d.nodup
  have hpop : (d.pop k).keys = d.keys.erase k := by
    rw [hnodup.erase_eq_filter, Dict.keys, Dict.keys, Dict.pop, List.filter_map]
    refine congrArg _ (List.filter_congr fun i _ => ?_)
    rw [Bool.eq_iff_iff]
    simp
  have hnot : k ∉ (d.pop k).keys := by
    rw [hpop]
    exact hnodup.not_mem_erase
  rw [put, Dict.set, dif_neg hnot]
  show List.map Prod.fst ((d.pop k).items ++ [(k, v)]) = _
  rw [List.map_append, ← hpop]
  rfl

@[simp] theorem get_put : (put d k v).get k' = if k' = k then some v else d.get k' := by
  rw [put, Dict.get_set, Dict.get_pop]
  split_ifs <;> rfl

@[simp] theorem get_touch : (touch d k).get k' = d.get k' := by
  unfold touch
  cases h : d.get k with
  | none => rfl
  | some v =>
    show (put d k v).get k' = d.get k'
    rw [get_put]
    split_ifs with hk
    · rw [hk, h]
    · rfl

/-- A key that is looked up and then set moves once. -/
theorem keys_put_touch : (put (touch d k) k v).keys = d.keys.erase k ++ [k] := by
  unfold touch
  cases h : d.get k with
  | none => exact keys_put
  | some w =>
    show (put (put d k w) k v).keys = _
    have hnodup : d.keys.Nodup := d.nodup
    rw [keys_put, keys_put, List.erase_append_right _ hnodup.not_mem_erase,
      List.erase_cons_head, List.append_nil]

theorem keys_dropEldest : (dropEldest d).keys = d.keys.tail := by
  have hnodup := d.nodup
  unfold dropEldest Dict.keys
  split
  next h => rw [h]; rfl
  next i is h =>
    rw [h] at hnodup ⊢
    have hnot : ∀ j ∈ is, decide (j.1 ≠ i.1) = true := fun j hj => by
      refine decide_eq_true fun he => (List.nodup_cons.1 hnodup).1 ?_
      rw [← he]
      exact List.mem_map_of_mem hj
    show List.map Prod.fst (d.items.filter fun j => j.1 ≠ i.1) = _
    rw [h, List.filter_cons_of_neg (by simp), List.filter_eq_self.2 hnot]
    rfl

theorem get_dropEldest (h : k ∈ (dropEldest d).keys) : (dropEldest d).get k = d.get k := by
  unfold dropEldest at h ⊢
  split
  next hnil => rfl
  next i is hcons =>
    rw [hcons] at h
    rw [Dict.get_pop, if_neg]
    rintro rfl
    simp [Dict.keys, Dict.pop] at h

/-! ## Windows -/

theorem dedup_concat (k : κ) : ∀ h : List κ, (h ++ [k]).dedup = h.dedup.erase k ++ [k]
  | [] => rfl
  | a :: h => by
    have ih := dedup_concat k h
    rw [List.cons_append]
    by_cases ha : a ∈ h
    · rw [List.dedup_cons_of_mem (List.mem_append_left _ ha), List.dedup_cons_of_mem ha, ih]
    · rw [List.dedup_cons_of_notMem ha]
      by_cases hk : a = k
      · subst hk
        have hnot : a ∉ h.dedup := fun hm => ha (List.mem_dedup.1 hm)
        rw [List.dedup_cons_of_mem (by simp), ih, List.erase_cons_head, List.erase_of_not_mem hnot]
      · have hnew : a ∉ h ++ [k] := by simp [ha, hk]
        rw [List.dedup_cons_of_notMem hnew, ih, List.erase_cons_tail (by simpa using hk)]
        rfl

theorem recent_concat (h : List κ) (k : κ) : recent (h ++ [k]) = k :: (recent h).erase k := by
  have hnodup := List.nodup_dedup h
  rw [recent, recent, dedup_concat, List.reverse_append, hnodup.erase_eq_filter,
    (List.nodup_reverse.2 hnodup).erase_eq_filter, List.filter_reverse]
  rfl

theorem take_erase (k : κ) : ∀ (l : List κ) (n : ℕ),
    ((l.take (n + 1)).erase k).take n = (l.erase k).take n
  | [], n => by simp
  | a :: l, n => by
    rw [List.take_succ_cons]
    by_cases ha : a = k
    · rw [ha, List.erase_cons_head, List.erase_cons_head, List.take_take, min_self]
    · rw [List.erase_cons_tail (by simpa using ha), List.erase_cons_tail (by simpa using ha)]
      cases n with
      | zero => rfl
      | succ n => rw [List.take_succ_cons, List.take_succ_cons, take_erase k l n]

/-- The window moves as a map of its size does: the key comes in front, and what is then past the
end goes. -/
theorem take_recent_concat (h : List κ) (k : κ) (n : ℕ) :
    (recent (h ++ [k])).take (n + 1) = (k :: ((recent h).take (n + 1)).erase k).take (n + 1) := by
  rw [recent_concat, List.take_succ_cons, List.take_succ_cons, take_erase]

end AccessOrder
