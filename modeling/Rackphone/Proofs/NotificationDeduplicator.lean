import Rackphone.NotificationDeduplicator

/-!
# The cache is an exact bounded memory

Read backwards, the keys of the map are the first of the keys posted so far, the one posted last in
front, and each has the content of its last post.
-/

namespace Rackphone.NotificationDeduplicator

/-- What the map holds after some posts. -/
structure Inv (d : NotificationDeduplicator) (posts : List Post) : Prop where
  keys : d.latest.keys.reverse = (AccessOrder.recent (posts.map Prod.fst)).take d.capacity
  content : ∀ key ∈ d.latest.keys, d.latest.get key = KeyLines.lastValue key posts

variable {d : NotificationDeduplicator} {posts : List Post}

theorem inv_start (capacity : ℕ+) : Inv (start capacity) [] := by
  refine ⟨?_, fun key h => absurd h List.not_mem_nil⟩
  show [] = List.take _ []
  rw [List.take_nil]

theorem Inv.size_le (hI : Inv d posts) : d.size ≤ d.capacity := by
  have hlen : d.size = d.latest.keys.reverse.length := by
    rw [List.length_reverse, Dict.keys, List.length_map]
    rfl
  rw [hlen, hI.keys, List.length_take]
  exact min_le_left _ _

theorem length_keys (l : Dict String NotificationContent) : l.keys.length = l.items.length :=
  List.length_map _

/-- Setting a key and dropping what is then too much moves the window by one. -/
theorem keys_step (post : Post) (hsize : d.size ≤ d.capacity) :
    (d.step post).latest.keys.reverse =
      (post.1 :: d.latest.keys.reverse.erase post.1).take d.capacity := by
  have hnodup : d.latest.keys.Nodup := d.latest.nodup
  set after := AccessOrder.put (AccessOrder.touch d.latest post.1) post.1 post.2 with hafter
  have hkeys : after.keys = d.latest.keys.erase post.1 ++ [post.1] := AccessOrder.keys_put_touch
  have hreverse : after.keys.reverse = post.1 :: d.latest.keys.reverse.erase post.1 := by
    rw [hkeys, List.reverse_append, hnodup.erase_eq_filter,
      (List.nodup_reverse.2 hnodup).erase_eq_filter, List.filter_reverse]
    rfl
  have hlen : after.items.length ≤ d.capacity + 1 := by
    have herase := (List.erase_sublist (a := post.1) (l := d.latest.keys)).length_le
    rw [length_keys] at herase
    rw [← length_keys, hkeys, List.length_append, List.length_singleton]
    exact Nat.add_le_add_right (herase.trans hsize) 1
  have hstep : (d.step post).latest =
      if after.items.length > d.capacity then AccessOrder.dropEldest after else after := rfl
  rw [hstep, ← hreverse]
  split_ifs with hfull
  · rw [AccessOrder.keys_dropEldest, ← List.dropLast_reverse, List.dropLast_eq_take,
      List.length_reverse, length_keys]
    congr 1
    omega
  · rw [List.take_of_length_le]
    rw [List.length_reverse, length_keys]
    omega

theorem get_step (post : Post) {key : String} (h : key ∈ (d.step post).latest.keys) :
    (d.step post).latest.get key = if key = post.1 then some post.2 else d.latest.get key := by
  set after := AccessOrder.put (AccessOrder.touch d.latest post.1) post.1 post.2 with hafter
  have hstep : (d.step post).latest =
      if after.items.length > d.capacity then AccessOrder.dropEldest after else after := rfl
  have hget : after.get key = if key = post.1 then some post.2 else d.latest.get key := by
    rw [hafter, AccessOrder.get_put, AccessOrder.get_touch]
  rw [hstep] at h
  rw [hstep, ← hget]
  by_cases hfull : after.items.length > d.capacity
  · rw [if_pos hfull] at h ⊢
    exact AccessOrder.get_dropEldest h
  · rw [if_neg hfull]

theorem Inv.step (hI : Inv d posts) (post : Post) : Inv (d.step post) (posts ++ [post]) := by
  have hkeys := keys_step post hI.size_le
  obtain ⟨n, hn⟩ : ∃ n : ℕ, (d.capacity : ℕ) = n + 1 := Nat.exists_eq_add_one.2 d.capacity.pos
  have hcap : ((d.step post).capacity : ℕ) = n + 1 := hn
  refine ⟨?_, fun key h => ?_⟩
  · rw [hkeys, hI.keys, hcap, hn, List.map_append, List.map_singleton,
      AccessOrder.take_recent_concat]
  · rw [get_step post h, KeyLines.lastValue_append, KeyLines.lastValue_singleton]
    have hmem := List.mem_of_mem_take (hkeys ▸ List.mem_reverse.2 h)
    by_cases hk : key = post.1
    · rw [if_pos hk, if_pos hk.symm]
      rfl
    · have hold : key ∈ d.latest.keys :=
        List.mem_reverse.1 (List.mem_of_mem_erase ((List.mem_cons.1 hmem).resolve_left hk))
      rw [if_neg hk, if_neg (Ne.symm hk), hI.content key hold]
      rfl

theorem Inv.final : ∀ {d : NotificationDeduplicator} {posts : List Post}, Inv d posts →
    ∀ more : List Post, Inv (Run.final NotificationDeduplicator.step d more) (posts ++ more)
  | _, posts, hI, [] => by rwa [List.append_nil]
  | d, posts, hI, post :: more => by
    have ih := (hI.step post).final more
    rwa [List.append_assoc] at ih

theorem Inv.isDuplicate_iff (hI : Inv d posts) (post : Post) :
    (d.isDuplicate post.1 post.2.title post.2.text).1 = true ↔
      Remembers d.capacity posts post := by
  have hmem : post.1 ∈ d.latest.keys ↔
      post.1 ∈ (AccessOrder.recent (posts.map Prod.fst)).take d.capacity := by
    rw [← hI.keys, List.mem_reverse]
  show decide (d.latest.get post.1 = some post.2) = true ↔ _
  rw [decide_eq_true_iff, Remembers, ← hmem]
  constructor
  · intro h
    have hkey : post.1 ∈ d.latest.keys := List.mem_map_of_mem (Dict.get_eq_some.1 h)
    exact ⟨hkey, (hI.content _ hkey).symm.trans h⟩
  · rintro ⟨hkey, h⟩
    exact (hI.content _ hkey).trans h

theorem capacity_final (capacity : ℕ+) (posts : List Post) :
    (Run.final step (start capacity) posts).capacity = capacity :=
  Run.final_of_invariant (I := fun d : NotificationDeduplicator => d.capacity = capacity)
    (fun d post (h : d.capacity = capacity) => show (d.step post).capacity = capacity from h) posts
    rfl

theorem isDuplicate_remembers (capacity : ℕ+) (posts : List Post) :
    (Run.final step (start capacity) posts).size ≤ capacity ∧
      ∀ key title text,
        ((Run.final step (start capacity) posts).isDuplicate key title text).1 = true
          ↔ Remembers capacity posts (key, ⟨title, text⟩) := by
  have hI := (inv_start capacity).final posts
  have hcap := capacity_final capacity posts
  refine ⟨?_, fun key title text => ?_⟩
  · have hsize := hI.size_le
    rwa [hcap] at hsize
  · have hiff := hI.isDuplicate_iff (key, ⟨title, text⟩)
    rwa [hcap, List.nil_append] at hiff

end Rackphone.NotificationDeduplicator
