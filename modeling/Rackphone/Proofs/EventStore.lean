import Rackphone.EventStore

/-!
# What the inserts do

An insert keeps every row and adds at most one, above all the others; after it the event's key is
taken, so a batch committed again adds nothing.
-/

namespace Rackphone

namespace EventStore

theorem rows_insertOrIgnore (s : EventStore) (e : Event) (t : ℤ) :
    (s.insertOrIgnore e t).rows
      = if e.key ∈ s.keys then s.rows else s.rows ++ [s.newRow e t] := by
  unfold insertOrIgnore
  split_ifs <;> rfl

theorem mem_keys {s : EventStore} {k : EventKey} : k ∈ s.keys ↔ ∃ r ∈ s.rows, r.key = k := by
  simp [keys]

theorem insertOrIgnore_of_mem {s : EventStore} {e : Event} (h : e.key ∈ s.keys) (t : ℤ) :
    s.insertOrIgnore e t = s := by
  unfold insertOrIgnore
  rw [dif_pos h]

theorem rows_prefix_insertOrIgnore (s : EventStore) (e : Event) (t : ℤ) :
    s.rows <+: (s.insertOrIgnore e t).rows := by
  rw [rows_insertOrIgnore]
  split_ifs
  · exact List.prefix_refl _
  · exact List.prefix_append _ _

theorem key_mem_insertOrIgnore (s : EventStore) (e : Event) (t : ℤ) :
    e.key ∈ (s.insertOrIgnore e t).keys := by
  rw [mem_keys, rows_insertOrIgnore]
  split_ifs with h
  · exact mem_keys.1 h
  · exact ⟨s.newRow e t, by simp, rfl⟩

theorem latestEventId_mono {s s' : EventStore} (h : s.rows <+: s'.rows) :
    s.latestEventId ≤ s'.latestEventId :=
  Nat.le_of_lt_succ (Table.maxId_lt (Nat.succ_pos _) fun _ hr =>
    Nat.lt_succ_of_le (Table.le_maxId (h.subset hr)))

/-- A row found after an insert was there before, or is the event's own, above all the others. -/
theorem mem_insertOrIgnore {s : EventStore} {e : Event} {t : ℤ} {r : Row}
    (h : r ∈ (s.insertOrIgnore e t).rows) :
    r ∈ s.rows ∨ r.toEvent = e ∧ r.receivedAt = t ∧ s.latestEventId < r.id := by
  rw [rows_insertOrIgnore] at h
  split_ifs at h
  · exact .inl h
  · rcases List.mem_append.1 h with h | h
    · exact .inl h
    · rw [List.mem_singleton.1 h]
      exact .inr ⟨rfl, rfl, Nat.lt_succ_self _⟩

theorem rows_prefix_addEvents (t : ℤ) : ∀ (s : EventStore) (es : List Event),
    s.rows <+: (s.addEvents t es).1.rows
  | _, [] => List.prefix_refl _
  | s, e :: es =>
    (rows_prefix_insertOrIgnore s e t).trans (rows_prefix_addEvents t (s.insertOrIgnore e t) es)

theorem mem_addEvents {t : ℤ} : ∀ {s : EventStore} {es : List Event} {r : Row},
    r ∈ (s.addEvents t es).1.rows →
      r ∈ s.rows ∨ r.toEvent ∈ es ∧ r.receivedAt = t ∧ s.latestEventId < r.id
  | _, [], _, h => .inl h
  | s, e :: es, r, h => by
    rcases mem_addEvents (s := s.insertOrIgnore e t) h with h | ⟨h, ht, hid⟩
    · rcases mem_insertOrIgnore h with h | ⟨h, ht, hid⟩
      · exact .inl h
      · exact .inr ⟨h ▸ List.mem_cons_self, ht, hid⟩
    · exact .inr ⟨List.mem_cons_of_mem _ h, ht,
        (latestEventId_mono (rows_prefix_insertOrIgnore s e t)).trans_lt hid⟩

theorem key_mem_addEvents {t : ℤ} : ∀ {s : EventStore} {es : List Event} {e : Event},
    e ∈ es → e.key ∈ (s.addEvents t es).1.keys
  | s, e :: es, e', h => by
    rcases List.mem_cons.1 h with rfl | h
    · exact ((rows_prefix_addEvents t _ es).map _).subset (key_mem_insertOrIgnore s e' t)
    · have := key_mem_addEvents (s := s.insertOrIgnore e t) (t := t) h
      exact this

theorem nodup_newestKey (s : EventStore) : (s.rows.map Row.newestKey).Nodup := by
  refine List.pairwise_map.2 (s.ids_lt.imp fun {r r'} hlt h => ?_)
  have hid : r.id = r'.id := congrArg (fun k => (ofLex k).2) h
  omega

theorem latestEventId_lt_of_mem_drop {s s' : EventStore} (h : s.rows <+: s'.rows) {r : Row}
    (hr : r ∈ s'.rows.drop s.rows.length) : r ∈ s'.rows ∧ s.latestEventId < r.id := by
  obtain ⟨new, hnew⟩ := h
  have hids := s'.ids_lt
  rw [← hnew, List.drop_left] at hr
  rw [← hnew] at hids
  have hmem : r ∈ s'.rows := hnew ▸ List.mem_append_right _ hr
  exact ⟨hmem, Table.maxId_lt (s'.ids_pos r hmem) fun r' hr' =>
    (List.pairwise_append.1 hids).2.2 r' hr' r hr⟩

theorem eq_of_id {s : EventStore} {r r' : Row} (hr : r ∈ s.rows) (hr' : r' ∈ s.rows)
    (h : r.id = r'.id) : r = r' :=
  s.ids_lt.eq_of_id hr hr' h

/-- A row of the grown store that is not above what the store had was there. -/
theorem mem_of_id_le {s s' : EventStore} (h : s.rows <+: s'.rows) {r : Row} (hr : r ∈ s'.rows)
    (hid : r.id ≤ s.latestEventId) : r ∈ s.rows := by
  have hsplit : r ∈ s'.rows.take s.rows.length ++ s'.rows.drop s.rows.length := by
    rwa [List.take_append_drop]
  rcases List.mem_append.1 hsplit with hr | hr
  · obtain ⟨new, hnew⟩ := h
    rwa [← hnew, List.take_left] at hr
  · have := (latestEventId_lt_of_mem_drop h hr).2
    omega

theorem rows_prefix_addSent {s store : EventStore} {unit address body : String} {timestamp : ℤ}
    {sub : Option ℤ} {now : ℤ} {row : Row}
    (h : s.addSent unit address body timestamp sub now = some (store, row)) :
    s.rows <+: store.rows := by
  unfold addSent at h
  simp only [] at h
  split_ifs at h
  obtain ⟨rfl, -⟩ := Prod.mk.inj (Option.some.inj h)
  exact rows_prefix_insertOrIgnore _ _ _

theorem lowestSourceId_le {s : EventStore} {unit : String} {r : Row} (hr : r ∈ s.rows)
    (hu : r.unit = unit) (hk : r.kind = KIND_SMS) : s.lowestSourceId unit ≤ r.sourceId := by
  have hmem : r.sourceId ∈ (s.rows.filter fun r => r.unit = unit ∧ r.kind = KIND_SMS).map
      fun r => r.sourceId := List.mem_map.2 ⟨r, by simp [hr, hu, hk], rfl⟩
  obtain ⟨m, hm⟩ := Option.isSome_iff_exists.1
    (List.isSome_min?_of_mem hmem)
  rw [lowestSourceId, hm, Option.getD_some]
  exact (List.min?_eq_some_iff.1 hm).2 _ hmem

theorem queryEvents_all (s : EventStore) (limit : ℕ) :
    s.queryEvents none none none limit
      = Page.top Row.newestKey (max 1 (min limit MAX_QUERY_LIMIT)) s.rows := by
  rw [queryEvents, List.filter_eq_self.2]
  simp [Matches]

end EventStore

end Rackphone
