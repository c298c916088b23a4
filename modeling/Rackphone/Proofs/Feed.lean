import Rackphone.Feed
import Rackphone.Proofs.Stream

/-!
# When row ids are a sound cursor

A row gets the id one above the highest there is, so what is stored stands above a cursor as long
as some row at or above the cursor is left. Retention goes by device time and may delete the row
with the highest id; the next row then gets an id that a cursor has already passed.
-/

namespace Rackphone

namespace EventStore

variable {s s' : EventStore}

theorem rows_pruneAll (now : ℤ) : ∀ (s : EventStore) (policies : List (String × ℤ)),
    List.Sublist (pruneAll now s policies).1.rows s.rows
  | s, [] => List.Sublist.refl _
  | s, (kind, days) :: policies => by
    unfold pruneAll
    split_ifs
    · exact rows_pruneAll now s policies
    · exact (rows_pruneAll now _ policies).trans List.filter_sublist

/-- A row that an insert added has a key the store did not have. -/
theorem key_notMem_of_new (h : s.rows <+: s'.rows) {r : Row} (hr : r ∈ s'.rows)
    (hn : r ∉ s.rows) : r.key ∉ s.keys := by
  intro hk
  obtain ⟨r₀, hr₀, hkey⟩ := mem_keys.1 hk
  have : r₀ = r := List.inj_on_of_nodup_map s'.keys_nodup (h.subset hr₀) hr hkey
  exact hn (this ▸ hr₀)

theorem newRow_mem_insertOrIgnore {e : Event} {t : ℤ} (h : s.stores e = true) :
    s.newRow e t ∈ (s.insertOrIgnore e t).rows := by
  rw [rows_insertOrIgnore, if_neg (by simpa [stores] using h)]
  simp

/-- The first event of a batch that is new gets the next id. -/
theorem exists_next_addEvents (t : ℤ) : ∀ {s : EventStore} {es : List Event},
    (∃ e ∈ es, s.stores e = true) →
      ∃ r ∈ (s.addEvents t es).1.rows, r.id = s.latestEventId + 1
  | s, [], h => by simp at h
  | s, e :: es, h => by
    by_cases hnew : s.stores e = true
    · exact ⟨s.newRow e t, (rows_prefix_addEvents t _ es).subset (newRow_mem_insertOrIgnore hnew),
        rfl⟩
    · have hsame : s.insertOrIgnore e t = s :=
        insertOrIgnore_of_mem (by simpa [stores] using hnew) t
      have hrest : ∃ e' ∈ es, s.stores e' = true := by
        obtain ⟨e', he', hnew'⟩ := h
        rcases List.mem_cons.1 he' with rfl | he'
        · exact absurd hnew' hnew
        · exact ⟨e', he', hnew'⟩
      have ih := exists_next_addEvents t hrest
      unfold addEvents
      simpa only [hsame] using ih

end EventStore

namespace Feed

variable {s : Feed} {a : Action}

theorem store_step (s : Feed) (a : Action) : (s.step a).store = s.storeAfter a := by
  cases a with
  | poll stream config =>
    simp only [step, storeAfter]
    rcases s.cursors[stream]? with _ | lastSeenId <;> rfl
  | _ => rfl

/-- A row that was not there before is above all that were, and the action stores one. -/
theorem stores_of_new {r : Row} (hr : r ∈ (s.storeAfter a).rows) (hn : r ∉ s.store.rows) :
    s.Stores a ∧ s.store.latestEventId < r.id := by
  cases a with
  | addEvents receivedAt events =>
    have hpre := EventStore.rows_prefix_addEvents receivedAt s.store events
    have hkey := EventStore.key_notMem_of_new hpre hr hn
    obtain ⟨he, -, hlt⟩ := (EventStore.mem_addEvents hr).resolve_left hn
    exact ⟨⟨r.toEvent, he, by simpa [EventStore.stores] using hkey⟩, hlt⟩
  | addSent unit address body timestamp sub now =>
    unfold storeAfter EventStore.addSent at hr
    simp only [] at hr
    split_ifs at hr with hst
    · exact ⟨hst, ((EventStore.mem_insertOrIgnore hr).resolve_left hn).2.2⟩
    · exact absurd hr hn
  | prune retentionDays now =>
    exact absurd ((EventStore.rows_pruneAll now s.store _).subset hr) hn
  | connect => exact absurd hr hn
  | poll stream config => exact absurd hr hn

/-- An action that stores a row gives one the next id. -/
theorem exists_next (h : s.Stores a) :
    ∃ r ∈ (s.storeAfter a).rows, r.id = s.store.latestEventId + 1 := by
  cases a with
  | addEvents receivedAt events => exact EventStore.exists_next_addEvents receivedAt h
  | addSent unit address body timestamp sub now =>
    have hst : s.store.stores (s.store.sentEvent unit address body timestamp sub) = true := h
    refine ⟨s.store.newRow (s.store.sentEvent unit address body timestamp sub) now, ?_, rfl⟩
    simp only [storeAfter, EventStore.addSent, if_pos hst]
    exact EventStore.newRow_mem_insertOrIgnore hst
  | prune retentionDays now => exact h.elim
  | connect => exact h.elim
  | poll stream config => exact h.elim

theorem insertsAbove_iff : s.InsertsAbove a ↔ s.CursorsKept a := by
  unfold InsertsAbove CursorsKept
  rw [store_step]
  constructor
  · intro h hst c hc
    obtain ⟨r, hr, hid⟩ := exists_next hst
    have hn : r ∉ s.store.rows := by
      intro hmem
      have hle : r.id ≤ s.store.latestEventId := @Table.le_maxId _ Row.id _ _ hmem
      omega
    have hlt := h r hr hn c hc
    exact Table.le_maxId_iff.1 (show c ≤ s.store.latestEventId by omega)
  · intro h r hr hn c hc
    obtain ⟨hst, hlt⟩ := stores_of_new hr hn
    have hle : c ≤ s.store.latestEventId := Table.le_maxId_iff.2 (h hst c hc)
    omega

/-- No cursor taken is above every row. -/
def Behind (s : Feed) : Prop := ∀ c ∈ s.taken, c ≤ s.store.latestEventId

theorem mem_taken_step {c : ℕ} (h : c ∈ (s.step a).taken) :
    c ∈ s.taken ∨ c ≤ s.store.latestEventId := by
  cases a with
  | connect =>
    rcases List.mem_cons.1 h with rfl | h
    · exact .inr le_rfl
    · exact .inl h
  | poll stream config =>
    simp only [step] at h
    rcases hc : s.cursors[stream]? with _ | lastSeenId
    · simp only [hc] at h
      exact .inl h
    · simp only [hc, List.mem_append, List.mem_map] at h
      refine h.symm.imp_right fun ⟨r, hr, hid⟩ => hid ▸ ?_
      simp only [Stream.poll, List.nil_append] at hr
      exact Table.le_maxId (Page.mem_of_mem_top _ ((Stream.mem_rows config).1 hr).1)
  | _ => exact .inl h

theorem Behind.step (h : s.Behind) (hkeep : s.PruneKeeps a) : (s.step a).Behind := by
  intro c hc
  rw [store_step]
  have hle : c ≤ s.store.latestEventId := (mem_taken_step hc).elim (h c) id
  cases a with
  | addEvents receivedAt events =>
    exact hle.trans (EventStore.latestEventId_mono (EventStore.rows_prefix_addEvents _ _ _))
  | addSent unit address body timestamp sub now =>
    rcases hsent : s.store.addSent unit address body timestamp sub now with _ | ⟨store, row⟩
    · simpa only [storeAfter, hsent] using hle
    · simp only [storeAfter, hsent]
      exact hle.trans (EventStore.latestEventId_mono (EventStore.rows_prefix_addSent hsent))
  | prune retentionDays now => exact Table.le_maxId_iff.2 (hkeep _ _ rfl c hc)
  | connect => exact hle
  | poll stream config => exact hle

/-- Row ids are a sound cursor in every run whose prunes leave a row at or above each cursor, so
in every run without a prune. -/
theorem meets_insertsAbove_of_pruneKeeps (store : EventStore) (as : List Action)
    (h : Run.Meets step PruneKeeps (start store) as) :
    Run.Meets step InsertsAbove (start store) as := by
  have hinit : (start store).Behind := fun c hc => nomatch hc
  refine Run.meets_of_meets (fun s a hI => hI.step) (fun s a hI => ?_) as hinit h
  exact insertsAbove_iff.2 fun _ c hc => Table.le_maxId_iff.1 (hI c hc)

/-- Row ids are a sound cursor in exactly the runs that store no row while a cursor has nothing
left at or above it. -/
theorem meets_insertsAbove_iff (store : EventStore) (as : List Action) :
    Run.Meets step InsertsAbove (start store) as ↔ Run.Meets step CursorsKept (start store) as :=
  Run.meets_congr (I := fun _ => True) (fun _ _ _ => trivial) (fun _ _ _ => insertsAbove_iff) as
    trivial

def dated (sourceId ts : ℤ) : Event :=
  ⟨"lisa01", KIND_NOTIFICATION, sourceId, none, none, some ts, none, none, "{}"⟩

/-- The second row to arrive is the older by device time; a stream has it as its cursor when a
prune deletes it, and the next row gets its id. -/
theorem prunedTop_reuses_id :
    ¬ ∀ (store : EventStore) (as : List Action), Run.Meets step InsertsAbove (start store) as := by
  intro h
  refine absurd (h .empty
    [.addEvents 1700000000 [dated 1 1700000000000, dated 2 1600000000000], .connect,
      .prune ⟨[(KIND_NOTIFICATION, 30)], by simp⟩ 1700000000,
      .addEvents 1700000000 [dated 3 1700000000000]]) ?_
  decide +kernel

end Feed

end Rackphone
