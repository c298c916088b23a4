import Rackphone.DeviceEvent
import Rackphone.Lib.Run
import Rackphone.Proofs.EventStore
import Rackphone.Stream

/-!
# A poll yields what is on its page

A fresh row is above the cursor, so whether the next poll yields it is settled by its place on the
page: a row that a hundred others outrank by device time is passed over, and the cursor may move
past it.
-/

namespace Rackphone

namespace Stream

variable (config : Option GatewayConfig) {s : Stream}

/-- The cursor is at a row there is, and every fresh row is above it. -/
structure Inv (s : Stream) : Prop where
  seen : s.lastSeenId ≤ s.store.latestEventId
  fresh : ∀ r ∈ s.fresh, r ∈ s.store.rows ∧ s.lastSeenId < r.id

theorem inv_start (store : EventStore) : Inv (start store) :=
  ⟨le_rfl, fun r hr => absurd hr (by simp [start])⟩

theorem Inv.grow (hI : Inv s) {store : EventStore} (h : s.store.rows <+: store.rows) :
    Inv (s.grow store) := by
  refine ⟨hI.seen.trans (EventStore.latestEventId_mono h), fun r hr => ?_⟩
  rcases List.mem_append.1 hr with hr | hr
  · obtain ⟨hmem, hlt⟩ := hI.fresh r hr
    exact ⟨h.subset hmem, hlt⟩
  · obtain ⟨hmem, hlt⟩ := EventStore.latestEventId_lt_of_mem_drop h hr
    exact ⟨hmem, hI.seen.trans_lt hlt⟩

theorem mem_rows {r : Row} :
    r ∈ s.rows config ↔ r ∈ Page.top Row.newestKey STREAM_BATCH_SIZE s.store.rows
      ∧ s.lastSeenId < r.id ∧ Readable config r := by
  have hlimit : max 1 (min STREAM_BATCH_SIZE MAX_QUERY_LIMIT) = STREAM_BATCH_SIZE := by decide
  rw [rows, List.mem_reverse, readableRows, EventStore.queryEvents_all, hlimit]
  simp only [List.mem_filter, decide_eq_true_eq, and_assoc]

theorem foldl_max_le {n : ℕ} : ∀ {rows : List Row} {seen : ℕ}, seen ≤ n →
    (∀ r ∈ rows, r.id ≤ n) → rows.foldl (fun seen r => max seen r.id) seen ≤ n
  | [], _, h, _ => h
  | r :: rows, seen, h, hr => by
    obtain ⟨hr, hrs⟩ := List.forall_mem_cons.1 hr
    rw [List.foldl_cons]
    exact foldl_max_le (max_le h hr) hrs

theorem Inv.poll (hI : Inv s) : Inv (s.poll config) := by
  refine ⟨foldl_max_le hI.seen fun r hr => ?_, fun r hr => absurd hr (by simp [Stream.poll])⟩
  exact Table.le_maxId (Page.mem_of_mem_top _ ((mem_rows config).1 hr).1)

theorem Inv.step (hI : Inv s) (a : Action) : Inv (s.step config a) := by
  cases a with
  | addEvents receivedAt events => exact hI.grow (EventStore.rows_prefix_addEvents _ _ _)
  | addSent unit address body timestamp sub now =>
    simp only [Stream.step]
    rcases h : s.store.addSent unit address body timestamp sub now with _ | ⟨store, row⟩
    · exact hI
    · exact hI.grow (EventStore.rows_prefix_addSent h)
  | poll authorised =>
    simp only [Stream.step]
    split_ifs
    · exact hI.poll config
    · exact ⟨hI.seen, hI.fresh⟩
    · exact hI

/-- A poll yields a fresh row the reader may see exactly when the row is on the page. -/
theorem mem_rows_of_fresh (hI : Inv s) {r : Row} (hr : r ∈ s.fresh) (hread : Readable config r) :
    r ∈ s.rows config ↔ Page.ahead Row.newestKey s.store.rows r < STREAM_BATCH_SIZE := by
  obtain ⟨hmem, hlt⟩ := hI.fresh r hr
  rw [mem_rows, Page.mem_top Row.newestKey s.store.nodup_newestKey]
  simp only [hmem, hlt, hread, and_true, true_and]

/-- Every poll of a run yields every row inserted since the one before that the reader may see
exactly when, at every poll, each of these rows has fewer than a page of rows ahead of it. -/
theorem yieldsFresh_iff_freshOnPage (store : EventStore) (as : List Action) :
    Run.Meets (step config) (YieldsFresh config) (start store) as
      ↔ Run.Meets (step config) (FreshOnPage config) (start store) as := by
  refine Run.meets_congr (I := Inv) (fun s a hI => hI.step config a) (fun s a hI => ?_) as
    (inv_start store)
  cases a with
  | poll authorised =>
    refine imp_congr_right fun _ => forall_congr' fun r => forall_congr' fun hr =>
      forall_congr' fun hread => mem_rows_of_fresh config hI hr hread
  | _ => exact Iff.rfl

/-- A drain of a unit whose spool filled up while the host was away: one message more than a
page, a second apart. -/
def backlog : List Event :=
  (List.range 101).map fun n =>
    (Spooled.mk (1700000000 + n) (.sms "+15550100" (1700000000000 + 1000 * n) 0 none)).toEvent
      "lisa01"

theorem backlog_skipped :
    ¬ ∀ (config : Option GatewayConfig) (store : EventStore) (as : List Action),
      Run.Meets (step config) (YieldsFresh config) (start store) as := by
  intro h
  set s := (start .empty).step none (.addEvents 1700000200 backlog)
  have hI : Inv s := (inv_start .empty).step none _
  have hfirst : ∃ r ∈ s.fresh, ¬ Page.ahead Row.newestKey s.store.rows r < STREAM_BATCH_SIZE := by
    decide +kernel
  obtain ⟨r, hr, hahead⟩ := hfirst
  have hyield := (h none .empty [.addEvents 1700000200 backlog, .poll true]).2.1
  have hmem := hyield ⟨rfl, rfl⟩ r hr (by simp [Readable])
  exact hahead ((mem_rows_of_fresh none hI hr (by simp [Readable])).1 hmem)

end Stream

end Rackphone
