import Rackphone.Proofs.EventStore
import Rackphone.SendRace

/-!
# Sent and received rows apart

Between the two statements of a send the other thread can only add rows with positive ids or take
rows away, so the id the send has chosen stays below the unit's messages. After the second, the
count and the id it reads are its own unless the drain thread has made a statement meanwhile, and
its row is read back unless a `DELETE` or a rollback has taken it.
-/

namespace Rackphone

namespace EventStore

variable {s : EventStore}

theorem find_id_iff {r : Row} : s.rows.find? (fun r' => r'.id = r.id) = some r ↔ r ∈ s.rows := by
  refine ⟨List.mem_of_find?_eq_some, fun hr => ?_⟩
  cases h : s.rows.find? fun r' => r'.id = r.id with
  | none => exact absurd (List.find?_eq_none.1 h r hr) (by simp)
  | some r' =>
    have hid : r'.id = r.id := by simpa using List.find?_some h
    rw [eq_of_id (List.mem_of_find?_eq_some h) hr hid]

theorem mem_rows_newRow {e : Event} (h : s.stores e = true) (t : ℤ) :
    s.newRow e t ∈ (s.insertOrIgnore e t).rows := by
  have hk : e.key ∉ s.keys := by simpa [stores] using h
  simp [insertOrIgnore, hk]

theorem id_newRow_ne {r : Row} (hr : r ∈ s.rows) (e : Event) (t : ℤ) : (s.newRow e t).id ≠ r.id :=
  (Nat.lt_succ_of_le (Table.le_maxId hr)).ne'

theorem mem_delete {p : Row → Prop} [DecidablePred p] {r : Row} :
    r ∈ (s.delete p).1.rows ↔ r ∈ s.rows ∧ ¬ p r := by
  simp [delete, List.mem_filter]

end EventStore

namespace SendRace

variable {s : SendRace}

/-- The id a send has chosen is below what is stored. -/
def Below (store : EventStore) (x : QueuedMessage) (lowest : ℤ) : Prop :=
  ∀ r ∈ store.rows, r.unit = x.unit → r.kind = KIND_SMS →
    (sendEvent x lowest).sourceId < r.sourceId

theorem sourceId_sendEvent (x : QueuedMessage) (lowest : ℤ) :
    (sendEvent x lowest).sourceId = min (-x.timestamp) (lowest - 1) := rfl

theorem sourceId_nonpos (x : QueuedMessage) (lowest : ℤ) : (sendEvent x lowest).sourceId ≤ 0 := by
  have h := x.timestamp_nonneg
  rw [sourceId_sendEvent]
  omega

theorem below_select (store : EventStore) (x : QueuedMessage) :
    Below store x (store.lowestSourceId x.unit) := by
  intro r hr hu hk
  have h := EventStore.lowestSourceId_le hr hu hk
  rw [sourceId_sendEvent]
  omega

theorem Below.insert {store : EventStore} {x : QueuedMessage} {lowest : ℤ}
    (h : Below store x lowest) (e : Arrival) (t : ℤ) :
    Below (store.insertOrIgnore e.toEvent t) x lowest := by
  intro r hr hu hk
  rcases EventStore.mem_insertOrIgnore hr with hr | ⟨hr, -, -⟩
  · exact h r hr hu hk
  · have hid : r.sourceId = e.sourceId := congrArg Event.sourceId hr
    exact (sourceId_nonpos x lowest).trans_lt (hid ▸ e.sourceId_pos)

theorem Below.subset {store store' : EventStore} {x : QueuedMessage} {lowest : ℤ}
    (h : Below store x lowest) (hsub : store'.rows ⊆ store.rows) : Below store' x lowest :=
  fun _ hr => h _ (hsub hr)

theorem stores_of_below {store : EventStore} {x : QueuedMessage} {lowest : ℤ}
    (h : Below store x lowest) : store.stores (sendEvent x lowest) = true := by
  rw [EventStore.stores, decide_eq_true_eq]
  intro hmem
  obtain ⟨r, hr, hkey⟩ := EventStore.mem_keys.1 hmem
  simp only [Event.key, Prod.mk.injEq] at hkey
  have := h r hr hkey.1 hkey.2.1
  omega

theorem finds_iff {row : Row} : s.Finds row ↔ row ∈ s.table.rows := EventStore.find_id_iff

/-- What a send relies on before its `INSERT`. -/
theorem inserting_iff {store : EventStore} {x : QueuedMessage} {lowest : ℤ} :
    (Binds (sendEvent x lowest) ∧ store.stores (sendEvent x lowest) = true
        ∧ (sendEvent x lowest).sourceId ≤ 0 ∧ Below store x lowest)
      ↔ Binds (sendEvent x lowest) ∧ Below store x lowest :=
  ⟨fun h => ⟨h.1, h.2.2.2⟩, fun h => ⟨h.1, stores_of_below h.2, sourceId_nonpos x lowest, h.2⟩⟩

/-- Outside `prune` the last commit has no row that the connection does not see. -/
structure Inv (s : SendRace) : Prop where
  sound : s.Sound
  held : s.drain.isPruning = false → s.connection.committed.rows ⊆ s.table.rows

theorem inv_opened (store : EventStore) : (opened store).Inv where
  sound := ⟨trivial, rfl, fun _ hr => absurd hr List.not_mem_nil, trivial⟩
  held _ := List.Subset.refl _

theorem neverMistaken_iff : s.NeverMistaken ↔ ∀ r ∈ s.sentRows, r.sourceId ≤ 0 := by
  refine forall₂_congr fun r _ => ⟨fun h => ?_, fun h e hkey => ?_⟩
  · by_contra hpos
    exact h ⟨r.toEvent, by omega⟩ rfl
  · have hid : r.sourceId = e.sourceId := congrArg (fun k => k.2.2) hkey
    have := e.sourceId_pos
    omega

theorem binds_sendEvent {x : QueuedMessage} {lowest : ℤ} :
    Binds (sendEvent x lowest) ↔ x.timestamp < 2 ^ 63 ∧ -2 ^ 63 < lowest := by
  have h := x.timestamp_nonneg
  have hts : (sendEvent x lowest).timestamp = some x.timestamp := rfl
  have hduration : (sendEvent x lowest).duration = none := rfl
  rw [Binds, hts, hduration, sourceId_sendEvent]
  simp only [Option.mem_def, Option.some.injEq, forall_eq', Has64Bits, reduceCtorEq,
    IsEmpty.forall_iff, implies_true, and_true]
  omega

/-! ## What the drain thread does to a send -/

/-- An arrival's row has an id of its own. -/
theorem lastRowid_insert {row : Row} (hrow : row ∈ s.table.rows) (hid : s.lastRowid = row.id)
    (e : Event) (t : ℤ) : (s.insert e t).lastRowid = row.id ↔ s.table.stores e = false := by
  rcases h : s.table.stores e with _ | _ <;> simp only [SendRace.insert, h]
  · exact iff_of_true hid trivial
  · exact iff_of_false (EventStore.id_newRow_ne hrow e t) (by simp)

theorem mem_insert {row : Row} (hrow : row ∈ s.table.rows) (e : Event) (t : ℤ) :
    row ∈ (s.insert e t).table.rows :=
  (EventStore.rows_prefix_insertOrIgnore s.table e t).subset hrow

theorem sendSound_insert (h : s.SendSound) (e : Arrival) (t : ℤ) :
    (s.insert e.toEvent t).SendSound ↔ s.InsertSpares e.toEvent := by
  have hsend : (s.insert e.toEvent t).send = s.send := rfl
  unfold SendSound at h ⊢
  unfold InsertSpares
  rw [hsend]
  cases hphase : s.send <;> rw [hphase] at h <;> dsimp only at h ⊢
  case inserting x lowest =>
    exact iff_of_true (inserting_iff.2 ⟨h.1, (inserting_iff.1 h).2.insert e t⟩) trivial
  case counting row =>
    have hrow := finds_iff.1 h.2.2
    refine iff_of_false (fun ⟨hcount, hid, _⟩ => ?_) id
    rw [lastRowid_insert hrow h.2.1] at hid
    simp [SendRace.insert, hid] at hcount
  case identifying row rowcount =>
    have hrow := finds_iff.1 h.2.2
    rw [lastRowid_insert hrow h.2.1, finds_iff]
    exact ⟨fun hnew => hnew.2.1, fun hstores => ⟨h.1, hstores, mem_insert hrow _ t⟩⟩
  case fetching row rowcount lastrowid =>
    have hrow := mem_insert (finds_iff.1 h.2.2) e.toEvent t
    exact iff_of_true ⟨h.1, h.2.1, finds_iff.2 hrow⟩ trivial
  case returning row returned => exact iff_of_true h trivial

theorem sendSound_delete (h : s.SendSound) (expired : Row → Prop) [DecidablePred expired] :
    SendSound { s with
        connection := s.connection.write (s.table.delete expired).1
        changes := (s.table.delete expired).2 } ↔ s.DeleteSpares expired := by
  generalize hs' : ({ s with
    connection := s.connection.write (s.table.delete expired).1
    changes := (s.table.delete expired).2 } : SendRace) = s'
  have hsend : s'.send = s.send := by rw [← hs']
  have hid : s'.lastRowid = s.lastRowid := by rw [← hs']
  have hchanges : s'.changes = s.table.rows.countP fun r => expired r := by
    rw [← hs']
    rfl
  have hmem : ∀ {row}, row ∈ s'.table.rows ↔ row ∈ s.table.rows ∧ ¬ expired row := by
    rw [← hs']
    exact EventStore.mem_delete
  unfold SendSound at h ⊢
  unfold DeleteSpares
  rw [hsend]
  cases hphase : s.send <;> rw [hphase] at h <;> dsimp only at h ⊢
  case inserting x lowest =>
    have hbelow := (inserting_iff.1 h).2.subset fun r hr => (hmem.1 hr).1
    exact iff_of_true (inserting_iff.2 ⟨h.1, hbelow⟩) trivial
  case counting row =>
    rw [hchanges, hid, finds_iff, hmem]
    have hrow := finds_iff.1 h.2.2
    tauto
  case identifying row rowcount =>
    rw [hid, finds_iff, hmem]
    have hrow := finds_iff.1 h.2.2
    tauto
  case fetching row rowcount lastrowid =>
    rw [finds_iff, hmem]
    have hrow := finds_iff.1 h.2.2
    tauto
  case returning row returned => exact iff_of_true h trivial

/-- A rollback to a commit that has the row of the send. -/
theorem sendSound_rollback (h : s.SendSound)
    (hheld : s.connection.committed.rows ⊆ s.table.rows) (hrow : s.uncommitted = []) :
    SendSound { s with connection := s.connection.rollback } := by
  have hkept : ∀ row ∈ s.send.row, row ∈ s.table.rows → row ∈ s.connection.committed.rows := by
    intro row hsend hmem
    by_contra hnot
    have htaken : row ∈ s.uncommitted :=
      List.mem_filter.2 ⟨Option.mem_toList.2 hsend, by simp [hmem, hnot]⟩
    rw [hrow] at htaken
    cases htaken
  have hfinds : ∀ row ∈ s.send.row, s.Finds row →
      Finds { s with connection := s.connection.rollback } row := fun row hsend hfound =>
    finds_iff.2 (hkept row hsend (finds_iff.1 hfound))
  unfold SendSound at h ⊢
  cases hphase : s.send <;> rw [hphase] at h hfinds <;> dsimp only at h ⊢
  case inserting x lowest =>
    exact inserting_iff.2 ⟨h.1, (inserting_iff.1 h).2.subset hheld⟩
  case counting row => exact ⟨h.1, h.2.1, hfinds row rfl h.2.2⟩
  case identifying row rowcount => exact ⟨h.1, h.2.1, hfinds row rfl h.2.2⟩
  case fetching row rowcount lastrowid => exact ⟨h.1, h.2.1, hfinds row rfl h.2.2⟩
  case returning row returned => exact h

/-! ## Steps -/

theorem Inv.drainNext (h : s.Inv) (hc : s.DrainSpares) : s.drainNext.Inv := by
  have hsound := h.sound
  have hheld := h.held
  unfold DrainSpares at hc
  unfold SendRace.drainNext
  cases hdrain : s.drain with
  | idle => exact h
  | inserting receivedAt rest =>
    rw [hdrain] at hc hheld
    cases rest with
    | nil => exact ⟨⟨hsound.send, hsound.kept, hsound.never, trivial⟩, fun _ => List.Subset.refl _⟩
    | cons e rest =>
      dsimp only at hc ⊢
      split_ifs at hc ⊢ with hbinds
      · refine ⟨⟨(sendSound_insert hsound.send e receivedAt).2 hc, hsound.kept, hsound.never,
          fun hstored => ?_⟩, fun _ r hr => mem_insert (hheld rfl hr) e.toEvent receivedAt⟩
        simp [SendRace.insert, hstored]
      · refine ⟨⟨sendSound_rollback hsound.send (hheld rfl) hc, ?_, hsound.never, trivial⟩,
          fun _ => List.Subset.refl _⟩
        show s.undone ++ s.uncommitted = []
        rw [hsound.kept, hc, List.nil_append]
  | counting receivedAt inserted rest =>
    rw [hdrain] at hheld
    exact ⟨⟨hsound.send, hsound.kept, hsound.never, trivial⟩, hheld⟩
  | pruning now policies =>
    rw [hdrain] at hc
    cases policies with
    | nil => exact ⟨⟨hsound.send, hsound.kept, hsound.never, trivial⟩, fun _ => List.Subset.refl _⟩
    | cons policy rest =>
      obtain ⟨kind, days⟩ := policy
      dsimp only at hc ⊢
      unfold pruneKind
      by_cases hdays : days = 0
      · rw [if_pos hdays]
        exact ⟨⟨hsound.send, hsound.kept, hsound.never, trivial⟩, fun hnot => by cases hnot⟩
      · rw [if_neg hdays]
        have hsend := (sendSound_delete hsound.send (Expired now days kind)).2
          (hc.resolve_left hdays)
        exact ⟨⟨hsend, hsound.kept, hsound.never, trivial⟩, fun hnot => by cases hnot⟩

theorem Inv.sendNext (h : s.Inv) (now : ℤ) (hc : s.SendFits) : (s.sendNext now).Inv := by
  obtain ⟨hsend, hkept, hnever, hcounted⟩ := h.sound
  have hheld := h.held
  unfold SendSound at hsend
  unfold SendFits at hc
  unfold SendRace.sendNext
  cases hphase : s.send <;> rw [hphase] at hsend hc <;> dsimp only at hsend hc ⊢
  case idle => exact h
  case selecting x =>
    have hbelow := below_select s.table x
    exact ⟨⟨inserting_iff.2 ⟨binds_sendEvent.2 hc, hbelow⟩, hkept, hnever, hcounted⟩, hheld⟩
  case inserting x lowest =>
    rw [if_pos hsend.1, if_pos hsend.2.1]
    refine ⟨⟨⟨?_, ?_, ?_⟩, hkept, ?_, ?_⟩, fun hnot r hr => mem_insert (hheld hnot hr) _ now⟩
    · exact if_pos hsend.2.1
    · exact if_pos hsend.2.1
    · exact finds_iff.2 (EventStore.mem_rows_newRow hsend.2.1 now)
    · rw [neverMistaken_iff] at hnever ⊢
      intro r hr
      rcases List.mem_append.1 hr with hr | hr
      · exact hnever r hr
      · rw [List.mem_singleton.1 hr]
        exact hsend.2.2.1
    · unfold Counted
      split
      · intro _
        simp [SendRace.insert, hsend.2.1]
      · trivial
  case counting row => exact ⟨⟨hsend, hkept, hnever, hcounted⟩, hheld⟩
  case identifying row rowcount => exact ⟨⟨hsend, hkept, hnever, hcounted⟩, hheld⟩
  case fetching row rowcount lastrowid =>
    rw [if_neg (not_not.2 hsend.1)]
    refine ⟨⟨?_, hkept, hnever, hcounted⟩, hheld⟩
    show (s.table.rows.find? fun r => r.id = lastrowid) = some row
    rw [hsend.2.1]
    exact hsend.2.2
  case returning row returned =>
    exact ⟨⟨trivial, hkept, hnever, hcounted⟩, fun _ => List.Subset.refl _⟩

theorem Inv.step (h : s.Inv) (a : Action) (hc : s.Undisturbed a) : (s.step a).Inv := by
  obtain ⟨hsend, hkept, hnever, hcounted⟩ := h.sound
  cases a with
  | addEvents receivedAt events =>
    simp only [SendRace.step]
    split
    · rename_i hdrain
      exact ⟨⟨hsend, hkept, hnever, trivial⟩, fun _ => h.held (by rw [hdrain]; rfl)⟩
    · exact h
  | prune retentionDays now =>
    simp only [SendRace.step]
    split
    · exact ⟨⟨hsend, hkept, hnever, trivial⟩, fun hnot => by cases hnot⟩
    · exact h
  | drain => exact h.drainNext hc
  | addSent x =>
    simp only [SendRace.step]
    split
    · exact ⟨⟨trivial, hkept, hnever, hcounted⟩, h.held⟩
    · exact h
  | send now => exact h.sendNext now hc

end SendRace

end Rackphone
