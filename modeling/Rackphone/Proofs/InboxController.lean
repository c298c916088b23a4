import Rackphone.DeviceEvent
import Rackphone.InboxController
import Rackphone.Lib.Run
import Rackphone.Proofs.EventStore

/-!
# History and stream meet where the cursor is taken in order

A row that is among the newest of its kind was among them at every moment since it was stored, so
it is on every page taken after that. What the cursor hides is only what arrived between a page
and the cursor.
-/

namespace Rackphone

namespace RackUnit

variable (unit : RackUnit) {k : InboxKind} {r : Row}

theorem nodup_rowsOf (store : EventStore) (k : InboxKind) :
    ((unit.rowsOf store k).map Row.newestKey).Nodup :=
  store.nodup_newestKey.sublist (List.filter_sublist.map _)

theorem mem_newest {store : EventStore} :
    r ∈ unit.newest store k ↔ r ∈ unit.rowsOf store k
      ∧ Page.ahead Row.newestKey (unit.rowsOf store k) r < queryLimit :=
  Page.mem_top Row.newestKey (unit.nodup_rowsOf store k)

theorem rowsOf_subset (store : EventStore) (k : InboxKind) : unit.rowsOf store k ⊆ store.rows :=
  List.filter_sublist.subset

theorem rowsOf_subset_of_prefix {store store' : EventStore} (h : store.rows <+: store'.rows)
    (k : InboxKind) : unit.rowsOf store k ⊆ unit.rowsOf store' k :=
  (h.sublist.filter _).subset

theorem newest_of_prefix {store store' : EventStore} (h : store.rows <+: store'.rows)
    (hr : r ∈ unit.newest store' k) (hid : r.id ≤ store.latestEventId) :
    r ∈ unit.newest store k := by
  obtain ⟨hmem, hlt⟩ := unit.mem_newest.1 hr
  obtain ⟨hrow, hprop⟩ := List.mem_filter.1 hmem
  have hsub : (unit.rowsOf store k).Sublist (unit.rowsOf store' k) := h.sublist.filter _
  refine unit.mem_newest.2 ⟨List.mem_filter.2 ⟨EventStore.mem_of_id_le h hrow hid, hprop⟩, ?_⟩
  exact (Page.ahead_le_of_subperm _ hsub.subperm r).trans_lt hlt

theorem mem_permittedRows {store : EventStore} {page : List Row}
    (h : permittedRows store unit.config (some (gatewayKind k)) (some unit.name) none queryLimit
      = some page) : page ⊆ unit.rowsOf store k ∧ ∀ r ∈ unit.newest store k, r ∈ page := by
  unfold permittedRows at h
  simp only [] at h
  split_ifs at h with hcap
  obtain rfl := Option.some.inj h
  have hcap : capabilityFor (gatewayKind k) ∈ unit.config.capabilitiesFor unit.name := by
    simpa using hcap
  have hkind : gatewayKind k ≠ "" := by cases k <;> decide
  have hmatch : ∀ r, EventStore.Matches (some (gatewayKind k)) (some unit.name) none r
      ↔ r.unit = unit.name ∧ r.kind = gatewayKind k := by
    intro r
    simp [EventStore.Matches, hkind, unit.name_ne, and_comm]
  have hlimit : max 1 (min queryLimit MAX_QUERY_LIMIT) = queryLimit := by decide
  have hquery : store.queryEvents (some (gatewayKind k)) (some unit.name) none queryLimit
      = unit.newest store k := by
    rw [EventStore.queryEvents, hlimit, newest, rowsOf]
    simp only [hmatch]
  rw [hquery, readableRows]
  refine ⟨fun r hr => (unit.mem_newest.1 (List.mem_of_mem_filter hr)).1, fun r hr => ?_⟩
  obtain ⟨hu, hk⟩ : r.unit = unit.name ∧ r.kind = gatewayKind k := by
    simpa using (List.mem_filter.1 (unit.mem_newest.1 hr).1).2
  refine List.mem_filter.2 ⟨hr, ?_⟩
  simp only [Readable, Option.mem_def, Option.some.injEq, forall_eq', decide_eq_true_eq]
  rwa [hu, hk]

end RackUnit

/-! ## The list -/

section InboxEvent

variable {α κ : Type} [LinearOrder κ] [InboxEvent α κ] {k : InboxKind} {l : List α} {e e' : α}

theorem gatewayKind_of_kindOf (h : kindOf e = some k) : InboxEvent.kind e = gatewayKind k := by
  unfold kindOf at h
  split_ifs at h with h1 h2 h3 <;> obtain rfl := Option.some.inj h
  · exact h1
  · exact h2.1
  · exact h3

theorem unique_sublist (k : InboxKind) (l : List α) : (unique k l).Sublist l :=
  (Page.distinctFrom_sublist _ _ _).trans List.filter_sublist

theorem nodup_unique (k : InboxKind) (l : List α) :
    ((unique k l).map InboxEvent.id).Nodup :=
  (Page.nodup_distinctFrom _ _ _).1

theorem id_of_newestFirst (h : newestFirst e = newestFirst e') :
    InboxEvent.id e = InboxEvent.id e' := congrArg (fun k => (ofLex k).2) h

theorem nodup_newestFirst (h : (l.map InboxEvent.id).Nodup) : (l.map newestFirst).Nodup :=
  List.pairwise_map.2 ((List.pairwise_map.1 h).imp fun {_ _} hab heq => hab (id_of_newestFirst heq))

theorem mem_of_mem_boundedUnique (h : e ∈ boundedUnique k l) : e ∈ l ∧ kindOf e = some k := by
  have hmem := (Page.distinctFrom_sublist _ _ _).subset (Page.mem_of_mem_top _ h)
  exact ⟨List.mem_of_mem_filter hmem, by simpa using (List.mem_filter.1 hmem).2⟩

theorem nodup_boundedUnique (k : InboxKind) (l : List α) :
    ((boundedUnique k l).map InboxEvent.id).Nodup := by
  have hperm := (Page.descending_perm newestFirst (unique k l)).map InboxEvent.id
  exact (hperm.nodup_iff.2 (nodup_unique k l)).sublist ((List.take_sublist _ _).map _)

/-- What a merge shows, where events with the same id have the same time. -/
theorem map_boundedUnique (h : ∀ e ∈ l, ∀ e' ∈ l, InboxEvent.id e = InboxEvent.id e' →
      InboxEvent.occurredAt e = InboxEvent.occurredAt e') :
    (boundedUnique k l).map newestFirst = Page.newest maximumPerKind
      ((l.filter fun e => kindOf e = some k).map newestFirst).toFinset := by
  refine Page.map_top_distinct newestFirst InboxEvent.id (fun e he e' he' hid => ?_)
    fun e e' => id_of_newestFirst
  have htime := h e (List.mem_of_mem_filter he) e' (List.mem_of_mem_filter he') hid
  unfold newestFirst
  rw [htime, hid]

/-- A candidate that fewer events than the list holds are newer than stays in it. -/
theorem mem_boundedUnique
    (hinj : ∀ a ∈ l, ∀ b ∈ l, InboxEvent.id a = InboxEvent.id b → a = b) (he : e ∈ l)
    (hk : kindOf e = some k) (h : Page.ahead newestFirst (unique k l) e < maximumPerKind) :
    e ∈ boundedUnique k l := by
  refine (Page.mem_top newestFirst (nodup_newestFirst (nodup_unique k l))).2 ⟨?_, h⟩
  have hmem : e ∈ l.filter fun e => kindOf e = some k := List.mem_filter.2 ⟨he, by simpa using hk⟩
  obtain ⟨a, ha, hid⟩ := Page.exists_mem_distinctFrom InboxEvent.id hmem List.not_mem_nil
  exact hinj a ((unique_sublist k l).subset ha) e he hid ▸ ha

end InboxEvent

namespace InboxController

variable (unit : RackUnit) {s : InboxController}

/-- What a query knows: its page holds the newest rows there were when it was answered, the list
holds them once it is merged, and the cursor hides none that came later. -/
structure QueryInv (s : InboxController) (q : Query) : Prop where
  asOf_le : ∀ a ∈ q.asOf, a ≤ s.store.latestEventId
  page : ∀ page a, q.phase = .answered page a → page ⊆ unit.rowsOf s.store q.kind
    ∧ ∀ r ∈ unit.newest s.store q.kind, r.id ≤ a → r ∈ page
  merged : ∀ a, q.phase = .merged a → ∀ r ∈ unit.newest s.store q.kind, kindOf r = some q.kind →
    r.id ≤ a → r ∈ s.events q.kind
  cursor : ∀ c, s.stream = .opened c → s.streamLoad ≤ q.load → ∀ a ∈ q.asOf,
    ∀ r ∈ unit.newest s.store q.kind, kindOf r = some q.kind → r.id ≤ c → r.id ≤ a

structure Inv (s : InboxController) : Prop where
  events : ∀ k, s.events k ⊆ unit.rowsOf s.store k
  cursor_le : ∀ c, s.stream = .opened c → c ≤ s.store.latestEventId
  queries : ∀ q ∈ s.queries, QueryInv unit s q

theorem inv_start (store : EventStore) : Inv unit (start store) where
  events k := by simp [start]
  cursor_le c h := by simp [start] at h
  queries q h := by simp [start] at h

theorem Inv.insert (hI : Inv unit s) {store : EventStore} (h : s.store.rows <+: store.rows) :
    Inv unit { s with store } where
  events k := List.Subset.trans (hI.events k) (unit.rowsOf_subset_of_prefix h k)
  cursor_le c hc := (hI.cursor_le c hc).trans (EventStore.latestEventId_mono h)
  queries q hq := by
    have hQ := hI.queries q hq
    have hasOf : ∀ a ∈ q.asOf, ∀ r ∈ unit.newest store q.kind, r.id ≤ a →
        r ∈ unit.newest s.store q.kind := fun a ha r hr hid =>
      unit.newest_of_prefix h hr (hid.trans (hQ.asOf_le a ha))
    -- a newest row the query could have seen was among the newest before the store moved on
    refine ⟨fun a ha => (hQ.asOf_le a ha).trans (EventStore.latestEventId_mono h), ?_, ?_, ?_⟩
    · intro page a ha
      obtain ⟨hsub, hpage⟩ := hQ.page page a ha
      refine ⟨List.Subset.trans hsub (unit.rowsOf_subset_of_prefix h _), fun r hr hid =>
        hpage r (hasOf a ?_ r hr hid) hid⟩
      simp [Query.asOf, ha]
    · intro a ha r hr hk hid
      exact hQ.merged a ha r (hasOf a (by simp [Query.asOf, ha]) r hr hid) hk hid
    · intro c hc hload a ha r hr hk hid
      exact hQ.cursor c hc hload a ha r
        (unit.newest_of_prefix h hr (hid.trans (hI.cursor_le c hc))) hk hid

theorem queryInv_of_asOf {q : Query} (h : q.asOf = none) : QueryInv unit s q where
  asOf_le a ha := by simp [h] at ha
  page page a ha := by simp [Query.asOf, ha] at h
  merged a ha := by simp [Query.asOf, ha] at h
  cursor c hc hload a ha := by simp [h] at ha

theorem Inv.refresh (hI : Inv unit s) : Inv unit (s.step unit .refresh) where
  events := hI.events
  cursor_le c hc := by
    simp only [step] at hc
    split_ifs at hc
    exact hI.cursor_le c hc
  queries q hq := by
    rcases List.mem_append.1 hq with hq | hq
    · have hQ := hI.queries q hq
      refine ⟨hQ.asOf_le, hQ.page, hQ.merged, fun c hc hload => ?_⟩
      simp only [step] at hc hload
      split_ifs at hc hload with hdown
      exact hQ.cursor c hc hload
    · obtain ⟨k, -, rfl⟩ := List.mem_map.1 hq
      exact queryInv_of_asOf unit rfl

theorem Inv.takeCursor (hI : Inv unit s) (hreq : s.stream = .requested)
    (hc : s.InOrder unit .takeCursor) :
    Inv unit { s with stream := .opened s.store.latestEventId } where
  events := hI.events
  cursor_le c h := (StreamPhase.opened.inj h).ge
  queries q hq := by
    have hQ := hI.queries q hq
    exact ⟨hQ.asOf_le, hQ.page, hQ.merged, fun c _ hload a ha r hr hk _ =>
      hc hreq q hq hload a ha r hr hk⟩

theorem Inv.drop (hI : Inv unit s) : Inv unit { s with stream := .down } where
  events := hI.events
  cursor_le c h := by simp at h
  queries q hq := by
    have hQ := hI.queries q hq
    exact ⟨hQ.asOf_le, hQ.page, hQ.merged, fun c h => by simp at h⟩

theorem Inv.setPhase (hI : Inv unit s) {i : ℕ} {q : Query} {phase : QueryPhase}
    (hq : QueryInv unit s { q with phase }) : Inv unit (s.setPhase i q phase) where
  events := hI.events
  cursor_le := hI.cursor_le
  queries q' hq' := by
    rcases List.mem_or_eq_of_mem_set hq' with hq' | rfl
    · obtain ⟨h1, h2, h3, h4⟩ := hI.queries q' hq'
      exact ⟨h1, h2, h3, h4⟩
    · obtain ⟨h1, h2, h3, h4⟩ := hq
      exact ⟨h1, h2, h3, h4⟩

theorem eq_of_id {k : InboxKind} {l : List Row} (h : l ⊆ unit.rowsOf s.store k) :
    ∀ a ∈ l, ∀ b ∈ l, a.id = b.id → a = b :=
  fun _ ha _ hb => EventStore.eq_of_id (unit.rowsOf_subset _ _ (h ha))
    (unit.rowsOf_subset _ _ (h hb))

theorem Inv.setEvents (hI : Inv unit s) {k : InboxKind} {l : List Row}
    (hl : l ⊆ unit.rowsOf s.store k) (hsub : s.events k ⊆ l) (hkeep : s.KeepsNewest unit k l) :
    Inv unit (s.setEvents k l) where
  events k' := by
    simp only [InboxController.setEvents]
    split_ifs
    · rename_i hk
      rw [hk]
      exact fun r hr => hl (mem_of_mem_boundedUnique hr).1
    · exact hI.events k'
  cursor_le := hI.cursor_le
  queries q hq := by
    have hQ := hI.queries q hq
    refine ⟨hQ.asOf_le, hQ.page, fun a ha r hr hk hid => ?_, hQ.cursor⟩
    have hold := hQ.merged a ha r hr hk hid
    simp only [InboxController.setEvents]
    split_ifs with h
    · obtain rfl := h
      exact mem_boundedUnique (eq_of_id unit hl) (hsub hold) hk (hkeep r hr (hsub hold) hk)
    · exact hold

theorem Inv.deliver (hI : Inv unit s) {i : ℕ} (hc : s.InOrder unit (.deliver i)) :
    Inv unit (s.step unit (.deliver i)) := by
  rcases h : s.delivered unit i with _ | ⟨r, k⟩
  · simpa only [step, h] using hI
  simp only [step, h]
  have hr : r ∈ unit.rowsOf s.store k := by
    unfold delivered at h
    split at h
    · rename_i r' _ hi
      split_ifs at h with hu
      rcases hk : kindOf r' with _ | k' <;> simp only [hk] at h
      · exact absurd h (by simp)
      · split_ifs at h
        obtain ⟨rfl, rfl⟩ := Prod.mk.inj (Option.some.inj h)
        refine List.mem_filter.2 ⟨List.mem_of_getElem? hi, ?_⟩
        simpa using ⟨hu.2, gatewayKind_of_kindOf hk⟩
    · exact absurd h (by simp)
  exact hI.setEvents unit (List.cons_subset.2 ⟨hr, hI.events k⟩) (List.subset_cons_self _ _)
    (hc (r, k) h)

theorem Inv.answer (hI : Inv unit s) (i : ℕ) : Inv unit (s.step unit (.answer i)) := by
  rcases hq : s.queries[i]? with _ | q
  · simpa only [step, hq] using hI
  by_cases hsent : q.phase = .sent
  · simp only [step, hq, if_pos hsent]
    rcases hp : permittedRows s.store unit.config (some (gatewayKind q.kind)) (some unit.name) none
      queryLimit with _ | page
    · exact hI.setPhase unit (queryInv_of_asOf unit rfl)
    · obtain ⟨hsub, hpage⟩ := unit.mem_permittedRows hp
      refine hI.setPhase unit ⟨fun a ha => ?_, fun page' a h => ?_, fun a h => ?_, ?_⟩
      · exact (Option.some.inj ha).ge
      · obtain ⟨rfl, -⟩ := QueryPhase.answered.inj h
        exact ⟨hsub, fun r hr _ => hpage r hr⟩
      · exact absurd h (by simp)
      · intro c hc _ a ha r hr _ hid
        obtain rfl := Option.some.inj ha
        exact hid.trans (hI.cursor_le c hc)
  · simpa only [step, hq, if_neg hsent] using hI

theorem Inv.merge (hI : Inv unit s) {i : ℕ} (hc : s.InOrder unit (.merge i)) :
    Inv unit (s.step unit (.merge i)) := by
  rcases hq : s.queries[i]? with _ | q
  · simpa only [step, hq] using hI
  rcases hp : q.phase with _ | ⟨page, a⟩ | a | _
  case answered =>
    simp only [step, hq, hp]
    have hQ := hI.queries q (List.mem_of_getElem? hq)
    obtain ⟨hsub, hpage⟩ := hQ.page page a hp
    have hl : s.events q.kind ++ page ⊆ unit.rowsOf s.store q.kind :=
      List.append_subset.2 ⟨hI.events _, hsub⟩
    have hkeep := hc q hq page (by simp [Query.page, hp])
    have hI' := hI.setEvents unit hl (List.subset_append_left _ _) hkeep
    have hasOf : q.asOf = some a := by simp [Query.asOf, hp]
    refine hI'.setPhase unit ⟨fun b hb => ?_, fun page' b h => ?_, fun b h => ?_, ?_⟩
    · exact hQ.asOf_le b (by rw [hasOf]; exact hb)
    · exact absurd h (by simp)
    · obtain rfl := QueryPhase.merged.inj h
      intro r hr hk hid
      have hmem : r ∈ s.events q.kind ++ page := List.mem_append_right _ (hpage r hr hid)
      simp only [InboxController.setEvents, if_true]
      exact mem_boundedUnique (eq_of_id unit hl) hmem hk (hkeep r hr hmem hk)
    · intro c hc' hload b hb
      exact hQ.cursor c hc' hload b (by rw [hasOf]; exact hb)
  all_goals simpa only [step, hq, hp] using hI

theorem Inv.step (hI : Inv unit s) (a : Action) (hc : s.InOrder unit a) :
    Inv unit (s.step unit a) := by
  cases a with
  | insert receivedAt events => exact hI.insert unit (EventStore.rows_prefix_addEvents _ _ _)
  | refresh => exact hI.refresh
  | takeCursor =>
    simp only [InboxController.step]
    split_ifs with hreq
    · exact hI.takeCursor unit hreq hc
    · exact hI
  | deliver i => exact hI.deliver unit hc
  | drop => exact hI.drop
  | answer i => exact hI.answer unit i
  | merge i => exact hI.merge unit hc
  | fail i =>
    simp only [InboxController.step]
    split
    · exact hI.setPhase unit (queryInv_of_asOf unit rfl)
    · exact hI

theorem Inv.noGap (hI : Inv unit s) : s.NoGap unit := by
  intro c hc n _ hload hn k hoff r hr hk
  obtain ⟨q, hq, rfl, rfl, hmerged⟩ := hn k hoff
  have hQ := hI.queries q hq
  rcases hp : q.phase with _ | _ | a | _ <;> simp only [Query.isMerged, hp] at hmerged
  case merged =>
    rcases le_or_gt r.id c with hle | hlt
    · have hid := hQ.cursor c hc hload a (by simp [Query.asOf, hp]) r hr hk hle
      exact .inl (hQ.merged a hp r hr hk hid)
    · exact .inr hlt
  all_goals exact absurd hmerged (by decide)

/-- In a run that takes every cursor in order, history and stream leave no gap at any moment. -/
theorem always_noGap (store : EventStore) (as : List Action)
    (h : Run.Meets (step unit) (fun s => s.InOrder unit) (start store) as) :
    Run.Always (step unit) (fun s => s.NoGap unit) (start store) as :=
  Run.always_of_meets (I := Inv unit) (fun _ hI => hI.noGap) (fun _ a hI hc => hI.step unit a hc) as
    (inv_start unit store) h

/-- Where every row of the kind has its device time, the client orders the rows as the store does,
so no list of them is long enough to push one of the newest off. -/
theorem keepsNewest_of_timed {k : InboxKind} {l : List Row} (hl : l ⊆ unit.rowsOf s.store k)
    (htime : ∀ r ∈ unit.rowsOf s.store k, r.timestamp ≠ none) : s.KeepsNewest unit k l := by
  intro r hr _ _
  obtain ⟨hrow, hlt⟩ := unit.mem_newest.1 hr
  have hnodup : (unique k l).Nodup := (nodup_unique k l).of_map _
  have hsub : unique k l ⊆ unit.rowsOf s.store k := fun a ha =>
    hl ((unique_sublist k l).subset ha)
  have horder : ∀ a ∈ unit.rowsOf s.store k, newestFirst r < newestFirst a →
      r.newestKey < a.newestKey := by
    intro a ha h
    obtain ⟨t, ht⟩ := Option.ne_none_iff_exists'.1 (htime r hrow)
    obtain ⟨u, hu⟩ := Option.ne_none_iff_exists'.1 (htime a ha)
    simp only [newestFirst, InboxEvent.occurredAt, InboxEvent.id, occurredAt, ht, hu,
      Option.getD_some, Prod.Lex.toLex_lt_toLex] at h
    simp only [Row.newestKey, ht, hu, Prod.Lex.toLex_lt_toLex]
    exact h.imp (fun h => WithBot.coe_lt_coe.2 h) fun h => ⟨congrArg some h.1, h.2⟩
  calc Page.ahead newestFirst (unique k l) r
      ≤ Page.ahead newestFirst (unit.rowsOf s.store k) r :=
        Page.ahead_le_of_subperm _ (hnodup.subperm hsub) r
    _ ≤ Page.ahead Row.newestKey (unit.rowsOf s.store k) r :=
        List.countP_mono_left fun a ha h => by
          simp only [decide_eq_true_eq] at h ⊢
          exact horder a ha h
    _ < maximumPerKind := hlt.trans_le (by decide)

def lisa : RackUnit := ⟨"lisa01", by decide, ⟨fun _ => none⟩⟩

def oneMessage : List Event :=
  [(Spooled.mk 1700000000 (.sms "+15550100" 1700000000000 0 none)).toEvent "lisa01"]

/-- A reconnect whose cursor is taken before the queries are answered, with a message before the
cursor and one after it. -/
theorem always_noGap_reconnect :
    Run.Always (step lisa) (fun s => s.NoGap lisa) (start .empty)
      [.refresh, .insert 1700000001 oneMessage, .takeCursor, .answer 0, .answer 1, .answer 2,
        .merge 0, .merge 1, .merge 2] :=
  always_noGap lisa .empty _ (by decide +kernel)

/-- The gateway answers the three queries, stores a message and takes the cursor then. -/
def lateCursor : List Action :=
  [.refresh, .answer 0, .answer 1, .answer 2, .insert 1700000001 oneMessage, .takeCursor,
    .merge 0, .merge 1, .merge 2]

theorem lateCursor_hides :
    ¬ ∀ (unit : RackUnit) (store : EventStore) (as : List Action),
      Run.Always (step unit) (fun s => s.NoGap unit) (start store) as := by
  intro h
  have hfinal := (h lisa .empty lateCursor).final
  have hgap := hfinal 1 (by decide) 0 (by decide) (by decide) (by decide) .messages (by decide)
  have hmissed : ∃ r ∈ lisa.newest (Run.final (step lisa) (start .empty) lateCursor).store
      .messages, kindOf r = some .messages
        ∧ r ∉ (Run.final (step lisa) (start .empty) lateCursor).events .messages ∧ r.id ≤ 1 := by
    decide +kernel
  obtain ⟨r, hr, hk, hout, hid⟩ := hmissed
  rcases hgap r hr hk with h | h
  · exact hout h
  · omega

end InboxController

end Rackphone
