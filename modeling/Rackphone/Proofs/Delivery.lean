import Rackphone.Delivery
import Rackphone.Lib.Run
import Rackphone.Proofs.EventStore

/-!
# Delivery loses what a stray ack deletes

Every recorded event is in one place: a file, the list of what the spool removed, or a batch that
went in flight and was deleted. Only an ack deletes a batch, and it names none, so nothing is lost
as long as each ack that takes effect finds a batch some pass has committed, and only so long.
-/

namespace Rackphone

namespace Inbox

theorem count_append (b : Inbox) (cap : ℕ+) (x y : Spooled) :
    (b.append cap x).held.count y + (b.trimmed cap x).count y = b.held.count y + [x].count y := by
  have h : (b.trimmed cap x).count y + ((b.append cap x).spool.getD []).count y
      = (b.spool.getD []).count y + [x].count y := by
    rw [trimmed, append, Option.getD_some, ← List.count_append, List.take_append_drop, appended,
      List.count_append]
  have hc : (b.append cap x).cat = b.cat := rfl
  simp only [held, List.count_append, hc]
  omega

theorem held_drain (b : Inbox) : b.drain.held.Perm b.held := by
  unfold drain
  split
  · exact .refl _
  · rename_i h
    simp [held, cat, h]

end Inbox

namespace Delivery

variable {unit : String} {s : Delivery}

/-- What the history says of the state. The counts say that a recorded event is in one place. -/
structure Inv (unit : String) (s : Delivery) : Prop where
  ids : ((s.assigned ++ s.recorded).map Spooled.id).Nodup
  ids_le : ∀ x ∈ s.assigned ++ s.recorded, x.id ≤ s.inbox.sequence
  fates : ∀ x, (s.inbox.held ++ s.removed).count x ≤ s.recorded.count x
  turns : ∀ x, (s.inbox.spool.getD [] ++ s.rotated.flatten).count x ≤ s.recorded.count x
  inflight : ∀ b, s.inbox.inflight = some b → b ∈ s.rotated
  read : ∀ b, s.phase = .read b → b ∈ s.rotated
  committed : ∀ b ∈ s.committed, b ∈ s.rotated
  stored : ∀ r ∈ s.store.rows, r.unit = unit →
    ∃ b ∈ s.committed, ∃ x ∈ b, r.toEvent = x.toEvent unit
  kept : ∀ b ∈ s.committed, ∀ x ∈ b, Committed unit s x

namespace Inv

theorem recorded_nodup (hI : Inv unit s) : s.recorded.Nodup := by
  have h := hI.ids
  rw [List.map_append, List.nodup_append] at h
  exact List.Nodup.of_map _ h.2.1

theorem mem_recorded (hI : Inv unit s) {b : List Spooled} (hb : b ∈ s.rotated) {x : Spooled}
    (hx : x ∈ b) : x ∈ s.recorded := by
  have h : 0 < (s.inbox.spool.getD [] ++ s.rotated.flatten).count x :=
    List.count_pos_iff.2 (List.mem_append_right _ (List.mem_flatten.2 ⟨b, hb, hx⟩))
  exact List.count_pos_iff.1 (h.trans_le (hI.turns x))

theorem eq_of_id (hI : Inv unit s) {x y : Spooled} (hx : x ∈ s.recorded) (hy : y ∈ s.recorded)
    (h : x.id = y.id) : x = y := by
  have hn := hI.ids
  rw [List.map_append, List.nodup_append] at hn
  exact List.inj_on_of_nodup_map hn.2.1 hx hy h

theorem eq_of_toEvent (hI : Inv unit s) {x y : Spooled} (hx : x ∈ s.recorded)
    (hy : y ∈ s.recorded) (h : x.toEvent unit = y.toEvent unit) : x = y :=
  hI.eq_of_id hx hy (Int.ofNat.inj (congrArg Event.sourceId h))

/-- Two batches that share an event are the same. -/
theorem eq_of_mem (hI : Inv unit s) {b b' : List Spooled} (hb : b ∈ s.rotated)
    (hb' : b' ∈ s.rotated) {x : Spooled} (hx : x ∈ b) (hx' : x ∈ b') : b = b' := by
  have hn : s.rotated.flatten.Nodup := List.nodup_iff_count_le_one.2 fun y => by
    have h1 := hI.turns y
    have h2 := List.nodup_iff_count_le_one.1 hI.recorded_nodup y
    rw [List.count_append] at h1
    omega
  have : Std.Symm (List.Disjoint (α := Spooled)) := ⟨fun _ _ h _ hx hx' => h hx' hx⟩
  by_contra hne
  exact (List.nodup_flatten.1 hn).2.forall hb hb' hne hx hx'

end Inv

theorem inv_start : Inv unit start where
  ids := by simp [start]
  ids_le := by simp [start]
  fates := by simp [start, Inbox.fresh, Inbox.held, Inbox.cat]
  turns := by simp [start, Inbox.fresh]
  inflight := by simp [start, Inbox.fresh]
  read := by simp [start]
  committed := by simp [start]
  stored := by simp [start, EventStore.empty]
  kept := by simp [start]

theorem Inv.assign (hI : Inv unit s) (e : DeviceEvent) (seconds : ℕ) :
    Inv unit (step unit s (.assign e seconds)) := by
  have hlt : s.inbox.sequence < s.inbox.nextId seconds := by
    unfold Inbox.nextId
    omega
  set x : Spooled := ⟨s.inbox.nextId seconds, e⟩
  have hp : (s.assigned ++ [x] ++ s.recorded).Perm (x :: (s.assigned ++ s.recorded)) := by
    rw [List.append_assoc]
    exact List.perm_middle
  refine { hI with ids := ?_, ids_le := ?_ }
  · refine ((hp.map Spooled.id).nodup_iff).2 (List.nodup_cons.2 ⟨fun h => ?_, hI.ids⟩)
    obtain ⟨y, hy, hid⟩ := List.mem_map.1 h
    have := hI.ids_le y hy
    have : x.id = s.inbox.nextId seconds := rfl
    omega
  · intro y hy
    rcases List.mem_cons.1 (hp.subset hy) with rfl | hy
    · exact le_refl _
    · exact (hI.ids_le y hy).trans hlt.le

theorem Inv.append (hI : Inv unit s) (i : ℕ) (cap : ℕ+) :
    Inv unit (step unit s (.append i cap)) := by
  rcases hx : s.assigned[i]? with _ | x
  · simpa only [step, hx] using hI
  have hp : (s.assigned.eraseIdx i ++ (s.recorded ++ [x])).Perm (s.assigned ++ s.recorded) := by
    obtain ⟨hi, rfl⟩ := List.getElem?_eq_some_iff.1 hx
    have hc := List.getElem_cons_eraseIdx_perm hi
    rw [← List.append_assoc]
    exact List.perm_append_comm.trans (hc.append_right s.recorded)
  simp only [step, hx]
  refine { hI with ids := ?_, ids_le := ?_, fates := ?_, turns := ?_ }
  · exact ((hp.map Spooled.id).nodup_iff).2 hI.ids
  · exact fun y hy => hI.ids_le y (hp.subset hy)
  · intro y
    have h1 := hI.fates y
    have h2 := s.inbox.count_append cap x y
    simp only [List.count_append] at h1 ⊢
    omega
  · intro y
    have h1 := hI.turns y
    have h2 := s.inbox.count_append cap x y
    have hc : (s.inbox.append cap x).cat = s.inbox.cat := rfl
    simp only [List.count_append, Inbox.held, hc] at h1 h2 ⊢
    omega

theorem Inv.reset (hI : Inv unit s) : Inv unit (step unit s .reset) where
  __ := hI
  fates := fun x => by
    have h := hI.fates x
    simp only [step, Inbox.reset, Inbox.held, Inbox.cat, List.count_append, Option.getD_none,
      List.count_nil] at h ⊢
    omega
  turns := fun x => by
    have h := hI.turns x
    simp only [step, Inbox.reset, List.count_append, Option.getD_none, List.count_nil] at h ⊢
    omega
  inflight := fun b h => by simp [step, Inbox.reset] at h

theorem Inv.rotate (hI : Inv unit s) : Inv unit s.rotate := by
  unfold Delivery.rotate
  rcases h : s.inbox.inflight with _ | b
  · refine { hI with
      ids_le := fun x hx => ?_, fates := fun x => ?_, turns := fun x => ?_
      inflight := fun b hb => ?_, read := fun b hb => ?_, committed := fun b hb => ?_ }
    · simpa [Inbox.drain, h] using hI.ids_le x hx
    · have hf := hI.fates x
      have hp := s.inbox.held_drain.count_eq x
      simp only [List.count_append] at hf ⊢
      omega
    · have ht := hI.turns x
      rcases hs : s.inbox.spool with _ | b <;>
        simp only [Inbox.drain, h, hs, List.count_append, Option.getD_none, Option.getD_some,
          List.count_nil, Option.toList_none, Option.toList_some, List.append_nil,
          List.flatten_append, List.flatten_singleton] at ht ⊢
      · exact ht
      · omega
    · have hb' : s.inbox.spool = some b := by simpa [Inbox.drain, h] using hb
      simp [hb']
    · exact List.mem_append_left _ (hI.read b hb)
    · exact List.mem_append_left _ (hI.committed b hb)
  · have hd : s.inbox.drain = s.inbox := by simp [Inbox.drain, h]
    rw [hd]
    exact { hI with }

theorem Inv.confirm (hI : Inv unit s) : Inv unit s.confirm where
  __ := hI
  fates := fun x => by
    have h := hI.fates x
    simp only [Delivery.confirm, Inbox.ack, Inbox.held, Inbox.cat, List.count_append,
      Option.getD_none, List.count_nil] at h ⊢
    omega
  inflight := fun b h => by simp [Delivery.confirm, Inbox.ack] at h

theorem Inv.setPhase (hI : Inv unit s) {p : Phase} (hp : ∀ b, p = .read b → b ∈ s.rotated) :
    Inv unit { s with phase := p } :=
  { hI with read := hp }

theorem Inv.setLate (hI : Inv unit s) (m n : ℕ) :
    Inv unit { s with lateDrains := m, lateAcks := n } :=
  { hI with }

theorem Committed.mono {store : EventStore} {x : Spooled} (h : Committed unit s x)
    (hs : s.store.rows <+: store.rows) : Committed unit { s with store := store } x := by
  obtain ⟨r, hr, he⟩ := h
  exact ⟨r, hs.subset hr, he⟩

/-- Committing a batch that went in flight puts every event of it in the store. -/
theorem committed_addEvents (hI : Inv unit s) {b : List Spooled} (hb : b ∈ s.rotated) (t : ℤ)
    {x : Spooled} (hx : x ∈ b) :
    ∃ r ∈ (s.store.addEvents t (b.map (Spooled.toEvent unit))).1.rows,
      r.toEvent = x.toEvent unit := by
  have hk := EventStore.key_mem_addEvents (s := s.store) (t := t)
    (List.mem_map_of_mem (f := Spooled.toEvent unit) hx)
  obtain ⟨r, hr, hkey⟩ := EventStore.mem_keys.1 hk
  have hxr := hI.mem_recorded hb hx
  have hsame : ∃ y ∈ s.recorded, r.toEvent = y.toEvent unit := by
    rcases EventStore.mem_addEvents hr with h | ⟨h, -, -⟩
    · obtain ⟨b', hb', y, hy, he⟩ := hI.stored r h (congrArg Prod.fst hkey)
      exact ⟨y, hI.mem_recorded (hI.committed b' hb') hy, he⟩
    · obtain ⟨y, hy, he⟩ := List.mem_map.1 h
      exact ⟨y, hI.mem_recorded hb hy, he.symm⟩
  obtain ⟨y, hy, he⟩ := hsame
  have hid : y.id = x.id := by
    have h : r.toEvent.sourceId = (x.toEvent unit).sourceId := congrArg (fun k => k.2.2) hkey
    rw [he] at h
    exact Int.ofNat.inj h
  exact ⟨r, hr, by rw [he, hI.eq_of_id hy hxr hid]⟩

theorem Inv.commit (hI : Inv unit s) (t : ℤ) : Inv unit (step unit s (.commit t)) := by
  rcases hp : s.phase with _ | _ | b | _
  case read =>
    have hb := hI.read b hp
    simp only [step, hp]
    refine { hI with
      read := by simp, committed := fun b' hb' => ?_, stored := fun r hr hu => ?_
      kept := fun b' hb' x hx => ?_ }
    · rcases List.mem_append.1 hb' with hb' | hb'
      · exact hI.committed b' hb'
      · exact List.mem_singleton.1 hb' ▸ hb
    · rcases EventStore.mem_addEvents hr with h | ⟨h, -, -⟩
      · obtain ⟨b', hb', hx⟩ := hI.stored r h hu
        exact ⟨b', List.mem_append_left _ hb', hx⟩
      · obtain ⟨x, hx, he⟩ := List.mem_map.1 h
        exact ⟨b, by simp, x, hx, he.symm⟩
    · rcases List.mem_append.1 hb' with hb' | hb'
      · exact (hI.kept b' hb' x hx).mono (EventStore.rows_prefix_addEvents _ _ _)
      · exact committed_addEvents hI hb t (List.mem_singleton.1 hb' ▸ hx)
  all_goals simpa only [step, hp] using hI

theorem Inv.elsewhere (hI : Inv unit s) (t : ℤ) (es : List Event) :
    Inv unit (step unit s (.elsewhere t es)) where
  __ := hI
  stored := fun r hr hu => by
    rcases EventStore.mem_addEvents hr with h | ⟨h, -, -⟩
    · exact hI.stored r h hu
    · exact absurd hu (by simpa using (List.mem_filter.1 h).2)
  kept := fun b hb x hx => (hI.kept b hb x hx).mono (EventStore.rows_prefix_addEvents _ _ _)

theorem Inv.issueDrain (hI : Inv unit s) : ∀ effect, Inv unit (s.issueDrain effect)
  | .now => hI.rotate
  | .late => hI.setLate _ _

theorem Inv.issueAck (hI : Inv unit s) : ∀ effect, Inv unit (s.issueAck effect)
  | .now => hI.confirm
  | .late => hI.setLate _ _

theorem Inv.step (hI : Inv unit s) (a : Action) : Inv unit (step unit s a) := by
  cases a with
  | assign e seconds => exact hI.assign e seconds
  | append i cap => exact hI.append i cap
  | reset => exact hI.reset
  | drain effect answered =>
    by_cases hp : s.phase = .idle
    · simp only [Delivery.step, if_pos hp]
      exact (hI.issueDrain effect).setPhase fun b hb => by cases answered <;> simp at hb
    · simpa only [Delivery.step, if_neg hp] using hI
  | read answered =>
    simp only [Delivery.step]
    split_ifs with h1 h2
    · refine hI.setPhase fun b hb => hI.inflight b ?_
      obtain rfl := Phase.read.inj hb
      rcases h : s.inbox.inflight with _ | b
      · simp [Inbox.cat, h] at h2
      · simp [Inbox.cat, h]
    · exact hI.setPhase (by simp)
    · exact hI
  | commit t => exact hI.commit t
  | ack effect =>
    simp only [Delivery.step]
    split_ifs
    · exact (hI.issueAck effect).setPhase (by simp)
    · exact hI
  | crash => exact hI.setPhase (by simp)
  | lateDrain =>
    simp only [Delivery.step]
    split_ifs
    · exact hI.rotate.setLate _ _
    · exact hI
  | lateAck =>
    simp only [Delivery.step]
    split_ifs
    · exact hI.confirm.setLate _ _
    · exact hI
  | elsewhere t es => exact hI.elsewhere t es

theorem NoLoss.mono {s' : Delivery} (h : NoLoss unit s) (hrec : s'.recorded ⊆ s.recorded)
    (hrem : s.removed ⊆ s'.removed) (hheld : s.inbox.held ⊆ s'.inbox.held)
    (hrows : s.store.rows ⊆ s'.store.rows) : NoLoss unit s' := by
  intro x hx
  rcases h x (hrec hx) with h | h | ⟨r, hr, he⟩
  · exact .inl (hrem h)
  · exact .inr (.inl (hheld h))
  · exact .inr (.inr ⟨r, hrows hr, he⟩)

theorem NoLoss.append (h : NoLoss unit s) (i : ℕ) (cap : ℕ+) :
    NoLoss unit (step unit s (.append i cap)) := by
  rcases hx : s.assigned[i]? with _ | x
  · simpa only [step, hx] using h
  simp only [step, hx]
  have hmem : ∀ y, y ∈ s.inbox.held ∨ y = x →
      y ∈ (s.inbox.append cap x).held ∨ y ∈ s.inbox.trimmed cap x := by
    intro y hy
    have hc := s.inbox.count_append cap x y
    have : 0 < s.inbox.held.count y + [x].count y := by
      rcases hy with hy | rfl
      · exact Nat.add_pos_left (List.count_pos_iff.2 hy) _
      · simp
    simp only [← List.count_pos_iff]
    omega
  intro y hy
  rcases List.mem_append.1 hy with hy | hy
  · rcases h y hy with h | h | h
    · exact .inl (List.mem_append_left _ h)
    · rcases hmem y (.inl h) with h | h
      · exact .inr (.inl h)
      · exact .inl (List.mem_append_right _ h)
    · exact .inr (.inr h)
  · rcases hmem y (.inr (List.mem_singleton.1 hy)) with h | h
    · exact .inr (.inl h)
    · exact .inl (List.mem_append_right _ h)

theorem NoLoss.rotate (h : NoLoss unit s) : NoLoss unit s.rotate :=
  h.mono (List.Subset.refl _) (List.Subset.refl _) s.inbox.held_drain.symm.subset
    (List.Subset.refl _)

/-- An ack that finds a committed batch deletes nothing the store does not have. -/
theorem NoLoss.confirm (hI : Inv unit s) (h : NoLoss unit s)
    (hb : ∀ b, s.inbox.inflight = some b → b ∈ s.committed) : NoLoss unit s.confirm := by
  intro x hx
  rcases h x hx with h | h | h
  · exact .inl h
  · rcases List.mem_append.1 h with h | h
    · exact .inr (.inl (List.mem_append_left _ h))
    · rcases hf : s.inbox.inflight with _ | b
      · simp [Inbox.cat, hf] at h
      · simp only [Inbox.cat, hf, Option.getD_some] at h
        exact .inr (.inr (hI.kept b (hb b hf) x h))
  · exact .inr (.inr h)

/-- An ack that finds a batch no pass has committed loses every event of it. -/
theorem not_noLoss_confirm (hI : Inv unit s) {b : List Spooled} (hf : s.inbox.inflight = some b)
    (hb : b ∉ s.committed) : ¬ NoLoss unit s.confirm := by
  obtain ⟨x, hx⟩ := List.exists_mem_of_ne_nil b fun h => s.inbox.inflight_ne (h ▸ hf)
  have hrot := hI.inflight b hf
  have hrec := hI.mem_recorded hrot hx
  have hcat : s.inbox.cat = b := by simp [Inbox.cat, hf]
  have hone := hI.fates x
  have := List.nodup_iff_count_le_one.1 hI.recorded_nodup x
  have := List.count_pos_iff.2 hx
  rw [Inbox.held, hcat, List.count_append, List.count_append] at hone
  intro h
  -- the event was recorded once and is in the in-flight file, so it is in no other place
  rcases h x hrec with h | h | ⟨r, hr, he⟩
  · have := List.count_pos_iff.2 h
    have hs : s.confirm.removed = s.removed := rfl
    rw [hs] at this
    omega
  · have hs : s.confirm.inbox.held = s.inbox.spool.getD [] := List.append_nil _
    have := List.count_pos_iff.2 h
    rw [hs] at this
    omega
  · obtain ⟨b', hb', y, hy, he'⟩ := hI.stored r hr (congrArg Event.unit he)
    have hrot' := hI.committed b' hb'
    have hxy := hI.eq_of_toEvent hrec (hI.mem_recorded hrot' hy) (he.symm.trans he')
    exact hb (hI.eq_of_mem hrot hrot' hx (hxy ▸ hy) ▸ hb')

theorem NoLoss.step (hI : Inv unit s) (h : NoLoss unit s) {a : Action} (hc : AckSafe s a) :
    NoLoss unit (step unit s a) := by
  cases a with
  | assign e seconds => exact h
  | append i cap => exact h.append i cap
  | reset =>
    intro x hx
    rcases h x hx with h | h | h
    · exact .inl (List.mem_append_left _ h)
    · exact .inl (List.mem_append_right _ h)
    · exact .inr (.inr h)
  | drain effect answered =>
    by_cases hp : s.phase = .idle
    · simp only [Delivery.step, if_pos hp]
      cases effect with
      | now =>
        have := h.rotate
        exact this
      | late => exact h
    · simpa only [Delivery.step, if_neg hp] using h
  | read answered =>
    simp only [Delivery.step]
    split_ifs <;> exact h
  | commit t =>
    rcases hp : s.phase with _ | _ | b | _ <;> simp only [Delivery.step, hp]
    case read =>
      exact h.mono (List.Subset.refl _) (List.Subset.refl _) (List.Subset.refl _)
        (EventStore.rows_prefix_addEvents _ _ _).subset
    all_goals exact h
  | ack effect =>
    simp only [Delivery.step]
    split_ifs with hp
    · cases effect with
      | now =>
        have := h.confirm hI (hc hp)
        exact this
      | late => exact h
    · exact h
  | crash => exact h
  | lateDrain =>
    simp only [Delivery.step]
    split_ifs
    · exact h.rotate
    · exact h
  | lateAck =>
    simp only [Delivery.step]
    split_ifs with hp
    · have := h.confirm hI (hc hp)
      exact this
    · exact h
  | elsewhere t es =>
    exact h.mono (List.Subset.refl _) (List.Subset.refl _) (List.Subset.refl _)
      (EventStore.rows_prefix_addEvents _ _ _).subset

theorem not_noLoss_step (hI : Inv unit s) {a : Action} (hc : ¬ AckSafe s a) :
    ¬ NoLoss unit (step unit s a) := by
  unfold AckSafe at hc
  push Not at hc
  obtain ⟨ha, b, hf, hb⟩ := hc
  cases a with
  | ack effect =>
    cases effect with
    | now =>
      simp only [Delivery.step, if_pos (show s.phase = .stored from ha)]
      have := not_noLoss_confirm hI hf hb
      exact this
    | late => exact ha.elim
  | lateAck =>
    simp only [Delivery.step, if_pos (show 0 < s.lateAcks from ha)]
    have := not_noLoss_confirm hI hf hb
    exact this
  | _ => exact ha.elim

/-- A run loses nothing at any moment exactly when every ack that takes effect in it finds no
in-flight file, or a batch some pass has read back and committed. -/
theorem always_noLoss_iff_ackSafe (unit : String) (as : List Action) :
    Run.Always (step unit) (NoLoss unit) start as ↔ Run.Meets (step unit) AckSafe start as := by
  constructor
  · exact Run.meets_of_always (I := Inv unit) (fun _ a hI _ => hI.step a)
      (fun _ _ hI => not_noLoss_step hI) as inv_start
  · exact Run.always_of_meets (I := fun s => Inv unit s ∧ NoLoss unit s) (fun _ h => h.2)
      (fun _ a h hc => ⟨h.1.step a, h.2.step h.1 hc⟩) as ⟨inv_start, by simp [NoLoss, start]⟩

/-- A pass commits a batch and its ack times out; the next pass takes the same batch again and its
ack deletes it. The first ack takes effect when a second batch is in flight. -/
def strayAck : List Action :=
  [.assign (.sms "+15550100" 1700000000000 0 (some "first")) 1700000000,
    .append 0 DEFAULT_INBOX_CAP, .drain .now true, .read true, .commit 1700000001, .ack .late,
    .drain .now true, .read true, .commit 1700000031, .ack .now,
    .assign (.sms "+15550100" 1700000040000 0 (some "second")) 1700000040,
    .append 0 DEFAULT_INBOX_CAP, .drain .now true, .lateAck]

theorem strayAck_loses :
    ¬ ∀ (unit : String) (as : List Action), Run.Always (step unit) (NoLoss unit) start as := by
  intro h
  have : ¬ Run.Always (step "lisa01") (NoLoss "lisa01") start strayAck := by
    decide +kernel
  exact this (h "lisa01" strayAck)

end Delivery

end Rackphone
