import Rackphone.EventIds

/-!
# When device ids are unique

An id ahead of the clock was given one above the counter, and the counter stood at an id given
before. So the ids ahead of the clock have no gap, and a counter that falls back among them gives
one of them again.
-/

namespace Rackphone

namespace EventIds

variable {s : EventIds}

structure Inv (s : EventIds) : Prop where
  sequence : s.inbox.sequence = 0 ∨ s.inbox.sequence ∈ s.given
  disk : s.disk = 0 ∨ s.disk ∈ s.given
  gapless : ∀ id ∈ s.given, s.clock < id → 1 < id → id - 1 ∈ s.given
  assigned : ((s.recorded ++ s.assigned).map Spooled.id).Subperm s.given

theorem inv_start (clock : ℕ) : Inv (start clock) :=
  ⟨.inl rfl, .inl rfl, fun _ h => absurd h List.not_mem_nil, List.Subperm.refl _⟩

theorem subperm_recorded {recorded assigned : List Spooled} {given : List ℕ}
    (h : ((recorded ++ assigned).map Spooled.id).Subperm given) :
    ((recorded ++ []).map Spooled.id).Subperm given := by
  rw [List.append_nil]
  exact ((List.sublist_append_left recorded assigned).map _).subperm.trans h

/-- Where the id is given ahead of the clock, the counter is the id below it. -/
theorem Inv.assign (h : Inv s) (e : DeviceEvent) : Inv (s.step (.assign e)) := by
  have hnew : s.inbox.nextId s.clock ∈ s.given ++ [s.inbox.nextId s.clock] := by simp
  refine ⟨.inr hnew, h.disk.imp_right (List.mem_append_left _), fun id hid hlt h1 => ?_, ?_⟩
  · refine List.mem_append_left _ ?_
    rcases List.mem_append.1 hid with hid | hid
    · exact h.gapless id hid hlt h1
    · have hlt' : s.clock < id := hlt
      have hseq : id = s.inbox.sequence + 1 := by
        rw [List.mem_singleton.1 hid] at hlt' ⊢
        unfold Inbox.nextId at hlt' ⊢
        omega
      rw [hseq] at h1 ⊢
      exact h.sequence.resolve_left (by omega)
  · have hsplit : (s.recorded ++ (s.assigned ++ [Spooled.mk (s.inbox.nextId s.clock) e])).map
        Spooled.id = (s.recorded ++ s.assigned).map Spooled.id ++ [s.inbox.nextId s.clock] := by
      simp
    simp only [EventIds.step, hsplit]
    exact (List.subperm_append_right _).2 h.assigned

theorem Inv.append (h : Inv s) (i : ℕ) (cap : ℕ+) : Inv (s.step (.append i cap)) := by
  simp only [EventIds.step]
  rcases hi : s.assigned[i]? with _ | x
  · exact h
  · refine ⟨h.sequence, h.disk, h.gapless, ?_⟩
    have hperm : (x :: s.assigned.eraseIdx i).Perm s.assigned := by
      obtain ⟨hlt, rfl⟩ := List.getElem?_eq_some_iff.1 hi
      exact List.getElem_cons_eraseIdx_perm hlt
    have hmoved : (s.recorded ++ [x] ++ s.assigned.eraseIdx i).Perm (s.recorded ++ s.assigned) := by
      rw [List.append_assoc]
      exact hperm.append_left _
    exact (hmoved.map Spooled.id).subperm.trans h.assigned

theorem Inv.step (h : Inv s) (a : Action) : Inv (s.step a) := by
  cases a with
  | tick seconds =>
    refine ⟨h.sequence, h.disk, fun id hid hlt => h.gapless id hid ?_, h.assigned⟩
    exact (Nat.le_add_right s.clock seconds).trans_lt hlt
  | assign e => exact h.assign e
  | append i cap => exact h.append i cap
  | persist => exact ⟨h.sequence, h.sequence, h.gapless, h.assigned⟩
  | kill => exact ⟨h.disk, h.disk, h.gapless, subperm_recorded h.assigned⟩
  | reinstall => exact ⟨.inl rfl, .inl rfl, h.gapless, subperm_recorded h.assigned⟩

/-- Down from an id given, every id at or above the clock was given too. -/
theorem Inv.mem_given_of_le (h : Inv s) {id : ℕ} (hclock : s.clock ≤ id) (hpos : 0 < id) :
    ∀ n, id + n ∈ s.given → id ∈ s.given
  | 0, hmem => hmem
  | n + 1, hmem => h.mem_given_of_le hclock hpos n (h.gapless _ hmem (by omega) (by omega))

/-- The id that is given next is new exactly where the counter or the clock is ahead. -/
theorem Inv.nextId_notMem_iff (h : Inv s) :
    s.inbox.nextId s.clock ∉ s.given ↔ ∀ id ∈ s.given, id ≤ s.inbox.sequence ∨ id < s.clock := by
  constructor
  · intro hnew id hid
    by_contra hn
    rw [not_or] at hn
    have hle : s.inbox.nextId s.clock ≤ id := by
      unfold Inbox.nextId
      omega
    refine hnew (h.mem_given_of_le (le_max_right _ _) ?_ (id - s.inbox.nextId s.clock) ?_)
    · exact lt_max_of_lt_left (Nat.succ_pos _)
    · rwa [Nat.add_sub_cancel' hle]
  · intro hahead hmem
    have hnext := hahead _ hmem
    unfold Inbox.nextId at hnext
    omega

theorem Inv.distinct (h : Inv s) (hgiven : s.given.Nodup) : s.Distinct := by
  have hrecorded : (s.recorded.map Spooled.id).Nodup := by
    obtain ⟨l, hperm, hsub⟩ := subperm_recorded h.assigned
    rw [List.append_nil] at hperm
    exact hperm.nodup_iff.1 (hgiven.sublist hsub)
  refine ⟨hgiven, hrecorded, fun unit => Occurrence.firsts_of_nodup ?_⟩
  have hids : ((s.recorded.map (Spooled.toEvent unit)).map Event.key).map (fun k => k.2.2)
      = (s.recorded.map Spooled.id).map Int.ofNat := by
    simp only [List.map_map]
    rfl
  exact List.Nodup.of_map _ (hids ▸ hrecorded.map Int.ofNat_injective)

theorem Distinct.step (hI : Inv s) (h : s.Distinct) {a : Action} (ha : s.Ahead a) :
    (s.step a).Distinct := by
  refine (hI.step a).distinct ?_
  cases a with
  | assign e =>
    refine List.nodup_append.2 ⟨h.given, List.nodup_singleton _, fun id hid id' hid' he => ?_⟩
    rw [he, List.mem_singleton.1 hid'] at hid
    exact hI.nextId_notMem_iff.2 ha hid
  | append i cap =>
    simp only [EventIds.step]
    rcases s.assigned[i]? with _ | x <;> exact h.given
  | _ => exact h.given

theorem not_distinct_step (hI : Inv s) {a : Action} (ha : ¬ s.Ahead a) : ¬ (s.step a).Distinct := by
  cases a with
  | assign e =>
    intro h
    have hmem : s.inbox.nextId s.clock ∈ s.given :=
      not_not.1 fun hn => ha (hI.nextId_notMem_iff.1 hn)
    exact (List.nodup_append.1 h.given).2.2 _ hmem _ (List.mem_singleton_self _) rfl
  | _ => exact absurd trivial ha

/-- The ids of a unit's events are distinct in exactly the runs where, at every record, the counter
or the clock is ahead of every id given. -/
theorem always_distinct_iff (clock : ℕ) (as : List Action) :
    Run.Always step Distinct (start clock) as ↔ Run.Meets step Ahead (start clock) as := by
  have hinit : Inv (start clock) ∧ (start clock).Distinct :=
    ⟨inv_start clock, (inv_start clock).distinct List.nodup_nil⟩
  exact Run.always_iff_meets (I := fun s => Inv s ∧ s.Distinct) (d := fun _ _ => True)
    (fun _ hI => hI.2) (fun _ a hI _ ha => ⟨hI.1.step a, hI.2.step hI.1 ha⟩)
    (fun _ _ hI _ ha => not_distinct_step hI.1 ha) as hinit (Run.meets_of_forall fun _ _ => trivial)

def text (body : String) : DeviceEvent := .sms "+15550100" 1700000000000 0 (some body)

/-- Two messages in one second and a kill before the counter is written; the first message after
the restart comes within the next second. -/
def burst : List Action :=
  [.assign (text "one"), .append 0 DEFAULT_INBOX_CAP, .assign (text "two"),
    .append 0 DEFAULT_INBOX_CAP, .kill, .tick 1, .assign (text "three"),
    .append 0 DEFAULT_INBOX_CAP]

/-- It has the second one's id, and the host drops it. -/
theorem burst_repeats_id :
    (¬ ∀ (clock : ℕ) (as : List Action),
      Run.Always step (fun s => (s.recorded.map Spooled.id).Nodup) (start clock) as)
    ∧ ¬ ∀ (clock : ℕ) (as : List Action),
      Run.Always step (fun s => ∀ unit,
        Occurrence.firsts Event.key (s.recorded.map (Spooled.toEvent unit))
          = s.recorded.map (Spooled.toEvent unit)) (start clock) as := by
  refine ⟨fun h => ?_, fun h => ?_⟩
  · refine absurd (h 1700000000 burst).final ?_
    decide +kernel
  · have hfinal := (h 1700000000 burst).final
    have hlost : (Occurrence.firsts Event.key
        ((Run.final step (start 1700000000) burst).recorded.map
          (Spooled.toEvent "lisa01"))).length ≠ 3 := by decide +kernel
    exact hlost (congrArg List.length (hfinal "lisa01"))

end EventIds

end Rackphone
