import Rackphone.EventStream
import Rackphone.Proofs.Login
import Rackphone.Proofs.Stream

/-!
# The event stream is safe

Every row a poll finds is above the cursor, and the cursor is at or above every row given out, so
nothing is given out twice whatever has become of the store in between. A login that is over stays
over, so the poll that would find its connection authorised never comes.
-/

namespace Rackphone

namespace AuthStore

variable {s : AuthStore} {now : ℤ} {id f : ℕ}

/-- The row is in the table and of that family. -/
def InFamily (s : AuthStore) (id f : ℕ) : Prop := ∃ r ∈ s.rows, r.id = id ∧ r.family = f

theorem InFamily.call (h : s.InFamily id f) (op : Op) : (s.call now op).InFamily id f := by
  obtain ⟨r, hr, rfl, rfl⟩ := h
  exact (persists_call hr now op).imp fun r' hr' => ⟨hr'.1, hr'.2.1, hr'.2.2.2⟩

theorem InFamily.familyLive_iff (h : s.InFamily id f) :
    s.familyLive id now = true ↔ ¬ s.NoLive f now := by
  obtain ⟨r, hr, rfl, rfl⟩ := h
  rw [AuthStore.familyLive_iff hr]
  simp only [NoLive, not_forall, not_not, exists_prop]

theorem inFamily_of_familyLive (h : s.familyLive id now = true) : ∃ f, s.InFamily id f := by
  obtain ⟨r, -, hlive⟩ := List.any_eq_true.1 h
  obtain ⟨hf, -⟩ := of_decide_eq_true hlive
  obtain ⟨r₀, hr₀, -⟩ := Option.map_eq_some_iff.1 hf
  have hid : r₀.id = id := by simpa using List.find?_some hr₀
  exact ⟨r₀.family, r₀, List.mem_of_find?_eq_some hr₀, hid, rfl⟩

end AuthStore

namespace EventStream

open AuthStore

variable {s : EventStream} {started : ℕ}

theorem mem_found {r : Row} : r ∈ s.found ↔
    r ∈ Page.top Row.newestKey STREAM_BATCH_SIZE s.store.rows ∧ s.lastSeenId < r.id
      ∧ Readable s.config r :=
  Stream.mem_rows s.config

/-- No two rows have one time and id, so the order of a page is strict. -/
theorem found_pairwise (s : EventStream) :
    s.found.Pairwise fun r r' => r.newestKey < r'.newestKey := by
  have hperm := Page.descending_perm Row.newestKey s.store.rows
  have hnodup : ((Page.descending Row.newestKey s.store.rows).map Row.newestKey).Nodup :=
    (hperm.map _).nodup_iff.2 s.store.nodup_newestKey
  have hstrict : (Page.descending Row.newestKey s.store.rows).Pairwise
      fun r r' => r'.newestKey < r.newestKey :=
    ((Page.descending_pairwise Row.newestKey s.store.rows).and (List.pairwise_map.1 hnodup)).imp
      fun h => lt_of_le_of_ne h.1 h.2.symm
  rw [found, Stream.rows, EventStore.queryEvents_all, List.pairwise_reverse]
  exact ((hstrict.sublist (List.take_sublist _ _)).filter _).filter _

theorem found_nodup (s : EventStream) : (s.found.map Row.id).Nodup := by
  refine List.Nodup.map_on (fun r hr r' hr' hid => ?_) ((found_pairwise s).imp fun h he => ?_)
  · exact EventStore.eq_of_id (Page.mem_of_mem_top _ (mem_found.1 hr).1)
      (Page.mem_of_mem_top _ (mem_found.1 hr').1) hid
  · exact absurd h (he ▸ lt_irrefl _)

/-- What is given out or about to be, and where the cursor stands. -/
structure Inv (started : ℕ) (s : EventStream) : Prop where
  given : s.yielded ++ s.pending = (s.polls.map Polled.rows).flatten
  nodup : ((s.yielded ++ s.pending).map Row.id).Nodup
  above : ∀ r ∈ s.yielded ++ s.pending, started < r.id
  started_le : started ≤ s.lastSeenId
  seen : ∀ r ∈ s.yielded, r.id ≤ s.lastSeenId
  oldestFirst : ∀ p ∈ s.polls, p.rows.Pairwise fun r r' => r.newestKey < r'.newestKey
  readable : ∀ p ∈ s.polls, ∀ r ∈ p.rows, Readable p.config r
  chained : s.auth.store.Chained
  named : s.opened → ∀ id ∈ s.refreshId, ∃ f, s.auth.store.InFamily id f

theorem Inv.safe (h : Inv started s) : s.Safe started where
  given := h.given
  nodup := by
    have hn := h.nodup
    rw [List.map_append] at hn
    exact hn.of_append_left
  above r hr := h.above r (List.mem_append_left _ hr)
  oldestFirst := h.oldestFirst
  readable := h.readable

theorem inv_connect (store : EventStore) (config : Option GatewayConfig) {auth : Moment}
    (hC : auth.store.Chained) (refreshId : Option ℕ) :
    Inv store.latestEventId (connect store config auth refreshId) where
  given := rfl
  nodup := List.nodup_nil
  above r hr := absurd hr List.not_mem_nil
  started_le := le_rfl
  seen r hr := absurd hr List.not_mem_nil
  oldestFirst p hp := absurd hp List.not_mem_nil
  readable p hp := absurd hp List.not_mem_nil
  chained := hC
  named h id hid := by
    obtain rfl : refreshId = some id := hid
    exact inFamily_of_familyLive h

theorem Inv.poll (h : Inv started s) : Inv started s.poll := by
  unfold EventStream.poll
  split_ifs with hready hauth
  · have hlt : ∀ r ∈ s.found, s.lastSeenId < r.id := fun r hr => (mem_found.1 hr).2.1
    have hgiven := h.given
    have hnodup := h.nodup
    have habove := h.above
    rw [hready.2, List.append_nil] at hgiven hnodup habove
    refine { h with given := ?_, nodup := ?_, above := ?_, oldestFirst := ?_, readable := ?_ }
    · simp [hgiven]
    · rw [List.map_append, List.nodup_append]
      refine ⟨hnodup, s.found_nodup, fun n hn n' hn' he => ?_⟩
      obtain ⟨r, hr, rfl⟩ := List.mem_map.1 hn
      obtain ⟨r', hr', rfl⟩ := List.mem_map.1 hn'
      have hseen := h.seen r hr
      have hnew := hlt r' hr'
      omega
    · intro r hr
      rcases List.mem_append.1 hr with hr | hr
      · exact habove r hr
      · exact h.started_le.trans_lt (hlt r hr)
    · intro p hp
      rcases List.mem_append.1 hp with hp | hp
      · exact h.oldestFirst p hp
      · rw [List.mem_singleton.1 hp]
        exact s.found_pairwise
    · intro p hp
      rcases List.mem_append.1 hp with hp | hp
      · exact h.readable p hp
      · rw [List.mem_singleton.1 hp]
        exact fun r hr => (mem_found.1 hr).2.2
  · exact { h with named := fun hopen => nomatch hopen }
  · exact h

theorem Inv.yieldNext (h : Inv started s) : Inv started s.yieldNext := by
  unfold EventStream.yieldNext
  rcases hp : s.pending with _ | ⟨r, rest⟩
  · exact h
  · have hsplit : s.yielded ++ [r] ++ rest = s.yielded ++ s.pending := by simp [hp]
    refine { h with given := ?_, nodup := ?_, above := ?_, started_le := ?_, seen := ?_ }
    · exact hsplit.trans h.given
    · simpa only [hsplit] using h.nodup
    · simpa only [hsplit] using h.above
    · exact h.started_le.trans (le_max_left _ _)
    · intro r' hr'
      rcases List.mem_append.1 hr' with hr' | hr'
      · exact (h.seen r' hr').trans (le_max_left _ _)
      · rw [List.mem_singleton.1 hr']
        exact le_max_right _ _

theorem Inv.step (h : Inv started s) (a : Action) : Inv started (s.step a) := by
  cases a with
  | addSent unit address body timestamp sub now =>
    simp only [EventStream.step]
    rcases s.store.addSent unit address body timestamp sub now with _ | ⟨store, row⟩
    · exact h
    · exact { h with }
  | auth op =>
    refine { h with chained := h.chained.call _ op, named := fun hopen id hid => ?_ }
    obtain ⟨f, hf⟩ := h.named hopen id hid
    exact ⟨f, hf.call op⟩
  | poll => exact h.poll
  | yield => exact h.yieldNext
  | _ => exact { h with }

/-- The connection is closed, or follows a login that is over. -/
def Ended (s : EventStream) : Prop :=
  s.opened = false ∨
    ∃ id ∈ s.refreshId, ∃ f, s.auth.store.InFamily id f ∧ s.auth.store.FamilyOver f s.auth.now

theorem ended_of_over (h : Inv started s) (hover : s.Over) : s.Ended := by
  obtain ⟨id, hid, hdead⟩ := hover
  rcases hopen : s.opened
  · exact .inl hopen
  · obtain ⟨f, hf⟩ := h.named hopen id hid
    have hno : s.auth.store.NoLive f s.auth.now := by
      by_contra hn
      exact absurd (hf.familyLive_iff.2 hn) (by simp [hdead])
    have hknown : ∃ r ∈ s.auth.store.rows, r.family = f := hf.imp fun r hr => ⟨hr.1, hr.2.2⟩
    exact .inr ⟨id, hid, f, hf, h.chained, hknown, hno⟩

theorem Ended.poll (h : s.Ended) : s.poll.Ended ∧ s.poll.polls = s.polls := by
  unfold EventStream.poll
  split_ifs with hready hauth
  · rcases h with hclosed | ⟨id, hid, f, hf, hover⟩
    · exact absurd hready.1 (by simp [hclosed])
    · have hlive : s.auth.store.familyLive id s.auth.now = true := by
        simpa only [stillAuthorised, Option.mem_def.1 hid] using hauth
      exact absurd hover.noLive (hf.familyLive_iff.1 hlive)
  · exact ⟨.inl rfl, rfl⟩
  · exact ⟨h, rfl⟩

/-- Neither a call nor time brings back a login that is over. -/
theorem Ended.auth (h : s.Ended) {auth : Moment}
    (hauth : ∀ id f, s.auth.store.InFamily id f → s.auth.store.FamilyOver f s.auth.now →
      auth.store.InFamily id f ∧ auth.store.FamilyOver f auth.now) :
    ({ s with auth } : EventStream).Ended := by
  rcases h with hclosed | ⟨id, hid, f, hf, hover⟩
  · exact .inl hclosed
  · exact .inr ⟨id, hid, f, hauth id f hf hover⟩

theorem Ended.step (h : s.Ended) (a : Action) : (s.step a).Ended ∧ (s.step a).polls = s.polls := by
  cases a with
  | addSent unit address body timestamp sub now =>
    simp only [EventStream.step]
    rcases s.store.addSent unit address body timestamp sub now with _ | ⟨store, row⟩ <;>
      exact ⟨h, rfl⟩
  | auth op => exact ⟨h.auth fun _ _ hf hover => ⟨hf.call op, hover.call op⟩, rfl⟩
  | wait elapsed => exact ⟨h.auth fun _ _ hf hover => ⟨hf, hover.wait elapsed⟩, rfl⟩
  | poll => exact h.poll
  | yield =>
    simp only [EventStream.step, EventStream.yieldNext]
    rcases s.pending with _ | ⟨r, rest⟩ <;> exact ⟨h, rfl⟩
  | _ => exact ⟨h, rfl⟩

theorem Ended.noMorePolls (h : s.Ended) : s.NoMorePolls := fun later =>
  (Run.final_of_invariant (I := fun s' : EventStream => s'.Ended ∧ s'.polls = s.polls)
    (fun _ a hI => ⟨(hI.1.step a).1, (hI.1.step a).2.trans hI.2⟩) later ⟨h, rfl⟩).2

/-- One connection of the event stream, opened on any store and after any calls that made the
table of logins, is safe whatever happens. -/
theorem stream_safe (store : EventStore) (config : Option GatewayConfig) (t : ℤ)
    (calls : List (ℕ × Op)) (refreshId : Option ℕ) (as : List Action) :
    Run.Always step (fun s => s.Safe store.latestEventId ∧ (s.Over → s.NoMorePolls))
      (connect store config (Run.final AuthStore.step ⟨.empty, t⟩ calls) refreshId) as := by
  have hC : (Run.final AuthStore.step ⟨.empty, t⟩ calls).store.Chained :=
    Reachable.chained ⟨t, calls, rfl⟩
  exact Run.always_of_invariant
    (fun _ h => ⟨h.safe, fun hover => (ended_of_over h hover).noMorePolls⟩)
    (fun _ a h => h.step a) as (inv_connect store config hC refreshId)

end EventStream

end Rackphone
