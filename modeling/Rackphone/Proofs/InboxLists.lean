import Rackphone.InboxLists
import Rackphone.Proofs.InboxController

/-!
# The inbox does not depend on the order of arrival

A merge shows the newest of the keys that the list had and of those it is given, and a page that
is merged with more keys shows what everything received shows (`Page.newest_union`), so the cap
loses nothing, however often it is applied.
-/

namespace Rackphone

namespace GatewayEvent

theorem ofRow_newestFirst_le_iff {r r' : Row} :
    newestFirst (ofRow r') ≤ newestFirst (ofRow r) ↔ newestFirst r' ≤ newestFirst r := by
  have htime : ∀ r : Row, InboxEvent.occurredAt (ofRow r) = InboxEvent.occurredAt r := fun r => by
    rcases h : r.timestamp with _ | t <;>
      simp [InboxEvent.occurredAt, occurredAt, Rackphone.occurredAt, ofRow, h]
  unfold newestFirst
  rw [Prod.Lex.toLex_le_toLex, Prod.Lex.toLex_le_toLex, htime, htime]
  simp [InboxEvent.id, ofRow]

theorem distinctFrom_ofRow : ∀ (seen : List ℕ) (l : List Row),
    Page.distinctFrom InboxEvent.id (seen.map Nat.cast) (l.map ofRow)
      = (Page.distinctFrom InboxEvent.id seen l).map ofRow
  | _, [] => rfl
  | seen, r :: l => by
    have hmem : InboxEvent.id (ofRow r) ∈ seen.map (Nat.cast : ℕ → ℤ) ↔ InboxEvent.id r ∈ seen := by
      simp [InboxEvent.id, ofRow]
    rw [List.map_cons, Page.distinctFrom, Page.distinctFrom]
    simp only [hmem]
    split_ifs
    · exact distinctFrom_ofRow seen l
    · rw [List.map_cons, ← distinctFrom_ofRow (InboxEvent.id r :: seen) l]
      rfl

/-- What the client reads of the gateway's rows is merged as the rows are. -/
theorem boundedUnique_ofRow (k : InboxKind) (l : List Row) :
    boundedUnique k (l.map ofRow) = (boundedUnique k l).map ofRow := by
  have hfilter : (l.map ofRow).filter (fun e => kindOf e = some k)
      = (l.filter fun r => kindOf r = some k).map ofRow := by
    rw [List.filter_map]
    rfl
  have hdistinct := distinctFrom_ofRow [] (l.filter fun r => kindOf r = some k)
  have hsort := List.map_insertionSort (fun r r' : Row => newestFirst r' ≤ newestFirst r)
    (fun e e' : GatewayEvent => newestFirst e' ≤ newestFirst e) ofRow (unique k l)
    fun r _ r' _ => ofRow_newestFirst_le_iff.symm
  unfold boundedUnique Page.top Page.descending
  rw [List.map_take, hsort]
  unfold unique
  rw [hfilter]
  exact congrArg (fun l => (List.insertionSort _ l).take maximumPerKind) hdistinct

end GatewayEvent

namespace InboxLists

variable {s : InboxLists} {all : List GatewayEvent}

/-- A merge shows the newest of everything received where the list did, in whatever order the old
events and the new ones stand. -/
theorem ShowsNewest.merge {k : InboxKind} {shown received brought candidates : List GatewayEvent}
    (hshows : ShowsNewest k shown received)
    (hcandidates : ∀ e, e ∈ candidates ↔ e ∈ shown ∨ e ∈ brought)
    (hsame : ∀ e ∈ candidates, ∀ e' ∈ candidates, e.id = e'.id → e.occurredAt = e'.occurredAt) :
    ShowsNewest k (boundedUnique k candidates) (received ++ brought) where
  newest := by
    have hkind : ∀ e ∈ shown, kindOf e = some k := fun e he => by
      simpa using (List.mem_filter.1 (hshows.received he)).2
    have hkeys : ((candidates.filter fun e => kindOf e = some k).map newestFirst).toFinset
        = (shown.map newestFirst).toFinset
          ∪ ((brought.filter fun e => kindOf e = some k).map newestFirst).toFinset := by
      ext key
      simp only [List.mem_toFinset, List.mem_map, List.mem_filter, Finset.mem_union, hcandidates,
        decide_eq_true_eq]
      constructor
      · rintro ⟨e, ⟨he | he, hk⟩, rfl⟩
        · exact .inl ⟨e, he, rfl⟩
        · exact .inr ⟨e, ⟨he, hk⟩, rfl⟩
      · rintro (⟨e, he, rfl⟩ | ⟨e, ⟨he, hk⟩, rfl⟩)
        · exact ⟨e, ⟨.inl he, hkind e he⟩, rfl⟩
        · exact ⟨e, ⟨.inr he, hk⟩, rfl⟩
    have htimes : ∀ e ∈ candidates, ∀ e' ∈ candidates, InboxEvent.id e = InboxEvent.id e' →
        InboxEvent.occurredAt e = InboxEvent.occurredAt e' := fun e he e' he' hid =>
      congrArg (fun t => t.getD 0) (hsame e he e' he' hid)
    rw [List.filter_append, List.map_append, List.toFinset_append, ← Page.newest_union,
      ← hshows.newest, ← hkeys, ← map_boundedUnique htimes]
  received := by
    rw [List.filter_append]
    intro e he
    obtain ⟨hmem, hk⟩ := mem_of_mem_boundedUnique he
    rcases (hcandidates e).1 hmem with hold | hnew
    · exact List.mem_append_left _ (hshows.received hold)
    · exact List.mem_append_right _ (List.mem_filter.2 ⟨hnew, by simpa using hk⟩)
  ids := nodup_boundedUnique k candidates

/-- What is brought of other kinds does not count. -/
theorem ShowsNewest.other {k : InboxKind} {shown received brought : List GatewayEvent}
    (hshows : ShowsNewest k shown received) (hbrought : ∀ e ∈ brought, kindOf e ≠ some k) :
    ShowsNewest k shown (received ++ brought) := by
  have hnone : (brought.filter fun e => kindOf e = some k) = [] :=
    List.filter_eq_nil_iff.2 fun e he => by simpa using hbrought e he
  have hreceived : (received ++ brought).filter (fun e => kindOf e = some k)
      = received.filter fun e => kindOf e = some k := by
    rw [List.filter_append, hnone, List.append_nil]
  exact ⟨by rw [hreceived, hshows.newest], by rw [hreceived]; exact hshows.received, hshows.ids⟩

theorem gatewayKind_injective : Function.Injective gatewayKind := by
  intro k k' h
  cases k <;> cases k' <;>
    first | rfl | simp [gatewayKind, KIND_SMS, KIND_CALL, KIND_NOTIFICATION] at h

structure Inv (all : List GatewayEvent) (s : InboxLists) : Prop where
  shows : ∀ k, ShowsNewest k (s.events k) s.received
  received : s.received ⊆ all

theorem inv_start (all : List GatewayEvent) (unit : String) (kinds : List InboxKind)
    (messaging : Bool) : Inv all (start unit kinds messaging) where
  shows k := ⟨by simp [start, Page.newest], List.nil_subset _, List.nodup_nil⟩
  received := List.nil_subset _

/-- The events of one completion, all of the kind of the list they are merged into. -/
theorem Inv.setEvents (h : Inv all s) (hall : SameIds all) {k : InboxKind}
    {brought candidates : List GatewayEvent} (hbrought : brought ⊆ all)
    (hkind : ∀ e ∈ brought, e.kind = gatewayKind k)
    (hcandidates : ∀ e, e ∈ candidates ↔ e ∈ s.events k ∨ e ∈ brought) :
    Inv all { s.setEvents k candidates with received := s.received ++ brought } where
  shows k' := by
    have hmem : ∀ e ∈ candidates, e ∈ all := fun e he => by
      rcases (hcandidates e).1 he with he | he
      · exact h.received (List.mem_of_mem_filter ((h.shows k).received he))
      · exact hbrought he
    by_cases hk : k' = k
    · subst hk
      simp only [InboxLists.setEvents, Function.update_self]
      exact (h.shows k').merge hcandidates fun e he e' he' hid =>
        (hall e (hmem e he) e' (hmem e' he') hid).2
    · simp only [InboxLists.setEvents, Function.update_of_ne hk]
      refine (h.shows k').other fun e he hkind' => hk ?_
      exact gatewayKind_injective ((gatewayKind_of_kindOf hkind').symm.trans (hkind e he))
  received := List.append_subset.2 ⟨h.received, hbrought⟩

/-- A completion that brings nothing leaves the lists. -/
theorem Inv.nothing (h : Inv all s) : Inv all { s with received := s.received ++ [] } := by
  rw [List.append_nil]
  exact h

theorem Inv.step (h : Inv all s) (hall : SameIds all) (a : Action) (ha : a.events ⊆ all) :
    Inv all (s.step a) := by
  cases a with
  | loaded kind queried asked =>
    simp only [InboxLists.step, merge, Action.brings]
    split_ifs
    · exact h.setEvents hall ha asked fun e => List.mem_append
    · exact h.nothing
  | streamed event =>
    simp only [InboxLists.step, merge, Action.brings]
    by_cases hunit : event.unit = s.unit
    · rcases hkind : kindOf event with _ | kind
      · simpa [hunit] using h.nothing
      · by_cases hoffered : kind ∈ s.kinds
        · simp only [hunit, hoffered, ne_eq, not_true_eq_false, if_true, if_false, true_and,
            Option.some.injEq, exists_eq_right']
          refine h.setEvents hall ha (fun e he => ?_) fun e => ?_
          · rw [List.mem_singleton.1 he]
            exact gatewayKind_of_kindOf hkind
          · rw [List.mem_cons, List.mem_singleton, or_comm]
        · simpa [hunit, hoffered] using h.nothing
    · simpa [hunit] using h.nothing
  | sent event sms =>
    simp only [InboxLists.step, merge, Action.brings]
    split_ifs
    · refine h.setEvents hall ha (fun e he => ?_) fun e => ?_
      · rw [List.mem_singleton.1 he]
        exact sms
      · rw [List.mem_cons, List.mem_singleton, or_comm]
    · exact h.nothing

/-- A message is sent, an older one is loaded, and the stream brings the sent one again. -/
def echoed : List Action :=
  [.sent ⟨7, "lisa01", "sms", some "+100", some "hi", some 60, some "out", none, some 1⟩ rfl,
    .loaded .messages [⟨5, "lisa01", "sms", some "+100", none, none, some "in", none, some 0⟩]
      (by decide),
    .streamed ⟨7, "lisa01", "sms", some "+100", some "hi", some 60, some "out", none, some 1⟩]

end InboxLists

end Rackphone
