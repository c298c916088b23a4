import Rackphone.InboxNews
import Rackphone.Proofs.InboxLists

/-!
# News stays unseen

News is in the list of its kind at every step, so a mark of the kind takes all of it, and the
baselines of the first load rise over whatever is there. Nothing else moves a baseline, and the
seen ids only grow by those of a thread.
-/

namespace Rackphone

namespace InboxNews

variable {s : InboxNews} {e : GatewayEvent}

theorem isUnseen_iff : s.isUnseen e ↔ e.CountsAsNews ∧ s.Fresh e := by
  unfold isUnseen GatewayEvent.CountsAsNews Fresh
  rcases hk : kindOf e with _ | k
  · simp
  · cases k <;> by_cases ho : e.direction = some "out" <;> simp [ho]

theorem Fresh.lt_id {k : InboxKind} (h : s.Fresh e) (hk : kindOf e = some k) :
    s.baseline k < e.id := h.1 k hk

theorem not_isUnseen_of_le {k : InboxKind} (hk : kindOf e = some k) (hle : e.id ≤ s.baseline k) :
    ¬ s.isUnseen e := fun h => absurd ((isUnseen_iff.1 h).2.lt_id hk) (not_lt.2 hle)

theorem id_le_largestId {k : InboxKind} (h : e ∈ s.lists.events k) : e.id ≤ s.largestId k := by
  have hmem := List.mem_map_of_mem (f := GatewayEvent.id) h
  obtain ⟨m, hm⟩ := Option.isSome_iff_exists.1 (List.isSome_max?_of_mem hmem)
  rw [largestId, hm, Option.getD_some]
  exact (List.max?_eq_some_iff.1 hm).2 _ hmem

structure Inv (s : InboxNews) : Prop where
  listed : ∀ e ∈ s.news, Listed s.lists e
  unseen : s.NewsUnseen

theorem inv_start (unit : String) (kinds : List InboxKind) (messaging : Bool) :
    (start unit kinds messaging).Inv := ⟨by simp [start], by simp [NewsUnseen, start]⟩

/-- What a step of the lists brings is news if it counts as such and is fresh. -/
theorem Inv.relist (h : s.Inv) (a : InboxLists.Action) {brought : List GatewayEvent}
    (hbrought : ∀ e ∈ brought, Listed (s.lists.step a) e → e.CountsAsNews ∧ s.Fresh e) :
    (s.relist a brought).Inv := by
  have hmem : ∀ e ∈ (s.relist a brought).news, Listed (s.lists.step a) e ∧ s.isUnseen e := by
    intro e he
    obtain ⟨he, hl⟩ := List.mem_filter.1 he
    have hl := of_decide_eq_true hl
    rcases List.mem_append.1 he with he | he
    · exact ⟨hl, h.unseen e he⟩
    · exact ⟨hl, isUnseen_iff.2 (hbrought e he hl)⟩
  exact ⟨fun e he => (hmem e he).1, fun e he => (hmem e he).2⟩

theorem Inv.markSeen (h : s.Inv) (kind : InboxKind) : (s.step (.markSeen kind)).Inv := by
  have hsub : ∀ e ∈ (s.step (.markSeen kind)).news, e ∈ s.news ∧ e ∉ s.lists.events kind :=
    fun e he => by simpa [InboxNews.step] using he
  refine ⟨fun e he => h.listed e (hsub e he).1, fun e he => ?_⟩
  obtain ⟨hn, hout⟩ := hsub e he
  obtain ⟨k, hk, hin⟩ := h.listed e hn
  have hne : k ≠ kind := fun hkk => hout (hkk ▸ hin)
  obtain ⟨hcounts, hfresh⟩ := isUnseen_iff.1 (h.unseen e hn)
  refine isUnseen_iff.2 ⟨hcounts, fun k' hk' => ?_, hfresh.2⟩
  obtain rfl : k = k' := Option.some.inj (hk.symm.trans hk')
  have hb : (s.step (.markSeen kind)).baseline k = s.baseline k := by
    simp only [InboxNews.step]
    split_ifs
    · exact Function.update_of_ne hne _ _
    · rfl
  rw [hb]
  exact hfresh.lt_id hk

theorem Inv.markThreadSeen (h : s.Inv) (thread : MessageThread)
    (hc : s.Undisturbed (.markThreadSeen thread)) : (s.step (.markThreadSeen thread)).Inv := by
  have hsub : ∀ e ∈ (s.step (.markThreadSeen thread)).news, e ∈ s.news ∧ e ∉ thread.messages :=
    fun e he => by simpa [InboxNews.step] using he
  refine ⟨fun e he => h.listed e (hsub e he).1, fun e he => ?_⟩
  obtain ⟨hn, hout⟩ := hsub e he
  obtain ⟨hcounts, hbase, hseen, hdir⟩ := isUnseen_iff.1 (h.unseen e hn)
  refine isUnseen_iff.2 ⟨hcounts, hbase, fun hmem => ?_, hdir⟩
  rcases List.mem_append.1 hmem with hmem | hmem
  · exact hseen hmem
  · exact hc e hn hout hmem

theorem Inv.step (h : s.Inv) (a : Action) (hc : s.Undisturbed a) : (s.step a).Inv := by
  cases a with
  | load => exact ⟨h.listed, h.unseen⟩
  | loaded i kind queried asked =>
    have hr : (s.relist (.loaded kind queried asked) []).Inv := h.relist _ (by simp)
    simp only [InboxNews.step]
    split
    · split_ifs
      · exact ⟨hr.listed, hr.unseen⟩
      · exact h
    · exact h
  | loadFailed i kind =>
    simp only [InboxNews.step]
    split
    · split_ifs
      · exact ⟨h.listed, h.unseen⟩
      · exact h
    · exact h
  | finish i =>
    simp only [InboxNews.step]
    split
    · rename_i load hload
      split_ifs with hfirst
      · have hnone : s.news = [] := hc ⟨load, hload, hfirst⟩
        exact ⟨by simp [hnone], by simp [NewsUnseen, hnone]⟩
      · exact h
    · exact h
  | streamed event =>
    refine h.relist _ fun e he hl => ?_
    split_ifs at he with hfirst
    · obtain rfl := List.mem_singleton.1 he
      exact ⟨hfirst.2.2.1, hc hfirst hl⟩
    · exact absurd he List.not_mem_nil
  | sent event sms => exact h.relist _ (by simp)
  | markSeen kind => exact h.markSeen kind
  | markThreadSeen thread => exact h.markThreadSeen thread hc

/-- A step that fails the condition leaves news that is not reported. -/
theorem not_newsUnseen (h : s.Inv) {a : Action} (hc : ¬ s.Undisturbed a) :
    ¬ (s.step a).NewsUnseen := by
  intro hafter
  cases a with
  | load | loaded | loadFailed | sent | markSeen => exact hc trivial
  | finish i =>
    simp only [Undisturbed, Classical.not_imp] at hc
    obtain ⟨⟨load, hload, hfirst⟩, hnews⟩ := hc
    obtain ⟨e, he⟩ := List.exists_mem_of_ne_nil _ hnews
    obtain ⟨k, hk, hin⟩ := h.listed e he
    have hstep : s.step (.finish i) = { s with loadedOnce := true, baseline := s.largestId } := by
      simp only [InboxNews.step]
      rw [show s.loads[i]? = some load from hload]
      exact if_pos hfirst
    rw [hstep] at hafter
    exact not_isUnseen_of_le hk (id_le_largestId hin) (hafter e he)
  | streamed event =>
    simp only [Undisturbed, Classical.not_imp] at hc
    obtain ⟨hfirst, hl, hfresh⟩ := hc
    have hmem : event ∈ (s.step (.streamed event)).news := by
      refine List.mem_filter.2 ⟨List.mem_append_right _ ?_, decide_eq_true hl⟩
      rw [if_pos hfirst]
      exact List.mem_singleton_self _
    exact hfresh (isUnseen_iff.1 (hafter event hmem)).2
  | markThreadSeen thread =>
    simp only [Undisturbed, not_forall, not_not] at hc
    obtain ⟨e, he, hout, hid⟩ := hc
    have hmem : e ∈ (s.step (.markThreadSeen thread)).news :=
      List.mem_filter.2 ⟨he, decide_eq_true hout⟩
    exact (isUnseen_iff.1 (hafter e hmem)).2.2.1 (List.mem_append_right _ hid)

/-- The runs in which news stays unseen until it is looked at. -/
theorem always_newsUnseen_iff (unit : String) (kinds : List InboxKind) (messaging : Bool)
    (as : List Action) :
    Run.Always step NewsUnseen (start unit kinds messaging) as
      ↔ Run.Meets step Undisturbed (start unit kinds messaging) as :=
  ⟨Run.meets_of_always (fun _ _ hI hc => hI.step _ hc) (fun _ _ hI hc => not_newsUnseen hI hc) as
      (inv_start unit kinds messaging),
    Run.always_of_meets (fun _ hI => hI.unseen) (fun _ _ hI hc => hI.step _ hc) as
      (inv_start unit kinds messaging)⟩

/-- A notification is streamed while the first load is in flight. -/
def streamedMeanwhile : List Action :=
  [.load, .streamed ⟨7, "lisa01", "notification", some "Bank", some "code", some 60, none, none,
      some 1⟩, .loaded 0 .notifications [] (by decide), .finish 0]

theorem news_loaded_over : ¬ ∀ (unit : String) (kinds : List InboxKind) (messaging : Bool)
    (as : List Action), Run.Always step NewsUnseen (start unit kinds messaging) as := by
  intro h
  exact absurd (h "lisa01" [.notifications] false streamedMeanwhile) (by decide +kernel)

end InboxNews

end Rackphone
