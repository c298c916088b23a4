import Rackphone.CallController

/-!
# Audio belongs to the call on screen

An open connection is the one `_connection` names, and a running subscription the one its field
names, so `_closeAudio` finds both. Nothing is open while no call is connecting or connected, so a
dial or an accept begins with nothing to lose, and what it opens stays its own as long as no step
of an earlier one goes on in its place.
-/

namespace Rackphone

namespace CallController

variable {s : CallController}

def AllClosed (connections : List CallConnection) : Prop := ∀ d ∈ connections, d.closed = true

/-- Where the latest dial or accept is, with what it may rely on there. -/
def Standing (state : CallState) (connection : Option ℕ) (connections : List CallConnection)
    (i : ℕ) (a : CallAttempt) : Prop :=
  (a.phase ≠ .finished → state ≠ .inCall) ∧
    match a.phase with
    | .asking | .opening => AllClosed connections
    | .preparing c | .starting c =>
      (∃ d, connections[c]? = some d ∧ d.attempt = i ∧ d.unit = a.unit) ∧
        ∀ h, connection = some h → h = c
    | .closing stage => stage = .connection ∨ stage = .audio → AllClosed connections
    | .discarding | .finished => True

structure Inv (s : CallController) : Prop where
  held : ∀ i d, s.connections[i]? = some d → d.closed = false → s.connection = some i
  resting : s.state ≠ .connecting → s.state ≠ .inCall → AllClosed s.connections
  cut : s.ending = some .connection ∨ s.ending = some .audio → AllClosed s.connections
  downlink : ∀ i d, s.connections[i]? = some d → d.downlink = true →
    s.state = .inCall ∧ s.downlinkSubscription = some i ∧ s.ending = none
  uplink : ∀ i d, s.connections[i]? = some d → d.uplink = true →
    s.state = .inCall ∧ s.uplinkSubscription = some i
      ∧ (s.ending = none ∨ s.ending = some .downlink)
  bridged : ∀ i d, s.connections[i]? = some d → d.Bridged →
    d.attempt + 1 = s.attempts.length ∧ s.unit = some d.unit ∧ ∀ h, s.connection = some h → h = i
  current : ∀ i a, s.attempts[i]? = some a → i + 1 = s.attempts.length →
    Standing s.state s.connection s.connections i a
  shown : s.state = .connecting ∨ s.state = .inCall →
    ∃ a, s.attempts.getLast? = some a ∧ s.unit = some a.unit
  paired : s.uplinkSubscription = s.downlinkSubscription

theorem inv_start : Inv start where
  held i d h := by simp [start] at h
  resting _ _ d h := absurd h List.not_mem_nil
  cut h := by simp [start] at h
  downlink i d h := by simp [start] at h
  uplink i d h := by simp [start] at h
  bridged i d h := by simp [start] at h
  current i a h := by simp [start] at h
  shown h := by simp [start] at h
  paired := rfl

/-! ## The connections -/

/-- What happens to a connection after it was opened for its dial or accept. -/
structure Weakens (f : CallConnection → CallConnection) : Prop where
  unit : ∀ d, (f d).unit = d.unit
  attempt : ∀ d, (f d).attempt = d.attempt
  closed : ∀ d, d.closed = true → (f d).closed = true
  downlink : ∀ d, (f d).downlink = true → d.downlink = true
  uplink : ∀ d, (f d).uplink = true → d.uplink = true

variable {f : CallConnection → CallConnection} {connections : List CallConnection} {c : ℕ}

theorem of_getElem?_modify {i : ℕ} {d' : CallConnection}
    (h : (connections.modify c f)[i]? = some d') :
    ∃ d, connections[i]? = some d ∧ (d = d' ∨ f d = d') := by
  rw [List.getElem?_modify] at h
  obtain ⟨d, hd, rfl⟩ := Option.map_eq_some_iff.1 h
  refine ⟨d, hd, ?_⟩
  split_ifs
  · exact .inr rfl
  · exact .inl rfl

namespace Weakens

theorem allClosed (hf : Weakens f) (h : AllClosed connections) :
    AllClosed (connections.modify c f) := by
  intro d' hd'
  obtain ⟨i, hi⟩ := List.mem_iff_getElem?.1 hd'
  obtain ⟨d, hd, rfl | rfl⟩ := of_getElem?_modify hi
  · exact h _ (List.mem_of_getElem? hd)
  · exact hf.closed d (h d (List.mem_of_getElem? hd))

theorem standing (hf : Weakens f) {state : CallState} {connection : Option ℕ} {i : ℕ}
    {a : CallAttempt} (h : Standing state connection connections i a) :
    Standing state connection (connections.modify c f) i a := by
  refine ⟨h.1, ?_⟩
  have hkept : ∀ k : ℕ,
      (∃ d : CallConnection, connections[k]? = some d ∧ d.attempt = i ∧ d.unit = a.unit) →
      ∃ d : CallConnection, (connections.modify c f)[k]? = some d
        ∧ d.attempt = i ∧ d.unit = a.unit := by
    rintro k ⟨d, hd, hattempt, hunit⟩
    rw [List.getElem?_modify, hd]
    by_cases hk : c = k
    · exact ⟨f d, by simp [hk], by rw [hf.attempt, hattempt], by rw [hf.unit, hunit]⟩
    · exact ⟨d, by simp [hk], hattempt, hunit⟩
  have hphase := h.2
  rcases hp : a.phase <;> simp only [hp] at hphase ⊢
  case asking | opening => exact hf.allClosed hphase
  case preparing k | starting k => exact ⟨hkept k hphase.1, hphase.2⟩
  case closing stage => exact fun hs => hf.allClosed (hphase hs)

end Weakens

theorem Inv.update (h : Inv s) (hf : Weakens f) (c : ℕ) :
    Inv (s.update c f) where
  held i d' hi hopen := by
    obtain ⟨d, hd, rfl | rfl⟩ := of_getElem?_modify hi
    · exact h.held i d hd hopen
    · refine h.held i d hd (Bool.eq_false_iff.2 fun hc => ?_)
      exact absurd (hf.closed d hc) (by simp [hopen])
  resting hc hi := hf.allClosed (h.resting hc hi)
  cut hc := hf.allClosed (h.cut hc)
  downlink i d' hi hlive := by
    obtain ⟨d, hd, rfl | rfl⟩ := of_getElem?_modify hi
    · exact h.downlink i d hd hlive
    · exact h.downlink i d hd (hf.downlink d hlive)
  uplink i d' hi hlive := by
    obtain ⟨d, hd, rfl | rfl⟩ := of_getElem?_modify hi
    · exact h.uplink i d hd hlive
    · exact h.uplink i d hd (hf.uplink d hlive)
  bridged i d' hi hlive := by
    obtain ⟨d, hd, rfl | rfl⟩ := of_getElem?_modify hi
    · exact h.bridged i d hd hlive
    · rw [hf.attempt, hf.unit]
      exact h.bridged i d hd (hlive.imp (hf.downlink d) (hf.uplink d))
  current i a hi hlast := hf.standing (h.current i a hi hlast)
  shown := h.shown
  paired := h.paired

theorem weakens_downlink : Weakens fun d : CallConnection => { d with downlink := false } where
  unit _ := rfl
  attempt _ := rfl
  closed _ hc := hc
  downlink _ hl := by simp at hl
  uplink _ hl := hl

theorem weakens_uplink : Weakens fun d : CallConnection => { d with uplink := false } where
  unit _ := rfl
  attempt _ := rfl
  closed _ hc := hc
  downlink _ hl := hl
  uplink _ hl := by simp at hl

theorem weakens_closed : Weakens fun d : CallConnection => { d with closed := true } where
  unit _ := rfl
  attempt _ := rfl
  closed _ _ := rfl
  downlink _ hl := hl
  uplink _ hl := hl

theorem weakens_watched : Weakens fun d : CallConnection => { d with watched := false } where
  unit _ := rfl
  attempt _ := rfl
  closed _ hc := hc
  downlink _ hl := hl
  uplink _ hl := hl

theorem Inv.cancelDownlink (h : Inv s) : Inv s.cancelDownlink := by
  unfold CallController.cancelDownlink
  split
  · exact h.update weakens_downlink _
  · exact h

theorem Inv.cancelUplink (h : Inv s) : Inv s.cancelUplink := by
  unfold CallController.cancelUplink
  split
  · exact h.update weakens_uplink _
  · exact h

theorem Inv.closeConnection (h : Inv s) : Inv s.closeConnection := by
  unfold CallController.closeConnection
  split
  · exact h.update weakens_closed _
  · exact h

/-- Every running downlink subscription is the one that is cancelled. -/
theorem Inv.no_downlink (h : Inv s) {i : ℕ} {d : CallConnection}
    (hi : s.cancelDownlink.connections[i]? = some d) : d.downlink = false := by
  unfold CallController.cancelDownlink at hi
  rcases hsub : s.downlinkSubscription with _ | c
  · simp only [hsub] at hi
    refine Bool.eq_false_iff.2 fun hlive => ?_
    exact absurd (h.downlink i d hi hlive).2.1 (by simp [hsub])
  · simp only [hsub, CallController.update, List.getElem?_modify] at hi
    obtain ⟨d, hd, rfl⟩ := Option.map_eq_some_iff.1 hi
    refine Bool.eq_false_iff.2 fun hlive => ?_
    split_ifs at hlive with hc
    obtain ⟨-, hsame, -⟩ := h.downlink i d hd hlive
    exact hc (Option.some.inj (hsub.symm.trans hsame))

theorem Inv.no_uplink (h : Inv s) {i : ℕ} {d : CallConnection}
    (hi : s.cancelUplink.connections[i]? = some d) : d.uplink = false := by
  unfold CallController.cancelUplink at hi
  rcases hsub : s.uplinkSubscription with _ | c
  · simp only [hsub] at hi
    refine Bool.eq_false_iff.2 fun hlive => ?_
    exact absurd (h.uplink i d hi hlive).2.1 (by simp [hsub])
  · simp only [hsub, CallController.update, List.getElem?_modify] at hi
    obtain ⟨d, hd, rfl⟩ := Option.map_eq_some_iff.1 hi
    refine Bool.eq_false_iff.2 fun hlive => ?_
    split_ifs at hlive with hc
    obtain ⟨-, hsame, -⟩ := h.uplink i d hd hlive
    exact hc (Option.some.inj (hsub.symm.trans hsame))

/-- Every open connection is the one that is closed. -/
theorem Inv.allClosed (h : Inv s) : AllClosed s.closeConnection.connections := by
  intro d' hd'
  obtain ⟨i, hi⟩ := List.mem_iff_getElem?.1 hd'
  unfold CallController.closeConnection at hi
  rcases hheld : s.connection with _ | c
  · simp only [hheld] at hi
    by_contra hopen
    exact absurd (h.held i d' hi (Bool.eq_false_iff.2 hopen)) (by simp [hheld])
  · simp only [hheld, CallController.update, List.getElem?_modify] at hi
    obtain ⟨d, hd, rfl⟩ := Option.map_eq_some_iff.1 hi
    by_contra hopen
    split_ifs at hopen with hc
    · exact hopen rfl
    · have hsame := h.held i d hd (Bool.eq_false_iff.2 hopen)
      exact hc (Option.some.inj (hheld.symm.trans hsame))

/-! ## Dials and accepts -/

theorem length_setPhase (s : CallController) (i : ℕ) (phase : AttemptPhase) :
    (s.setPhase i phase).attempts.length = s.attempts.length := List.length_modify _ _ _

/-- The other dials and accepts are where they were. -/
theorem of_getElem?_setPhase {i j : ℕ} {phase : AttemptPhase} {b : CallAttempt}
    (hj : (s.setPhase i phase).attempts[j]? = some b) :
    (j = i ∧ ∃ a, s.attempts[i]? = some a ∧ b = { a with phase })
      ∨ (j ≠ i ∧ s.attempts[j]? = some b) := by
  rw [CallController.setPhase, List.getElem?_modify] at hj
  obtain ⟨a, ha, rfl⟩ := Option.map_eq_some_iff.1 hj
  split_ifs with hij
  · subst hij
    exact .inl ⟨rfl, a, ha, rfl⟩
  · exact .inr ⟨fun he => hij he.symm, ha⟩

theorem shown_setPhase (i : ℕ) (phase : AttemptPhase)
    (h : ∃ a, s.attempts.getLast? = some a ∧ s.unit = some a.unit) :
    ∃ a, (s.setPhase i phase).attempts.getLast? = some a
      ∧ (s.setPhase i phase).unit = some a.unit := by
  obtain ⟨b, hb, hunit⟩ := h
  rw [List.getLast?_eq_getElem?] at hb
  rw [List.getLast?_eq_getElem?, length_setPhase, CallController.setPhase, List.getElem?_modify, hb]
  by_cases hij : i = s.attempts.length - 1
  · exact ⟨{ b with phase }, by simp [hij], hunit⟩
  · exact ⟨b, by simp [hij], hunit⟩

theorem Inv.setPhase (h : Inv s) {i : ℕ} {a : CallAttempt} (hi : s.attempts[i]? = some a)
    {phase : AttemptPhase} (hcur : i + 1 = s.attempts.length →
      Standing s.state s.connection s.connections i { a with phase }) :
    Inv (s.setPhase i phase) := by
  refine ⟨h.held, h.resting, h.cut, h.downlink, h.uplink, ?_, fun j b hj hlast => ?_,
    fun hs => shown_setPhase i phase (h.shown hs), h.paired⟩
  · rw [length_setPhase]
    exact h.bridged
  · rw [length_setPhase] at hlast
    rcases of_getElem?_setPhase hj with ⟨rfl, b, hb, rfl⟩ | ⟨-, hb⟩
    · obtain rfl := Option.some.inj (hi.symm.trans hb)
      exact hcur hlast
    · exact h.current j b hb hlast

/-! ## Ending a call -/

theorem end_eq (s : CallController) : s.end_ = s ∨ s.ending = none
    ∧ s.end_ = { s.cancelDownlink with ending := some .downlink } := by
  unfold end_ closeAudio
  split_ifs with hno
  · exact .inl rfl
  · refine .inr ⟨?_, ?_⟩
    · simp only [not_or, Bool.not_eq_true, Option.isSome_eq_false_iff, Option.isNone_iff_eq_none]
        at hno
      exact hno.1
    · unfold CallController.cancelDownlink
      rcases hsub : s.downlinkSubscription with _ | c <;> simp [hsub, CallController.update]

theorem Inv.end_ (h : Inv s) : Inv s.end_ := by
  rcases end_eq s with he | ⟨hnone, he⟩ <;> rw [he]
  · exact h
  · have hcut := h.cancelDownlink
    refine ⟨hcut.held, hcut.resting, fun hc => by simp at hc, fun i d hi hlive => ?_,
      fun i d hi hlive => ?_, hcut.bridged, hcut.current, hcut.shown, hcut.paired⟩
    · exact absurd hlive (by simp [h.no_downlink hi])
    · obtain ⟨hstate, hsub, -⟩ := hcut.uplink i d hi hlive
      exact ⟨hstate, hsub, .inr rfl⟩

theorem Inv.fail (h : Inv s) : Inv s.fail := by
  unfold CallController.fail
  split_ifs
  · exact h
  · exact h.end_

theorem Inv.onClosed (h : Inv s) : Inv s.onClosed := by
  unfold CallController.onClosed
  split_ifs
  · exact h
  · exact h
  · exact h.end_

theorem cancelDownlink_frame (s : CallController) : s.cancelDownlink.state = s.state
    ∧ s.cancelDownlink.attempts = s.attempts := by
  unfold CallController.cancelDownlink
  split <;> exact ⟨rfl, rfl⟩

theorem cancelUplink_frame (s : CallController) : s.cancelUplink.state = s.state
    ∧ s.cancelUplink.attempts = s.attempts ∧ s.cancelUplink.ending = s.ending := by
  unfold CallController.cancelUplink
  split <;> exact ⟨rfl, rfl, rfl⟩

theorem closeConnection_frame (s : CallController) : s.closeConnection.state = s.state
    ∧ s.closeConnection.attempts = s.attempts
    ∧ s.closeConnection.downlinkSubscription = s.downlinkSubscription
    ∧ s.closeConnection.uplinkSubscription = s.uplinkSubscription := by
  unfold CallController.closeConnection
  split <;> exact ⟨rfl, rfl, rfl, rfl⟩

theorem fail_frame (s : CallController) : s.fail.state = s.state
    ∧ s.fail.attempts = s.attempts := by
  unfold CallController.fail
  split_ifs
  · exact ⟨rfl, rfl⟩
  · rcases end_eq s with he | ⟨-, he⟩ <;> rw [he]
    · exact ⟨rfl, rfl⟩
    · exact cancelDownlink_frame s

/-- The subscriptions are dropped once none of them runs. -/
theorem Inv.dropSubscriptions (h : Inv s) (hnone : ∀ d ∈ s.connections, ¬ d.Bridged) :
    Inv { s with downlinkSubscription := none, uplinkSubscription := none } where
  held := h.held
  resting := h.resting
  cut := h.cut
  downlink _ d hi hlive := absurd (.inl hlive) (hnone d (List.mem_of_getElem? hi))
  uplink _ d hi hlive := absurd (.inr hlive) (hnone d (List.mem_of_getElem? hi))
  bridged := h.bridged
  current := h.current
  shown := h.shown
  paired := rfl

/-- The connection is dropped once none is open. -/
theorem Inv.dropConnection (h : Inv s) (hclosed : AllClosed s.connections) :
    Inv { s with connection := none } where
  held i d hi hopen := absurd (hclosed d (List.mem_of_getElem? hi)) (by simp [hopen])
  resting := h.resting
  cut := h.cut
  downlink := h.downlink
  uplink := h.uplink
  bridged i d hi hlive := ⟨(h.bridged i d hi hlive).1, (h.bridged i d hi hlive).2.1,
    fun k hk => by simp at hk⟩
  current i a hi hlast := by
    obtain ⟨hstate, hphase⟩ := h.current i a hi hlast
    refine ⟨hstate, ?_⟩
    rcases hp : a.phase <;> simp only [hp] at hphase ⊢
    case asking | opening => exact hphase
    case preparing c | starting c => exact ⟨hphase.1, fun k hk => by simp at hk⟩
    case closing stage => exact hphase
  shown := h.shown
  paired := h.paired

/-- Nothing is bridged while no call is connected. -/
theorem Inv.not_bridged (h : Inv s) (hstate : s.state ≠ .inCall) :
    ∀ d ∈ s.connections, ¬ d.Bridged := by
  intro d hd hlive
  obtain ⟨i, hi⟩ := List.mem_iff_getElem?.1 hd
  rcases hlive with hlive | hlive
  · exact hstate (h.downlink i d hi hlive).1
  · exact hstate (h.uplink i d hi hlive).1

/-- The `_closeAudio` of `_end` finds what is open, since nothing is opened meanwhile. -/
theorem Inv.closing (h : Inv s) : Inv (s.step .closing) := by
  simp only [CallController.step]
  rcases hend : s.ending with _ | _ | _ | _ | _ <;> simp only [CloseStage.next, closeStep]
  case none => exact h
  case some.downlink =>
    have hcut := h.cancelUplink
    refine ⟨hcut.held, hcut.resting, fun hc => by simp at hc, fun i d hi hlive => ?_,
      fun i d hi hlive => ?_, hcut.bridged, hcut.current, hcut.shown, hcut.paired⟩
    · have hnone := (hcut.downlink i d hi hlive).2.2
      rw [(cancelUplink_frame s).2.2, hend] at hnone
      cases hnone
    · exact absurd hlive (by simp [h.no_uplink hi])
  case some.uplink =>
    have hlive : ∀ d ∈ s.connections, ¬ d.Bridged := by
      intro d hd hb
      obtain ⟨i, hi⟩ := List.mem_iff_getElem?.1 hd
      rcases hb with hb | hb
      · exact absurd (h.downlink i d hi hb).2.2 (by simp [hend])
      · exact absurd (h.uplink i d hi hb).2.2 (by simp [hend])
    have hdrop := h.dropSubscriptions hlive
    have hclose := hdrop.closeConnection
    obtain ⟨-, -, hdown, hup⟩ := closeConnection_frame
      { s with downlinkSubscription := none, uplinkSubscription := none }
    refine ⟨hclose.held, hclose.resting, fun _ => hdrop.allClosed, fun i d hi hb => ?_,
      fun i d hi hb => ?_, hclose.bridged, hclose.current, hclose.shown,
      hclose.paired⟩
    · exact absurd (hclose.downlink i d hi hb).2.1 (by simp [hdown])
    · exact absurd (hclose.uplink i d hi hb).2.1 (by simp [hup])
  case some.connection =>
    have hclosed := h.cut (.inl hend)
    have hdrop := h.dropConnection hclosed
    refine ⟨hdrop.held, hdrop.resting, fun _ => hclosed, fun i d hi hb => ?_,
      fun i d hi hb => ?_, hdrop.bridged, hdrop.current, hdrop.shown, h.paired⟩
    · exact absurd (h.downlink i d hi hb).2.2 (by simp [hend])
    · exact absurd (h.uplink i d hi hb).2.2 (by simp [hend])
  case some.audio =>
    have hclosed := h.cut (.inr hend)
    refine ⟨h.held, fun _ _ => hclosed, fun hc => by simp at hc, fun i d hi hb => ?_,
      fun i d hi hb => ?_, h.bridged, fun i a hi hlast => ?_, fun hs => by simp at hs,
      h.paired⟩
    · exact absurd (h.downlink i d hi hb).2.2 (by simp [hend])
    · exact absurd (h.uplink i d hi hb).2.2 (by simp [hend])
    · exact ⟨fun _ => by simp, (h.current i a hi hlast).2⟩

/-! ## The steps of a dial or an accept -/

theorem Inv.catchFailure (h : Inv s) {i : ℕ} {a : CallAttempt} (hi : s.attempts[i]? = some a)
    (hphase : a.phase ≠ .finished) : Inv (s.catchFailure i) := by
  have hfail := h.fail
  obtain ⟨hstate, hattempts⟩ := fail_frame s
  obtain ⟨hstate', hattempts'⟩ := cancelDownlink_frame s.fail
  refine hfail.cancelDownlink.setPhase (a := a) (by rw [hattempts', hattempts, hi]) fun hlast =>
    ⟨fun _ => ?_, fun hs => ?_⟩
  · rw [hattempts', hattempts] at hlast
    rw [hstate', hstate]
    exact (h.current i a hi hlast).1 hphase
  · simp at hs

theorem Inv.closeStep (h : Inv s) {i : ℕ} {a : CallAttempt} (hi : s.attempts[i]? = some a)
    {stage : CloseStage} (hphase : a.phase = .closing stage)
    (hown : s.OwnCall (.resumed i)) : Inv (s.step (.resumed i)) := by
  have hlen : i + 1 = s.attempts.length ∨ i + 1 < s.attempts.length := by
    have := (List.getElem?_eq_some_iff.1 hi).1
    omega
  have hlate := hown a hi
  simp only [hphase] at hlate
  have hcurrent : i + 1 = s.attempts.length → s.state ≠ .inCall ∧
      (stage = .connection ∨ stage = .audio → AllClosed s.connections) := fun hlast => by
    obtain ⟨hstate, hclosed⟩ := h.current i a hi hlast
    simp only [hphase] at hclosed
    exact ⟨hstate (by simp [hphase]), hclosed⟩
  simp only [CallController.step, hi, resume, hphase]
  cases stage with
  | downlink =>
    obtain ⟨hstate, hattempts, -⟩ := cancelUplink_frame s
    refine h.cancelUplink.setPhase (a := a) (hattempts ▸ hi) fun hlast => ⟨fun _ => ?_, ?_⟩
    · rw [hattempts] at hlast
      exact hstate ▸ (hcurrent hlast).1
    · simp [CloseStage.next]
  | uplink =>
    have hnone : ∀ d ∈ s.connections, ¬ d.Bridged := by
      rcases hlen with hlast | hlt
      · exact h.not_bridged (hcurrent hlast).1
      · exact hlate hlt
    have hdrop := h.dropSubscriptions hnone
    obtain ⟨hstate, hattempts, -⟩ := closeConnection_frame
      { s with downlinkSubscription := none, uplinkSubscription := none }
    refine hdrop.closeConnection.setPhase (a := a) (by rw [hattempts]; exact hi) fun hlast =>
      ⟨fun _ => ?_, ?_⟩
    · rw [hattempts] at hlast
      rw [hstate]
      exact (hcurrent hlast).1
    · exact fun _ => hdrop.allClosed
  | connection =>
    have hclosed : AllClosed s.connections := by
      rcases hlen with hlast | hlt
      · exact (hcurrent hlast).2 (.inl rfl)
      · exact hlate hlt
    exact (h.dropConnection hclosed).setPhase (a := a) hi fun hlast =>
      ⟨fun _ => (hcurrent hlast).1, fun _ => hclosed⟩
  | audio =>
    refine h.setPhase hi fun hlast => ⟨fun hne => absurd rfl hne, ?_⟩
    simp [CloseStage.next]

/-- `_bridge` goes no further. -/
theorem Inv.finish (h : Inv s) {i : ℕ} {a : CallAttempt} (hi : s.attempts[i]? = some a) :
    Inv (s.setPhase i .finished) :=
  h.setPhase hi fun _ => ⟨fun hne => absurd rfl hne, trivial⟩

theorem Inv.bridge (h : Inv s) {i : ℕ} {a : CallAttempt} (hi : s.attempts[i]? = some a)
    (hphase : a.phase = .asking) : Inv (s.bridge i) := by
  unfold CallController.bridge
  split_ifs with hlive
  · refine h.setPhase hi fun hlast => ⟨fun _ => by simp [hlive.1], ?_⟩
    have hclosed := (h.current i a hi hlast).2
    simp only [hphase] at hclosed
    exact hclosed
  · exact h.finish hi

theorem not_cut {ending : Option CloseStage} (h : ending = none) :
    ¬ (ending = some .connection ∨ ending = some .audio) := by
  simp [h]

theorem AllClosed.concat {connections : List CallConnection} {c : CallConnection}
    (h : AllClosed connections) (hc : c.closed = true) : AllClosed (connections ++ [c]) := by
  intro d hd
  rcases List.mem_append.1 hd with hd | hd
  · exact h d hd
  · exact List.mem_singleton.1 hd ▸ hc

theorem getElem?_concat {connections : List CallConnection} {c d : CallConnection} {j : ℕ}
    (h : (connections ++ [c])[j]? = some d) :
    connections[j]? = some d ∨ j = connections.length ∧ d = c := by
  rcases Nat.lt_trichotomy j connections.length with hlt | rfl | hgt
  · exact .inl (by rwa [List.getElem?_append_left hlt] at h)
  · rw [List.getElem?_concat_length] at h
    exact .inr ⟨rfl, (Option.some.inj h).symm⟩
  · rw [List.getElem?_eq_none (by simpa using hgt)] at h
    cases h

theorem standing_concat {state : CallState} {connection : Option ℕ}
    {connections : List CallConnection} {i : ℕ} {a : CallAttempt} {c : CallConnection}
    (h : Standing state connection connections i a) (hc : c.closed = true) :
    Standing state connection (connections ++ [c]) i a := by
  have hkept : ∀ k : ℕ,
      (∃ d : CallConnection, connections[k]? = some d ∧ d.attempt = i ∧ d.unit = a.unit) →
      ∃ d : CallConnection, (connections ++ [c])[k]? = some d ∧ d.attempt = i
        ∧ d.unit = a.unit := by
    rintro k ⟨d, hd, hattempt, hunit⟩
    refine ⟨d, ?_, hattempt, hunit⟩
    rw [List.getElem?_append_left (List.getElem?_eq_some_iff.1 hd).1, hd]
  refine ⟨h.1, ?_⟩
  have hphase := h.2
  rcases hp : a.phase <;> simp only [hp] at hphase ⊢
  case asking | opening => exact hphase.concat hc
  case preparing k | starting k => exact ⟨hkept k hphase.1, hphase.2⟩
  case closing stage => exact fun hs => (hphase hs).concat hc

/-- A connection that came too late is closed at once. -/
theorem Inv.discard (h : Inv s) {c : CallConnection} (hc : c.closed = true)
    (hb : ¬ c.Bridged) : Inv { s with connections := s.connections ++ [c] } := by
  refine ⟨fun i d hi hopen => ?_, fun h₁ h₂ => (h.resting h₁ h₂).concat hc,
    fun hcut => (h.cut hcut).concat hc, fun i d hi hlive => ?_, fun i d hi hlive => ?_,
    fun i d hi hlive => ?_, fun i a hi hlast => standing_concat (h.current i a hi hlast) hc,
    h.shown, h.paired⟩ <;> rcases getElem?_concat hi with hi | ⟨rfl, rfl⟩
  · exact h.held i d hi hopen
  · exact absurd hc (by simp [hopen])
  · exact h.downlink i d hi hlive
  · exact absurd (.inl hlive) hb
  · exact h.uplink i d hi hlive
  · exact absurd (.inr hlive) hb
  · exact h.bridged i d hi hlive
  · exact absurd hlive hb

/-- `socketFactory` returns: the call that takes the connection had none that is open. -/
theorem Inv.connected (h : Inv s) {i : ℕ} {a : CallAttempt} (hi : s.attempts[i]? = some a)
    (hphase : a.phase = .opening) (hown : s.Live → i + 1 = s.attempts.length) :
    Inv (s.connected i a) := by
  unfold CallController.connected
  split_ifs with hlive
  · have hlast := hown hlive
    have hclosed : AllClosed s.connections := by
      have hstand := (h.current i a hi hlast).2
      simpa only [hphase] using hstand
    have hquiet : ∀ d ∈ s.connections, ¬ d.Bridged := h.not_bridged (by simp [hlive.1])
    refine ⟨fun j d hj hopen => ?_, fun hs => absurd hlive.1 hs,
      fun hcut => absurd hcut (not_cut hlive.2), fun j d hj hb => ?_, fun j d hj hb => ?_,
      fun j d hj hb => ?_, fun j b hj hjlast => ?_,
      fun hs => shown_setPhase i _ (h.shown hs), h.paired⟩
    · rcases getElem?_concat hj with hj | ⟨rfl, rfl⟩
      · exact absurd (hclosed d (List.mem_of_getElem? hj)) (by simp [hopen])
      · rfl
    · rcases getElem?_concat hj with hj | ⟨rfl, rfl⟩
      · exact absurd (.inl hb) (hquiet d (List.mem_of_getElem? hj))
      · cases hb
    · rcases getElem?_concat hj with hj | ⟨rfl, rfl⟩
      · exact absurd (.inr hb) (hquiet d (List.mem_of_getElem? hj))
      · cases hb
    · rcases getElem?_concat hj with hj | ⟨rfl, rfl⟩
      · exact absurd hb (hquiet d (List.mem_of_getElem? hj))
      · simp [CallConnection.Bridged] at hb
    · rcases of_getElem?_setPhase hj with ⟨rfl, b, hb, rfl⟩ | ⟨hne, -⟩
      · obtain rfl := Option.some.inj (hi.symm.trans hb)
        refine ⟨fun _ => by simp [CallController.setPhase, hlive.1], ⟨_,
          List.getElem?_concat_length, rfl, rfl⟩, fun k hk => (Option.some.inj hk).symm⟩
      · rw [length_setPhase] at hjlast
        exact absurd (Nat.succ.inj (hjlast.trans hlast.symm)) hne
  · refine (h.discard rfl (by simp [CallConnection.Bridged])).setPhase hi fun hlast =>
      ⟨fun _ => (h.current i a hi hlast).1 (by simp [hphase]), trivial⟩

/-- `audio.start` returns: the call that is connected now is the one on screen. -/
theorem Inv.started (h : Inv s) {i c : ℕ} {a : CallAttempt} (hi : s.attempts[i]? = some a)
    (hphase : a.phase = .starting c) (hown : s.Live → i + 1 = s.attempts.length) :
    Inv (s.started i c) := by
  unfold CallController.started
  split_ifs with hlive
  · have hlast := hown hlive
    obtain ⟨-, hstand⟩ := h.current i a hi hlast
    simp only [hphase] at hstand
    obtain ⟨⟨e, he, hattempt, hunit⟩, hheld⟩ := hstand
    obtain ⟨b, hb, hshown⟩ := h.shown (.inl hlive.1)
    have hsame : a = b := by
      rw [List.getLast?_eq_getElem?, ← hlast, Nat.add_sub_cancel, hi] at hb
      exact Option.some.inj hb
    subst hsame
    have hquiet : ∀ d ∈ s.connections, ¬ d.Bridged := h.not_bridged (by simp [hlive.1])
    have hbridged : ∀ (j : ℕ) (d : CallConnection), (s.connections.modify c fun d =>
        { d with downlink := true, uplink := true })[j]? = some d → d.Bridged →
        j = c ∧ d.attempt = e.attempt ∧ d.unit = e.unit := fun j d hj hb => by
      rw [List.getElem?_modify] at hj
      obtain ⟨d, hd, rfl⟩ := Option.map_eq_some_iff.1 hj
      split_ifs at hb with hcj
      · subst hcj
        obtain rfl := Option.some.inj (he.symm.trans hd)
        simp
      · exact absurd hb (hquiet d (List.mem_of_getElem? hd))
    refine ⟨fun j d hj hopen => ?_, fun _ hs => absurd rfl hs,
      fun hcut => absurd hcut (not_cut hlive.2), fun j d hj hb => ?_, fun j d hj hb => ?_,
      fun j d hj hb => ?_, fun j b hj hjlast => ?_,
      fun _ => shown_setPhase i _ ⟨a, hb, hshown⟩, rfl⟩
    · obtain ⟨d, hd, rfl | rfl⟩ := of_getElem?_modify hj
      · exact h.held j d hd hopen
      · exact h.held j d hd hopen
    · obtain ⟨rfl, -⟩ := hbridged j d hj (.inl hb)
      exact ⟨rfl, rfl, hlive.2⟩
    · obtain ⟨rfl, -⟩ := hbridged j d hj (.inr hb)
      exact ⟨rfl, rfl, .inl hlive.2⟩
    · obtain ⟨rfl, hd, hu⟩ := hbridged j d hj hb
      rw [length_setPhase, hd, hu, hattempt, hunit]
      exact ⟨hlast, hshown, hheld⟩
    · rcases of_getElem?_setPhase hj with ⟨rfl, b, -, rfl⟩ | ⟨hne, -⟩
      · exact ⟨fun hne => absurd rfl hne, trivial⟩
      · rw [length_setPhase] at hjlast
        exact absurd (Nat.succ.inj (hjlast.trans hlast.symm)) hne
  · exact h.setPhase hi fun hlast =>
      ⟨fun _ => (h.current i a hi hlast).1 (by simp [hphase]), trivial⟩

theorem Inv.resume (h : Inv s) {i : ℕ} {a : CallAttempt} (hi : s.attempts[i]? = some a)
    (hown : s.OwnCall (.resumed i)) : Inv (s.step (.resumed i)) := by
  have hlast : ∀ (c : ℕ), a.phase = .opening ∨ a.phase = .starting c → s.Live →
      i + 1 = s.attempts.length := by
    intro c hphase hlive
    have hlt := (List.getElem?_eq_some_iff.1 hi).1
    by_contra hne
    have hlate := hown a hi (by omega)
    rcases hphase with hphase | hphase <;> simp only [hphase] at hlate <;> exact hlate hlive
  rcases hphase : a.phase
  case closing stage => exact h.closeStep hi hphase hown
  all_goals simp only [CallController.step, hi, CallController.resume, hphase]
  case asking => exact h
  case opening => exact h.connected hi hphase (hlast 0 (.inl hphase))
  case preparing c =>
    split_ifs with hlive
    · refine h.setPhase hi fun hcur => ⟨fun _ => by simp [hlive.1], ?_⟩
      have hstand := (h.current i a hi hcur).2
      simpa only [hphase] using hstand
    · exact h.finish hi
  case starting c => exact h.started hi hphase (hlast c (.inr hphase))
  case discarding => exact h.finish hi
  case finished => exact h

/-! ## The controls and the events -/

theorem Inv.begin (h : Inv s) (hclosed : AllClosed s.connections)
    (hquiet : s.state ≠ .inCall) (unit : String) (dialled : Bool) (caller : Option String)
    (outgoing : Bool) (placedAt : Option ℤ) :
    Inv ({ s with unit := some unit, caller, outgoing, placedAt }.begin unit dialled) := by
  have hnone := h.not_bridged hquiet
  refine ⟨h.held, fun hs => absurd rfl hs, h.cut, fun i d hi hb => ?_, fun i d hi hb => ?_,
    fun i d hi hb => absurd hb (hnone d (List.mem_of_getElem? hi)), fun i a hi hlast => ?_,
    fun _ => ⟨_, List.getLast?_concat, rfl⟩, h.paired⟩
  · exact absurd (.inl hb) (hnone d (List.mem_of_getElem? hi))
  · exact absurd (.inr hb) (hnone d (List.mem_of_getElem? hi))
  · simp only [CallController.begin, List.length_append, List.length_singleton] at hi hlast
    obtain rfl : i = s.attempts.length := by omega
    rw [List.getElem?_concat_length] at hi
    obtain rfl := Option.some.inj hi
    exact ⟨fun _ => by simp [CallController.begin], hclosed⟩

/-- No call is connecting or connected before the step nor after it. -/
theorem Inv.rest (h : Inv s) (hconnecting : s.state ≠ .connecting) (hinCall : s.state ≠ .inCall)
    {state : CallState} (hconnecting' : state ≠ .connecting) (hinCall' : state ≠ .inCall)
    (unit caller : Option String) (outgoing : Bool) (placedAt : Option ℤ) :
    Inv { s with state, unit, caller, outgoing, placedAt } := by
  have hnone := h.not_bridged hinCall
  refine ⟨h.held, fun _ _ => h.resting hconnecting hinCall, h.cut, fun i d hi hb => ?_,
    fun i d hi hb => ?_, fun i d hi hb => absurd hb (hnone d (List.mem_of_getElem? hi)),
    fun i a hi hlast => ⟨fun _ => hinCall', (h.current i a hi hlast).2⟩, fun hs => ?_,
    h.paired⟩
  · exact absurd (.inl hb) (hnone d (List.mem_of_getElem? hi))
  · exact absurd (.inr hb) (hnone d (List.mem_of_getElem? hi))
  · exact absurd hs (not_or.2 ⟨hconnecting', hinCall'⟩)

/-- Neither the time of the dial nor the waiting `hangup`s and `reject`s matter. -/
theorem Inv.frame (h : Inv s) (placedAt : Option ℤ) (hangups rejects : ℕ) :
    Inv { s with placedAt, hangups, rejects } :=
  ⟨h.held, h.resting, h.cut, h.downlink, h.uplink, h.bridged, h.current, h.shown, h.paired⟩

theorem Inv.onEvent (h : Inv s) (e : Row) : Inv (s.onEvent e) := by
  unfold CallController.onEvent
  split_ifs with hkind hring hbusy
  · exact h
  · exact h
  · exact h.rest (fun hs => hbusy (.inl hs)) (fun hs => hbusy (.inr hs)) (by simp) (by simp) _ _ _ _
  · exact h.rest (fun hs => hbusy (.inl hs)) (fun hs => hbusy (.inr hs)) (by simp) (by simp) _ _ _ _
  · exact h
  · exact h.end_
  · exact h
  · split
    · split_ifs
      · exact h
      · exact h.end_
    · exact h.end_

theorem Inv.step (h : Inv s) (a : Action) (hown : s.OwnCall a) : Inv (s.step a) := by
  cases a with
  | event e => exact h.onEvent e
  | dial unit callee =>
    simp only [CallController.step]
    split_ifs with hbusy
    · exact h
    · have hfree : s.state = .idle ∨ s.state = .ended := by tauto
      have hclosed := h.resting (by rcases hfree with hs | hs <;> simp [hs])
        (by rcases hfree with hs | hs <;> simp [hs])
      exact h.begin hclosed (by rcases hfree with hs | hs <;> simp [hs]) unit true _ _ _
  | accept =>
    simp only [CallController.step]
    rcases hunit : s.unit with _ | unit
    · exact h
    · simp only
      split_ifs with hring
      · exact h
      · have hs : s.state = .ringing := not_not.1 hring
        have hbegin := h.begin (h.resting (by simp [hs]) (by simp [hs])) (by simp [hs]) unit false
          s.caller s.outgoing s.placedAt
        rwa [← hunit] at hbegin
  | reject =>
    simp only [CallController.step]
    split_ifs
    · exact h
    · exact h.frame _ _ _
  | hangup =>
    simp only [CallController.step]
    split_ifs
    · exact h.frame _ _ _
    · exact h.end_
  | dismissEnded =>
    simp only [CallController.step]
    split_ifs with hs
    · exact h
    · have hs : s.state = .ended := not_not.1 hs
      exact h.rest (by simp [hs]) (by simp [hs]) (by simp) (by simp) _ _ _ _
  | answered i placedAt =>
    simp only [CallController.step]
    rcases hi : s.attempts[i]? with _ | a
    · exact h
    · simp only
      split_ifs with hphase hdial
      · exact h
      · exact (h.frame placedAt s.hangups s.rejects).bridge hi (not_not.1 hphase)
      · exact h.bridge hi (not_not.1 hphase)
  | resumed i =>
    rcases hi : s.attempts[i]? with _ | a
    · simpa only [CallController.step, hi] using h
    · exact h.resume hi hown
  | raised i =>
    simp only [CallController.step]
    rcases hi : s.attempts[i]? with _ | a
    · exact h
    · rcases hphase : a.phase <;> simp only [hphase]
      case closing | finished => exact h
      all_goals exact h.catchFailure hi (by simp [hphase])
  | hungUp =>
    simp only [CallController.step]
    split_ifs
    · exact h
    · exact (h.frame s.placedAt (s.hangups - 1) s.rejects).end_
  | rejected =>
    simp only [CallController.step]
    split_ifs
    · exact h
    · exact (h.frame s.placedAt s.hangups (s.rejects - 1)).end_
  | closing => exact h.closing
  | closed c =>
    simp only [CallController.step]
    split
    · exact h
    · split_ifs
      · exact (h.update weakens_watched c).onClosed
      · exact h
  | failed => exact h.fail

/-- The subscriptions that run are those to one connection. -/
theorem Inv.subscribed (h : Inv s) {i : ℕ} {d : CallConnection} (hi : s.connections[i]? = some d)
    (hb : d.Bridged) : s.downlinkSubscription = some i := by
  rcases hb with hb | hb
  · exact (h.downlink i d hi hb).2.1
  · exact h.paired ▸ (h.uplink i d hi hb).2.1

theorem Inv.audioSafe (h : Inv s) : AudioSafe s where
  single c d hc hd := by
    have hheld : ∀ k l, s.connection = some k → (∃ e, s.connections[l]? = some e ∧ e.Bridged) →
        k = l := fun k l hk ⟨e, hl, hb⟩ => (h.bridged l e hl hb).2.2 k hk
    rcases hc with hc | ⟨e, hc, hb⟩ <;> rcases hd with hd | ⟨e', hd, hb'⟩
    · exact Option.some.inj (hc.symm.trans hd)
    · exact hheld c d hc ⟨e', hd, hb'⟩
    · exact (hheld d c hd ⟨e, hc, hb⟩).symm
    · exact Option.some.inj ((h.subscribed hc hb).symm.trans (h.subscribed hd hb'))
  closed hs _ := by
    rcases hs with hs | hs <;> exact h.resting (by simp [hs]) (by simp [hs])
  shown _ c d hc hb := ⟨(h.bridged c d hc hb).1, (h.bridged c d hc hb).2.1⟩

/-- In a run where no dial or accept reaches the call of a later one, every connection is closed
and the audio is that of the call on screen. -/
theorem audioSafe_of_ownCall (as : List Action) (hown : Run.Meets step OwnCall start as) :
    Run.Always step AudioSafe start as :=
  Run.always_of_meets (fun _ h => h.audioSafe) (fun _ a h hc => h.step a hc) as inv_start hown

/-- A call is hung up while the unit dials, its dial is answered, and the next one is connected
and hung up. -/
theorem audioSafe_in_turn : Run.Always step AudioSafe start
    [.dial "lisa01" "100", .hangup, .hungUp, .closing, .closing, .closing, .closing,
      .answered 0 (some 5), .dial "lisa02" "200", .answered 1 (some 9), .resumed 1, .resumed 1,
      .resumed 1, .hangup, .hungUp, .closing, .closing, .closing, .closing] :=
  audioSafe_of_ownCall _ (by decide +kernel)

/-- A call is hung up while the unit dials and another unit is dialled, before the first has
answered. -/
def redial : List Action :=
  [.dial "lisa01" "100", .hangup, .hungUp, .closing, .closing, .closing, .closing,
    .dial "lisa02" "200", .answered 0 (some 5)]

/-- Both units answer and the second call is ended. -/
def bothOpened : List Action :=
  redial ++ ([.answered 1 (some 9), .resumed 0, .resumed 1, .hangup, .hungUp, .closing, .closing,
    .closing, .closing, .resumed 0, .resumed 1] : List Action)

/-- The microphone is bridged to the first unit while the screen shows the second; and where both
are opened, the first one's connection is never closed. -/
theorem redial_bridges_other_unit :
    (¬ ∀ as, Run.Always step AudioSafe start as)
    ∧ (Run.final step start bothOpened).Quiet
    ∧ ∃ d ∈ (Run.final step start bothOpened).connections,
      d.unit = "lisa01" ∧ d.closed = false := by
  refine ⟨fun h => ?_, by decide +kernel, by decide +kernel⟩
  have hsafe := (h (redial ++ List.replicate 3 (.resumed 0))).final
  have hshown := hsafe.shown (by decide +kernel) 0 ⟨"lisa01", 0, false, true, true, true⟩
    (by decide +kernel) (.inl rfl)
  exact absurd hshown.2 (by decide +kernel)

end CallController

end Rackphone
