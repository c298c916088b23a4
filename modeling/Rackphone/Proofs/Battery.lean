import Rackphone.Battery

/-!
# What the marker vouches for

Where every node stores what is written to it, a suspension leaves the selected node at its suspend
value with the marker there, and a resume leaves no node so and no marker. A probe writes the resume
value of the first writable node and leaves the marker, and the guard, which finds the marker
there, does not suspend again.
-/

namespace Rackphone

theorem Candidate.suspend_ne_resume (c : Candidate) : c.suspend ≠ c.resume := by
  cases c <;> decide

theorem mem_CANDIDATES (c : Candidate) : c ∈ CANDIDATES := by
  cases c <;> decide

namespace Battery

variable {b : Battery} {c c' : Candidate} {v : String} {pinned : String}

/-- The candidates of the device: one is writable, and a write to one takes effect. -/
structure Honest (b : Battery) : Prop where
  stores : ∀ c n, b.nodes c = some n → n.onWrite = .stores
  writable : ∃ c, (b.nodes c).isSome

/-- What a write that takes effect leaves. -/
def put (b : Battery) (c : Candidate) (v : String) : Battery :=
  { b with nodes := Function.update b.nodes c (some ⟨v, .stores⟩) }

theorem echo_of_isSome (h : b.Honest) (hc : (b.nodes c).isSome) (v : String) :
    b.echo c v = some (b.put c v) := by
  obtain ⟨n, hn⟩ := Option.isSome_iff_exists.1 hc
  have hst := h.stores c n hn
  simp [echo, hn, Node.write, hst, put]

theorem echo_of_isNone (hc : ¬ (b.nodes c).isSome) (v : String) : b.echo c v = none := by
  rw [Option.not_isSome_iff_eq_none] at hc
  simp [echo, hc]

@[simp] theorem cat_put : (b.put c v).cat c' = if c' = c then some v else b.cat c' := by
  unfold put cat
  by_cases h : c' = c
  · simp [h]
  · simp [h]

theorem isSome_put (hc : (b.nodes c).isSome) :
    ((b.put c v).nodes c').isSome = (b.nodes c').isSome := by
  unfold put
  by_cases h : c' = c
  · simp [h, hc]
  · simp [Function.update_of_ne h]

theorem Honest.put (h : b.Honest) (c : Candidate) (v : String) : (b.put c v).Honest where
  stores c' n hn := by
    by_cases hc : c' = c
    · simp only [Battery.put, hc, Function.update_self, Option.some.injEq] at hn
      rw [← hn]
    · simp only [Battery.put, Function.update_of_ne hc] at hn
      exact h.stores c' n hn
  writable := ⟨c, by simp [Battery.put]⟩

theorem Honest.of_nodes {b' : Battery} (h : b.Honest) (hn : b'.nodes = b.nodes) : b'.Honest :=
  ⟨hn ▸ h.stores, hn ▸ h.writable⟩

theorem holds_iff : b.Holds c ↔ b.cat c = some c.suspend := Iff.rfl

theorem Holds.isSome (h : b.Holds c) : (b.nodes c).isSome := by
  rw [Option.isSome_iff_exists]
  obtain ⟨n, hn, -⟩ := Option.map_eq_some_iff.1 h
  exact ⟨n, hn⟩

theorem holds_put_suspend : (b.put c c.suspend).Holds c := by
  simp [holds_iff]

theorem not_holds_put_resume : ¬ (b.put c c.resume).Holds c := by
  simp [holds_iff, c.suspend_ne_resume.symm]

theorem holds_put_of_ne (h : c' ≠ c) : (b.put c v).Holds c' ↔ b.Holds c' := by
  simp [holds_iff, h]

/-! ### What a probe does -/

/-- What is left by a probe that finds `c`. -/
def probe (b : Battery) (c : Candidate) : Battery := { b.put c c.resume with method := some c }

theorem detectFrom_eq (h : b.Honest) : ∀ cs : List Candidate,
    detectFrom cs b = match cs.find? fun c => (b.nodes c).isSome with
      | none => (b, none)
      | some c => (b.probe c, some c)
  | [] => rfl
  | c :: cs => by
    unfold detectFrom
    by_cases hc : (b.nodes c).isSome
    · simp only [echo_of_isSome h hc, cat_put, if_true, List.find?_cons, hc]
      rfl
    · simp only [echo_of_isNone hc, List.find?_cons, hc]
      exact detectFrom_eq h cs

theorem detect_eq (h : b.Honest) :
    ∃ c, (b.nodes c).isSome ∧ b.detect = (b.probe c, some c) := by
  unfold detect
  rw [detectFrom_eq h]
  obtain ⟨c₀, hc₀⟩ := h.writable
  rcases hf : CANDIDATES.find? fun c => (b.nodes c).isSome with _ | c
  · exact absurd hc₀ (List.find?_eq_none.1 hf c₀ (mem_CANDIDATES c₀))
  · have hc := List.find?_some hf
    exact ⟨c, hc, rfl⟩

theorem usable_eq_some : b.usable = some c ↔ b.method = some c ∧ (b.nodes c).isSome := by
  simp [usable, Option.filter_eq_some_iff]

theorem methodEntry_eq (hp : isPinned pinned = false) :
    b.methodEntry pinned = match b.usable with
      | some c => (b, some c)
      | none => b.detect := by
  unfold methodEntry
  rw [hp]
  rfl

theorem methodEntry_of_usable (hp : isPinned pinned = false) (hc : b.usable = some c) :
    b.methodEntry pinned = (b, some c) := by
  rw [methodEntry_eq hp, hc]

/-! ### What a suspension and a resume do -/

/-- A suspension leaves the selected node at its suspend value, and the cache naming it. -/
theorem suspendCharging_eq (h : b.Honest) (hp : isPinned pinned = false) :
    ∃ (b' : Battery) (c : Candidate), b'.Honest ∧ b'.usable = some c
      ∧ b.suspendCharging pinned = ({ b'.put c c.suspend with suspended := true }, true) := by
  have hentry : ∃ (b' : Battery) (c : Candidate), b'.Honest ∧ b'.usable = some c
      ∧ b.methodEntry pinned = (b', some c) := by
    rcases hu : b.usable with _ | c
    · obtain ⟨c, hc, hd⟩ := detect_eq h
      refine ⟨b.probe c, c, (h.put c c.resume).of_nodes rfl, ?_, ?_⟩
      · exact usable_eq_some.2 ⟨rfl, (isSome_put hc).trans hc⟩
      · rw [methodEntry_eq hp, hu]
        exact hd
    · exact ⟨b, c, h, hu, methodEntry_of_usable hp hu⟩
  obtain ⟨b', c, h', hu, he⟩ := hentry
  refine ⟨b', c, h', hu, ?_⟩
  unfold suspendCharging
  simp only [he, echo_of_isSome h' (usable_eq_some.1 hu).2]

/-- A resume reaches every candidate it lists and suspends none. -/
theorem resumeAll_spec : ∀ {b : Battery} (_ : b.Honest) (cs : List Candidate),
    (resumeAll cs b).1.Honest ∧ (∀ c, ¬ b.Holds c → ¬ (resumeAll cs b).1.Holds c)
      ∧ ∀ c ∈ cs, ¬ (resumeAll cs b).1.Holds c
  | b, h, [] => ⟨h, fun _ hc => hc, fun _ hc => nomatch hc⟩
  | b, h, c₀ :: cs => by
    unfold resumeAll
    by_cases hc₀ : (b.nodes c₀).isSome
    · simp only [echo_of_isSome h hc₀]
      obtain ⟨hh, hkeep, hall⟩ := resumeAll_spec (h.put c₀ c₀.resume) cs
      have hput : ∀ c, ¬ b.Holds c → ¬ (b.put c₀ c₀.resume).Holds c := by
        intro c hc
        by_cases he : c = c₀
        · exact he ▸ not_holds_put_resume
        · rwa [holds_put_of_ne he]
      refine ⟨hh, fun c hc => hkeep c (hput c hc), fun c hc => ?_⟩
      rcases List.mem_cons.1 hc with rfl | hc
      · exact hkeep c not_holds_put_resume
      · exact hall c hc
    · simp only [echo_of_isNone hc₀]
      obtain ⟨hh, hkeep, hall⟩ := resumeAll_spec h cs
      refine ⟨hh, hkeep, fun c hc => ?_⟩
      rcases List.mem_cons.1 hc with rfl | hc
      · exact hkeep c fun hh => hc₀ hh.isSome
      · exact hall c hc

theorem Honest.resumeCharging (h : b.Honest) : b.resumeCharging.1.Honest :=
  (resumeAll_spec h CANDIDATES).1.of_nodes rfl

theorem not_holds_resumeCharging (h : b.Honest) (c : Candidate) : ¬ b.resumeCharging.1.Holds c :=
  (resumeAll_spec h CANDIDATES).2.2 c (mem_CANDIDATES c)

end Battery

/-! ### What a pass decides -/

section Decision

variable {s : Settings} {capacity : String}

theorem decision_of_released (h : Released s capacity) (suspended : Bool) :
    decision s capacity suspended = .resume
      ∨ suspended = false ∧ decision s capacity suspended = .keep := by
  by_cases hwin : s.maxp ≤ s.minp
  · simp only [decision, if_pos hwin, true_or]
  rcases hcap : digits capacity with _ | cap
  · simp only [decision, if_neg hwin, hcap, true_or]
  simp only [decision, if_neg hwin, hcap]
  cases suspended with
  | true =>
    refine .inl ?_
    simp only [if_true]
    rcases h with h | h | h
    · exact absurd h hwin
    · rw [if_pos h]
    · rcases h cap hcap with h | h
      · rw [if_pos h, ite_self]
      · have hlt : ¬ s.maxp ≤ cap := by omega
        rw [if_neg hlt, if_pos h, ite_self, ite_self]
  | false =>
    refine .inr ⟨rfl, ?_⟩
    simp only [Bool.false_eq_true, if_false, ite_self]
    rcases h with h | h | h
    · exact absurd h hwin
    · rw [if_pos h]
    · rcases h cap hcap with h | h
      · rw [if_pos h, ite_self]
      · have hlt : ¬ s.maxp ≤ cap := by omega
        rw [if_neg hlt, ite_self, ite_self]

theorem decision_of_full (h : Full s capacity) (suspended : Bool) :
    decision s capacity suspended = if suspended then .keep else .suspend := by
  obtain ⟨hwin, hen, cap, hcap, hmax, hfloor⟩ := h
  have hfloor' : ¬ cap ≤ s.floor := by omega
  have hwin' : ¬ s.maxp ≤ s.minp := by omega
  simp only [decision, hcap, hen, ne_eq, not_true_eq_false, if_false, if_neg hwin', if_neg hfloor',
    if_pos hmax]

theorem decision_of_between (hr : ¬ Released s capacity) (hf : ¬ Full s capacity)
    (suspended : Bool) : decision s capacity suspended = .keep := by
  unfold Released at hr
  simp only [not_or, not_forall, not_le, ne_eq, not_not] at hr
  obtain ⟨hwin, hen, cap, hcap, hfloor, hmin⟩ := hr
  have hmax : ¬ s.maxp ≤ cap := fun hmax => hf ⟨hwin, hen, cap, hcap, hmax, hfloor⟩
  have hwin' : ¬ s.maxp ≤ s.minp := by omega
  have hfloor' : ¬ cap ≤ s.floor := by omega
  have hmin' : ¬ cap ≤ s.minp := by omega
  simp only [decision, hcap, hen, ne_eq, not_true_eq_false, if_false, if_neg hwin', if_neg hfloor',
    if_neg hmax, if_neg hmin']

theorem not_released_of_full (h : Full s capacity) : ¬ Released s capacity := by
  obtain ⟨hwin, hen, cap, hcap, hmax, hfloor⟩ := h
  rintro (h | h | h)
  · omega
  · exact h hen
  · have := h cap hcap
    omega

end Decision

namespace Watched

open Battery

variable {s : Watched} {pinned : String} {settings : Settings} {capacity : String}

/-- What the marker and the ghost of a probe tell of the nodes. -/
structure Inv (s : Watched) : Prop where
  honest : s.battery.Honest
  marked : ∀ c, s.battery.Holds c → s.battery.suspended = true
  kept : s.battery.suspended = true → s.probed = false →
    ∃ c, s.battery.usable = some c ∧ s.battery.Holds c
  probed : s.probed = true → ∃ c, s.battery.usable = some c ∧ ¬ s.battery.Holds c

theorem inv_resumed {b : Battery} (h : b.Honest) : Inv ⟨b.resumeCharging.1, false⟩ where
  honest := h.resumeCharging
  marked c hc := absurd hc (not_holds_resumeCharging h c)
  kept hs _ := nomatch hs
  probed hp := nomatch hp

theorem Inv.suspend (h : s.Inv) (hp : isPinned pinned = false) :
    (s.suspend pinned).Inv ∧ (s.suspend pinned).battery.suspended = true
      ∧ (s.suspend pinned).probed = false := by
  obtain ⟨b, c, hb, hu, he⟩ := suspendCharging_eq h.honest hp
  have hs : s.suspend pinned = ⟨{ b.put c c.suspend with suspended := true }, false⟩ := by
    unfold Watched.suspend
    simp only [he, if_true]
  have hput : (b.put c c.suspend).Holds c := holds_put_suspend
  obtain ⟨hm, hc⟩ := usable_eq_some.1 hu
  rw [hs]
  exact ⟨⟨(hb.put c c.suspend).of_nodes rfl, fun _ _ => rfl,
    fun _ _ => ⟨c, usable_eq_some.2 ⟨hm, (isSome_put hc).trans hc⟩, hput⟩, (nomatch ·)⟩, rfl, rfl⟩

/-- A probe leaves the marker, and the node that it selects at its resume value. -/
theorem inv_probed {b : Battery} (h : b.Honest) (hm : ∀ c, b.Holds c → b.suspended = true) :
    Inv ⟨b.detect.1, true⟩ := by
  obtain ⟨c, hc, he⟩ := detect_eq h
  rw [he]
  have hres : ¬ (b.put c c.resume).Holds c := not_holds_put_resume
  refine ⟨(h.put c c.resume).of_nodes rfl, fun c' hc' => ?_, (fun _ hp => nomatch hp),
    fun _ => ⟨c, usable_eq_some.2 ⟨rfl, (isSome_put hc).trans hc⟩, hres⟩⟩
  have hput : (b.put c c.resume).Holds c' := hc'
  by_cases hcc : c' = c
  · exact absurd (hcc ▸ hput) hres
  · exact hm c' ((holds_put_of_ne hcc).1 hput)

theorem Inv.step (h : s.Inv) (hp : isPinned pinned = false) (a : BatteryCommand) :
    (s.step pinned a).Inv := by
  cases a with
  | restart => exact inv_resumed h.honest
  | pass settings capacity =>
    simp only [Watched.step]
    rcases decision settings capacity s.battery.suspended with _ | _ | _
    · exact inv_resumed h.honest
    · exact (h.suspend hp).1
    · exact h
  | suspend => exact (h.suspend hp).1
  | resume => exact inv_resumed h.honest
  | redetect => exact inv_probed (h.honest.of_nodes rfl) h.marked
  | detect => exact inv_probed h.honest h.marked
  | method =>
    simp only [Watched.step, methodEntry_eq hp, hp]
    rcases hu : s.battery.usable with _ | c
    · simpa using inv_probed h.honest h.marked
    · simpa using h

theorem Inv.not_holds (h : s.Inv) (hs : s.battery.suspended = false) (c : Candidate) :
    ¬ s.battery.Holds c := by
  intro hc
  rw [h.marked c hc] at hs
  cases hs

theorem enforced_of_not_holds {b : Battery} (hs : b.suspended = false) (hno : ∀ c, ¬ b.Holds c)
    (hf : ¬ Full settings capacity) : Enforced pinned settings capacity b where
  suspended_iff := iff_of_false (by simp [hs]) fun ⟨c, hc⟩ => hno c hc
  released _ := hno
  full h := absurd h hf

theorem Inv.enforced_of_kept (h : s.Inv) (hp : isPinned pinned = false)
    (hs : s.battery.suspended = true) (hprobed : s.probed = false)
    (hr : ¬ Released settings capacity) : Enforced pinned settings capacity s.battery := by
  obtain ⟨c, hu, hc⟩ := h.kept hs hprobed
  refine ⟨iff_of_true hs ⟨c, hc⟩, fun hr' => absurd hr' hr, fun _ => ⟨c, ?_, hc⟩⟩
  rw [methodEntry_of_usable hp hu]

/-- A pass enforces the window exactly where what it takes the marker's word for is so. -/
theorem Inv.enforces_iff (h : s.Inv) (hp : isPinned pinned = false) (a : BatteryCommand) :
    s.Enforces pinned a ↔ s.Vouched a := by
  cases a with
  | pass settings capacity =>
    simp only [Enforces, Vouched, Watched.step]
    by_cases hr : Released settings capacity
    · -- charging is on after the pass: it resumed, or there was nothing to resume
      have hf : ¬ Full settings capacity := fun hf => not_released_of_full hf hr
      have htrue : decision settings capacity true = .resume :=
        (decision_of_released hr true).resolve_right fun h => nomatch h.1
      refine iff_of_true ?_ fun _ hkeep => by rw [htrue] at hkeep; cases hkeep
      rcases decision_of_released hr s.battery.suspended with he | ⟨hs, he⟩
      · rw [he]
        exact enforced_of_not_holds rfl (not_holds_resumeCharging h.honest) hf
      · rw [he]
        exact enforced_of_not_holds hs (h.not_holds hs) hf
    by_cases hf : Full settings capacity
    · rw [decision_of_full hf, decision_of_full hf]
      rcases hs : s.battery.suspended with _ | _
      · refine iff_of_true ?_ (nomatch ·)
        obtain ⟨hinv, hmark, hprobed⟩ := h.suspend hp
        exact hinv.enforced_of_kept hp hmark hprobed hr
      · simp only [if_true, forall_const, hf, not_true_eq_false, false_and, or_false]
        refine ⟨fun he => ?_, fun hprobed => h.enforced_of_kept hp hs hprobed hr⟩
        rcases hprobed : s.probed with _ | _
        · rfl
        · obtain ⟨c, hu, hc⟩ := h.probed hprobed
          obtain ⟨c', hsel, hc'⟩ := he.full hf
          rw [methodEntry_of_usable hp hu, Option.some.injEq] at hsel
          exact absurd (hsel ▸ hc') hc
    · -- inside the window the pass does nothing
      rw [decision_of_between hr hf, decision_of_between hr hf]
      rcases hs : s.battery.suspended with _ | _
      · refine iff_of_true ?_ (nomatch ·)
        exact enforced_of_not_holds hs (h.not_holds hs) hf
      · simp only [forall_const, hf, not_false_eq_true, true_and]
        constructor
        · intro he
          rcases hprobed : s.probed with _ | _
          · exact .inl rfl
          · obtain ⟨c, hu, hc⟩ := h.probed hprobed
            obtain ⟨c', hc'⟩ := he.suspended_iff.1 hs
            refine .inr ⟨c', hc', fun hm => hc ?_⟩
            rw [(usable_eq_some.1 hu).1, Option.some.injEq] at hm
            exact hm ▸ hc'
        · rintro (hprobed | ⟨c, hc, -⟩)
          · exact h.enforced_of_kept hp hs hprobed hr
          · exact ⟨iff_of_true hs ⟨c, hc⟩, fun hr' => absurd hr' hr, fun hf' => absurd hf' hf⟩
  | _ => exact Iff.rfl

/-- On a device whose nodes take what is written, and no method pinned: the guard enforces its
window at every pass of a run exactly when no pass relies on a suspension that was probed since. -/
theorem enforces_iff_vouched {pinned : String} (hpinned : pinned = "" ∨ pinned = "auto")
    {b : Battery} (hstores : ∀ c n, b.nodes c = some n → n.onWrite = .stores)
    (hwritable : ∃ c, (b.nodes c).isSome) (as : List BatteryCommand) :
    Run.Meets (Watched.step pinned) (Enforces pinned) (start b) as
      ↔ Run.Meets (Watched.step pinned) Vouched (start b) as := by
  have hp : isPinned pinned = false := by
    rcases hpinned with rfl | rfl <;> decide
  exact Run.meets_congr (fun s a h => h.step hp a) (fun s a h => h.enforces_iff hp a) as
    (inv_resumed ⟨hstores, hwritable⟩)

/-- The two nodes lisa exports, charging. -/
def lisa : Battery where
  nodes
    | .qcom_input_suspend => some ⟨"0", .stores⟩
    | .qcom_charging_enabled => some ⟨"1", .stores⟩
    | _ => none
  method := none
  suspended := false

def window : Settings := ⟨"1", "80", "60", "20"⟩

theorem lisa_stores (c : Candidate) (n : Node) (h : lisa.nodes c = some n) :
    n.onWrite = .stores := by
  cases c <;> simp only [lisa, Option.some.injEq, reduceCtorEq] at h <;> exact h ▸ rfl

theorem lisa_writable : ∃ c, (lisa.nodes c).isSome := ⟨.qcom_input_suspend, rfl⟩

theorem lisa_enforces : Run.Meets (Watched.step "auto") (Enforces "auto") (start lisa)
      [.pass window "85", .method, .pass window "70", .pass window "60"]
    ↔ Run.Meets (Watched.step "auto") Vouched (start lisa)
      [.pass window "85", .method, .pass window "70", .pass window "60"] :=
  enforces_iff_vouched (.inr rfl) lisa_stores lisa_writable _

/-- The guard suspends at 85 percent, the probe turns charging on again, and the next pass finds
the marker and lets it be. -/
theorem redetect_unsuspends : ¬ ∀ b : Battery, (∀ c n, b.nodes c = some n → n.onWrite = .stores) →
    (∃ c, (b.nodes c).isSome) → ∀ as : List BatteryCommand,
      Run.Meets (Watched.step "auto") (Enforces "auto") (start b) as := by
  intro h
  have hpass := (h lisa lisa_stores lisa_writable
    [.pass window "85", .redetect, .pass window "85"]).2.2.1
  obtain ⟨c, hc⟩ := hpass.suspended_iff.1 (by decide +kernel)
  revert hc
  cases c <;> decide +kernel

end Watched

end Rackphone
