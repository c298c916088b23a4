import Rackphone.Proofs.Session
import Rackphone.RelayHandlers

/-!
# What a relay handler ends and what it leaves behind

Every step keeps the sessions of a unit or establishes one more, so a session is known by its
number. The comparison of a cleanup speaks of the session that is held then; the release ends the
one that is held when it comes.
-/

namespace Rackphone

namespace Relays

variable {n : ℕ} {R : Relays n} {s : State n} {i j : Fin n} {route : Route} {unit : String}

@[simp] theorem phases_goto_self (s : State n) (i : Fin n) (p : RelayPhase) :
    (s.goto i p).phases i = p := Function.update_self ..

theorem phases_goto_of_ne (h : j ≠ i) (s : State n) (p : RelayPhase) :
    (s.goto i p).phases j = s.phases j := Function.update_of_ne h ..

@[simp] theorem managers_goto (s : State n) (i : Fin n) (p : RelayPhase) :
    (s.goto i p).managers = s.managers := rfl

@[simp] theorem made_goto (s : State n) (i : Fin n) (p : RelayPhase) :
    (s.goto i p).made = s.made := rfl

@[simp] theorem phases_put (s : State n) (m : SessionManager) :
    (s.put route m).phases = s.phases := rfl

@[simp] theorem phases_grant (s : State n)
    (r : SessionManager × Except AcquireError ScreenSession) :
    (s.grant route unit r).phases = s.phases := by
  obtain ⟨m, _ | session⟩ := r <;> rfl

/-! ### The tables -/

/-- What may happen to the sessions of a unit: some end or are renewed, or one is established. -/
def Passes (s s' : State n) : Prop :=
  ∀ route unit,
    (s'.made route unit = s.made route unit ∧ ∀ after, s'.held route unit = some after →
        ∃ before, s.held route unit = some before ∧ before.stamp = after.stamp)
      ∨ ∃ session, s'.made route unit = s.made route unit ++ [session]
        ∧ s'.held route unit = some session

theorem Passes.refl (s : State n) : Passes s s :=
  fun _ _ => .inl ⟨rfl, fun after h => ⟨after, h, rfl⟩⟩

/-- A call that establishes no session. -/
def Keeps (m m' : SessionManager) : Prop :=
  ∀ unit after, m'.sessions.get unit = some after →
    ∃ before, m.sessions.get unit = some before ∧ before.stamp = after.stamp

theorem Keeps.put {m : SessionManager} (h : Keeps (s.managers route) m) :
    Passes s (s.put route m) := by
  intro r u
  refine .inl ⟨rfl, fun after ha => ?_⟩
  by_cases hr : r = route
  · subst hr
    simp only [State.held, State.put, Function.update_self] at ha
    exact h u after ha
  · simp only [State.held, State.put, Function.update_of_ne hr] at ha
    exact ⟨after, ha, rfl⟩

theorem keeps_heartbeat (m : SessionManager) (unit : String) (now : ℤ) (holder : Option String)
    (lookup : UnitLookup) : Keeps m (m.heartbeat unit now holder lookup).1 := by
  intro u after ha
  rcases m.heartbeat_cases unit now holder lookup with he | he | ⟨current, hget, -, he⟩
  · rw [he] at ha
    exact ⟨after, ha, rfl⟩
  · rw [he] at ha
    exact ⟨after, SessionManager.get_of_get_releaseLocked ha, rfl⟩
  · rw [he] at ha
    simp only [Dict.get_set] at ha
    split_ifs at ha with hu
    · subst hu
      refine ⟨current, hget, ?_⟩
      rw [← Option.some.inj ha]
      rfl
    · exact ⟨after, ha, rfl⟩

theorem keeps_release (m : SessionManager) (unit : String) (lookup : UnitLookup) :
    Keeps m (m.release unit lookup) :=
  fun _ after ha => ⟨after, SessionManager.get_of_get_releaseLocked ha, rfl⟩

theorem keeps_reap (m : SessionManager) (now : ℤ) (lookups : String → UnitLookup) :
    Keeps m (m.reap now lookups) := by
  intro u after ha
  unfold SessionManager.reap at ha
  rw [SessionManager.get_foldl_releaseLocked] at ha
  split_ifs at ha
  exact ⟨after, ha, rfl⟩

theorem passes_grant {r : SessionManager × Except AcquireError ScreenSession}
    (h : (s.managers route).Grants unit r) : Passes s (s.grant route unit r) := by
  obtain ⟨m, e | session⟩ := r
  · exact Keeps.put fun u after ha => ⟨after, (h.kept u after ha).resolve_right (nomatch ·.2), rfl⟩
  · intro r' u
    by_cases hru : r' = route ∧ u = unit
    · obtain ⟨rfl, rfl⟩ := hru
      refine .inr ⟨session, by simp [State.grant], ?_⟩
      simpa [State.held, State.grant, State.put] using h.granted session rfl
    · refine .inl ⟨by simp [State.grant, hru], fun after ha => ?_⟩
      by_cases hr : r' = route
      · subst hr
        simp only [State.held, State.grant, State.put, Function.update_self] at ha
        exact ⟨after, (h.kept u after ha).resolve_right fun hu => hru ⟨rfl, hu.1⟩, rfl⟩
      · simp only [State.held, State.grant, State.put, Function.update_of_ne hr] at ha
        exact ⟨after, ha, rfl⟩

theorem passes_call (s : State n) (now : ℤ) (call : ScreenCall) : Passes s (s.call now call) := by
  cases call with
  | acquire unit holder env => exact passes_grant (SessionManager.grants_acquire ..)
  | takeOver unit holder lookup env => exact passes_grant (SessionManager.grants_takeOver ..)
  | heartbeat unit holder lookup =>
    exact Keeps.put (keeps_heartbeat _ unit now (some holder) lookup)
  | release unit lookup => exact Keeps.put (keeps_release _ unit lookup)

theorem passes_step (R : Relays n) (s : State n) (a : Action n) : Passes s (R.step s a) := by
  cases a with
  | submit i now =>
    simp only [step]
    split_ifs <;> exact .refl s
  | acquire i env graceOver =>
    have hgrant := fun now => passes_grant (SessionManager.grants_acquire
      (s.managers (R.route i)) (R.unit i) (R.holder i) now env)
    simp only [step]
    split
    case h_1 now _ => exact hgrant now
    case h_2 now _ => exact hgrant now
    case h_3 => exact .refl s
  | leave i =>
    simp only [step]
    split <;> exact .refl s
  | renew i now =>
    simp only [step]
    split <;> exact .refl s
  | heartbeat i lookup =>
    have hput := fun now => Keeps.put (s := s) (keeps_heartbeat (s.managers (R.route i)) (R.unit i)
      now (some (R.holder i)) lookup)
    simp only [step]
    split
    · exact .refl s
    · split <;> exact hput _
  | compare i =>
    simp only [step]
    split
    · split_ifs <;> exact .refl s
    · exact .refl s
  | release i lookup =>
    simp only [step]
    split
    · exact Keeps.put (keeps_release (s.managers (R.route i)) (R.unit i) lookup)
    · exact .refl s
  | screen now call => exact passes_call s now call
  | pass now lookups => exact Keeps.put (keeps_reap _ now lookups)

/-- A unit's sessions are never forgotten. -/
theorem Passes.made_prefix {s' : State n} (h : Passes s s') (route : Route) (unit : String) :
    s.made route unit <+: s'.made route unit := by
  rcases h route unit with ⟨hmade, -⟩ | ⟨session, hmade, -⟩
  · rw [hmade]
  · rw [hmade]
    exact List.prefix_append _ _

/-! ### The handlers -/

/-- Where one step may take a handler of a unit, and how it comes to let its session go. -/
inductive Turns (s s' : State n) (route : Route) (unit : String) (leaves : Prop) :
    RelayPhase → RelayPhase → Prop
  | stays (p : RelayPhase) : Turns s s' route unit leaves p p
  | without {p p' : RelayPhase} (hp : p.acquired = none) (hp' : p'.acquired = none)
    (hgo : ∀ now, p' ≠ .cancelled now) : Turns s s' route unit leaves p p'
  | cancels (now : ℤ) (h : leaves) :
    Turns s s' route unit leaves (.acquiring now) (.cancelled now)
  | acquires (now : ℤ) (session : ScreenSession) :
    Turns s s' route unit leaves (.acquiring now) (.relaying session (s'.made route unit).length)
  | closes (mine : ScreenSession) (number : ℕ) :
    Turns s s' route unit leaves (.relaying mine number) (.closing mine number)
  | compares (mine : ScreenSession) (number : ℕ)
    (hsame : sameSession (s.held route unit) (some mine) = true) (hmade : s'.made = s.made) :
    Turns s s' route unit leaves (.closing mine number)
      (.releasing mine number (s.made route unit).length)
  | gives (mine : ScreenSession) (number : ℕ)
    (hother : sameSession (s.held route unit) (some mine) = false) :
    Turns s s' route unit leaves (.closing mine number) .ended
  | releases (mine : ScreenSession) (number compared : ℕ) (hnone : s'.held route unit = none) :
    Turns s s' route unit leaves (.releasing mine number compared) .ended

theorem turns_of_goto {s' : State n} {leaves : Prop} (h : s'.phases = s.phases)
    {p q : RelayPhase} (hp : s.phases i = p)
    (hi : i = j → Turns s (s'.goto i q) (R.route i) (R.unit i) leaves p q) :
    Turns s (s'.goto i q) (R.route j) (R.unit j) leaves (s.phases j) ((s'.goto i q).phases j) := by
  by_cases hij : i = j
  · subst hij
    rw [phases_goto_self, hp]
    exact hi rfl
  · rw [phases_goto_of_ne (Ne.symm hij), h]
    exact .stays _

theorem turns_step (R : Relays n) (s : State n) (a : Action n) (j : Fin n) :
    Turns s (R.step s a) (R.route j) (R.unit j) (a = .leave j) (s.phases j)
      ((R.step s a).phases j) := by
  cases a with
  | submit i now =>
    simp only [step]
    split_ifs with hp
    · exact turns_of_goto rfl hp fun _ => .without rfl rfl nofun
    · exact .stays _
  | acquire i env graceOver =>
    simp only [step]
    split
    case h_1 now hp =>
      refine turns_of_goto (phases_grant ..) hp fun _ => ?_
      rcases (s.managers (R.route i)).acquire (R.unit i) (R.holder i) now env
        with ⟨m, (e | _) | session⟩
      · simp only [acquired]
        split_ifs <;> exact .without rfl rfl nofun
      · exact .without rfl rfl nofun
      · exact .acquires now session
    case h_2 hp => exact turns_of_goto (phases_grant ..) hp fun _ => .without rfl rfl nofun
    case h_3 => exact .stays _
  | leave i =>
    simp only [step]
    split
    case h_1 hp => exact turns_of_goto rfl hp fun _ => .without rfl rfl nofun
    case h_2 now hp =>
      exact turns_of_goto rfl hp fun hij => .cancels now (congrArg Action.leave hij)
    case h_3 mine number hp => exact turns_of_goto rfl hp fun _ => .closes mine number
    case h_4 => exact .stays _
  | renew i now =>
    simp only [step]
    split <;> exact .stays _
  | heartbeat i lookup =>
    simp only [step]
    split
    case h_1 => exact .stays _
    case h_2 =>
      split
      case h_1 mine number hp _ =>
        refine turns_of_goto ?_ hp fun _ => .closes mine number
        rfl
      case h_2 => exact .stays _
  | compare i =>
    simp only [step]
    split
    case h_1 mine number hp =>
      split_ifs with hsame
      · exact turns_of_goto rfl hp fun _ => .compares mine number hsame rfl
      · exact turns_of_goto rfl hp fun _ =>
          .gives mine number (Bool.eq_false_of_not_eq_true hsame)
    case h_2 => exact .stays _
  | release i lookup =>
    simp only [step]
    split
    case h_1 mine number compared hp =>
      refine turns_of_goto ?_ hp fun _ => .releases mine number compared ?_
      · rfl
      · simp [State.held, State.put, SessionManager.release]
    case h_2 => exact .stays _
  | screen now call =>
    have hphases : (s.call now call).phases = s.phases := by
      cases call <;> first | rfl | exact phases_grant ..
    simp only [step, hphases]
    exact .stays _
  | pass now lookups => exact .stays _

/-! ### Whose session a cleanup ends -/

structure Inv (R : Relays n) (s : State n) : Prop where
  latest : ∀ route unit session, s.held route unit = some session →
    ∃ last ∈ (s.made route unit).getLast?, last.stamp = session.stamp
  numbered : ∀ i mine number, (s.phases i).acquired = some (mine, number) →
    number ≤ (s.made (R.route i) (R.unit i)).length
  compared : ∀ i mine number compared, s.phases i = .releasing mine number compared →
    number ≤ compared ∧ compared ≤ (s.made (R.route i) (R.unit i)).length
      ∧ (number < compared → ∃ other ∈ ((s.made (R.route i) (R.unit i)).take compared).drop number,
        other.stamp = mine.stamp)

theorem inv_init (R : Relays n) : R.Inv (init n) := by
  refine ⟨fun route unit session h => ?_, fun _ _ _ h => (nomatch h), fun _ _ _ _ h => (nomatch h)⟩
  cases route <;> exact nomatch h

theorem mem_drop_of_getLast? {α : Type*} {l : List α} {x : α} (h : x ∈ l.getLast?) {k : ℕ}
    (hk : k < l.length) : x ∈ l.drop k := by
  have hlast : (l.drop k).getLast? = l.getLast? := List.getLast?_drop.trans (if_neg (not_le.2 hk))
  exact List.mem_of_getLast? (hlast.trans h)

theorem Inv.latest_of_passes {s' : State n} (h : R.Inv s) (hpass : Passes s s') (route : Route)
    (unit : String) (session : ScreenSession) (hs : s'.held route unit = some session) :
    ∃ last ∈ (s'.made route unit).getLast?, last.stamp = session.stamp := by
  rcases hpass route unit with ⟨hmade, hkept⟩ | ⟨made, hmade, hheld⟩
  · obtain ⟨before, hbefore, hstamp⟩ := hkept session hs
    obtain ⟨last, hlast, hsame⟩ := h.latest route unit before hbefore
    exact ⟨last, by rwa [hmade], hsame.trans hstamp⟩
  · rw [hheld] at hs
    exact ⟨made, by simp [hmade], congrArg _ (Option.some.inj hs)⟩

theorem Inv.step (h : R.Inv s) (a : Action n) : R.Inv (R.step s a) := by
  have hpass := R.passes_step s a
  refine ⟨h.latest_of_passes hpass, fun i mine number hn => ?_, fun i mine number compared hp => ?_⟩
  · have hle := (hpass.made_prefix (R.route i) (R.unit i)).length_le
    have hturn := R.turns_step s a i
    generalize (R.step s a).phases i = p at hturn hn
    generalize hq : s.phases i = q at hturn
    cases hturn with
    | stays => exact (h.numbered i mine number (by rwa [hq])).trans hle
    | without _ hnone =>
      rw [hnone] at hn
      exact nomatch hn
    | cancels => exact nomatch hn
    | acquires => exact (Prod.mk.inj (Option.some.inj hn)).2.symm.le
    | closes mine' k => exact (h.numbered i mine number (by rw [hq]; exact hn)).trans hle
    | compares mine' k => exact (h.numbered i mine number (by rw [hq]; exact hn)).trans hle
    | gives => exact nomatch hn
    | releases => exact nomatch hn
  · obtain ⟨made, hmade⟩ := hpass.made_prefix (R.route i) (R.unit i)
    have hturn := R.turns_step s a i
    rw [hp] at hturn
    generalize hq : s.phases i = q at hturn
    cases hturn with
    | stays =>
      obtain ⟨hnum, hcmp, hother⟩ := h.compared i mine number compared hq
      rw [← hmade, List.take_append_of_le_length hcmp, List.length_append]
      exact ⟨hnum, by omega, hother⟩
    | without _ hnone => exact nomatch hnone
    | compares mine number hsame hsteady =>
      have hnum := h.numbered i mine number (by rw [hq]; rfl)
      rw [hsteady, List.take_length]
      refine ⟨hnum, le_rfl, fun hlt => ?_⟩
      rcases hheld : s.held (R.route i) (R.unit i) with _ | session
      · rw [hheld] at hsame
        exact nomatch hsame
      · -- what compared equal is the latest session, and it is not the handler's own
        obtain ⟨last, hlast, hstamp⟩ := h.latest _ _ session hheld
        rw [hheld] at hsame
        have hmine : session.stamp = mine.stamp := by simpa [sameSession] using hsame
        exact ⟨last, mem_drop_of_getLast? hlast hlt, hstamp.trans hmine⟩

theorem Inv.endsOwn_iff (h : R.Inv s) (a : Action n) : R.EndsOwn s a ↔ R.Undisturbed s a := by
  cases a with
  | release i lookup =>
    refine forall₄_congr fun mine number compared hp => ?_
    obtain ⟨hnum, hcmp, hother⟩ := h.compared i mine number compared hp
    refine imp_congr_right fun hheld => ⟨fun hown => ?_, fun hun => ?_⟩
    · have hlen := hown.2
      refine ⟨by omega, fun other hmem => absurd (List.length_pos_of_mem hmem) ?_⟩
      rw [List.length_drop, List.length_take]
      omega
    · refine ⟨Option.isSome_iff_ne_none.2 hheld, ?_⟩
      have hnot : ¬ number < compared := fun hlt => by
        obtain ⟨other, hmem, hstamp⟩ := hother hlt
        exact hun.2 other hmem hstamp
      have hlen := hun.1
      omega
  | _ => exact Iff.rfl

/-- Cleanups end their own handlers' sessions exactly in the runs where each that comes to its
release was not disturbed. -/
theorem endsOwn_iff_undisturbed (R : Relays n) (as : List (Action n)) :
    Run.Meets R.step R.EndsOwn (init n) as ↔ Run.Meets R.step R.Undisturbed (init n) as :=
  Run.meets_congr (fun _ a h => h.step a) (fun _ a h => h.endsOwn_iff a) as R.inv_init

/-- One phone that relays a unit. -/
def onePhone (route : Route) : Relays 1 := ⟨fun _ => route, fun _ => "phone1", fun _ => "phone"⟩

/-- A tablet takes the screen over between the comparison and the release. -/
theorem takeOver_between : ¬ ∀ (n : ℕ) (R : Relays n) (as : List (Action n)),
    Run.Meets R.step R.EndsOwn (init n) as := by
  intro h
  have hown := (h 1 (onePhone .screen) [.submit 0 1000, .acquire 0 (.attached "41001") false,
    .leave 0, .compare 0, .screen 1001 (.takeOver "phone1" "tablet"
      (AcquireEnv.attached "41002").lookup (.attached "41002")),
    .release 0 (AcquireEnv.attached "41002").lookup]).2.2.2.2.2.1
  have hholds := hown ⟨"phone1", "phone", 1000, 1000, "41001"⟩ 1 1 (by decide +kernel)
    (by decide +kernel)
  exact absurd hholds.2 (by decide +kernel)

/-! ### What the pass reaps -/

/-- The session is no longer held, and it is not one to come. -/
def Gone (s : State n) (route : Route) (unit : String) (number : ℕ) : Prop :=
  number ≤ (s.made route unit).length ∧ ¬ s.Holds route unit number

theorem Gone.step {number : ℕ} (h : Gone s route unit number) (R : Relays n) (a : Action n) :
    Gone (R.step s a) route unit number := by
  obtain ⟨hle, hnot⟩ := h
  rcases R.passes_step s a route unit with ⟨hmade, hkept⟩ | ⟨session, hmade, -⟩
  · refine ⟨by rwa [hmade], fun hholds => hnot ?_⟩
    obtain ⟨after, ha⟩ := Option.isSome_iff_exists.1 hholds.1
    obtain ⟨before, hb, -⟩ := hkept after ha
    exact ⟨Option.isSome_iff_exists.2 ⟨before, hb⟩, by rw [← hmade]; exact hholds.2⟩
  · have hlen : ((R.step s a).made route unit).length = (s.made route unit).length + 1 := by
      rw [hmade, List.length_append, List.length_singleton]
    refine ⟨by omega, fun hholds => ?_⟩
    have := hholds.2
    omega

/-- A pass ends every screen session whose lease has run out. -/
theorem gone_pass {session : ScreenSession} (hheld : s.held .screen unit = some session)
    {now : ℤ} (hstale : session.Stale now) (R : Relays n) (lookups : String → UnitLookup) :
    Gone (R.step s (.pass now lookups)) .screen unit (s.made .screen unit).length := by
  refine ⟨le_rfl, fun hholds => ?_⟩
  have hmem := SessionManager.mem_staleUnits.2 ⟨session, hheld, hstale⟩
  have hnone : (R.step s (.pass now lookups)).held .screen unit = none :=
    (SessionManager.get_foldl_releaseLocked lookups _ (s.managers .screen)).trans (if_pos hmem)
  rw [State.Holds, hnone] at hholds
  exact nomatch hholds.1

/-- It leaves the call sessions as they are. -/
theorem holds_pass_voice {session : ScreenSession} (hheld : s.held .voice unit = some session)
    (R : Relays n) (now : ℤ) (lookups : String → UnitLookup) :
    (R.step s (.pass now lookups)).Holds .voice unit (s.made .voice unit).length :=
  ⟨Option.isSome_iff_exists.2 ⟨session, hheld⟩, rfl⟩

/-- Whatever the handlers did, from a pass on a session whose lease had run out is held no more
exactly where it is a screen session. -/
theorem gone_iff_screen (R : Relays n) (as bs : List (Action n)) (now : ℤ)
    (lookups : String → UnitLookup) (route : Route) (unit : String) (session : ScreenSession)
    (hheld : (Run.final R.step (init n) as).held route unit = some session)
    (hstale : session.Stale now) :
    Run.Always R.step
        (fun s => ¬ s.Holds route unit ((Run.final R.step (init n) as).made route unit).length)
        (R.step (Run.final R.step (init n) as) (.pass now lookups)) bs
      ↔ route = .screen := by
  cases route with
  | screen =>
    have hgone := gone_pass hheld hstale R lookups
    refine iff_of_true ?_ rfl
    exact Run.always_of_invariant (I := fun s => Gone s .screen unit _) (fun _ h => h.2)
      (fun _ a h => h.step R a) bs hgone
  | voice =>
    refine iff_of_false (fun h => ?_) nofun
    have hholds := holds_pass_voice hheld R now lookups
    cases bs with
    | nil => exact h hholds
    | cons b bs => exact h.1 hholds

/-- The client goes while its acquire is on the way, and the acquire completes. -/
def leftBehind : List (Action 1) :=
  [.submit 0 1000, .leave 0, .acquire 0 (.attached "41001") false]

theorem gone_leftBehind : Run.Always (onePhone .screen).step
    (fun s => ¬ s.Holds .screen "phone1" 1) ((onePhone .screen).step
      (Run.final (onePhone .screen).step (init 1) leftBehind)
      (.pass 1031 fun _ => (AcquireEnv.attached "41001").lookup))
    [.submit 0 1032, .pass 1036 fun _ => (AcquireEnv.attached "41001").lookup] := by
  have hnumber : ((Run.final (onePhone .screen).step (init 1) leftBehind).made .screen
      "phone1").length = 1 := by decide +kernel
  have hgone := (gone_iff_screen (onePhone .screen) leftBehind
    [.submit 0 1032, .pass 1036 fun _ => (AcquireEnv.attached "41001").lookup] 1031
    (fun _ => (AcquireEnv.attached "41001").lookup) .screen "phone1"
    ⟨"phone1", "phone", 1000, 1000, "41001"⟩ (by decide +kernel) (by decide +kernel)).2 rfl
  rw [hnumber] at hgone
  exact hgone

/-- A call session left behind so is never reaped. -/
theorem voice_leftBehind : ¬ ∀ (n : ℕ) (R : Relays n) (as bs : List (Action n)) (now : ℤ)
    (lookups : String → UnitLookup) (route : Route) (unit : String) (session : ScreenSession),
    (Run.final R.step (init n) as).held route unit = some session → session.Stale now →
      Run.Always R.step
        (fun s => ¬ s.Holds route unit ((Run.final R.step (init n) as).made route unit).length)
        (R.step (Run.final R.step (init n) as) (.pass now lookups)) bs := by
  intro h
  refine h 1 (onePhone .voice) leftBehind [] 1031
    (fun _ => (AcquireEnv.attached "41001").lookup) .voice "phone1"
    ⟨"phone1", "phone", 1000, 1000, "41001"⟩ (by decide +kernel) (by decide +kernel) ?_
  exact ⟨by decide +kernel, by decide +kernel⟩

/-! ### Whose a call session is -/

theorem made_grant (s : State n) {r : SessionManager × Except AcquireError ScreenSession}
    {route' : Route} {unit' : String} (h : ¬ (route' = route ∧ unit' = unit)) :
    (s.grant route unit r).made route' unit' = s.made route' unit' := by
  obtain ⟨m, e | session⟩ := r
  · rfl
  · exact if_neg h

theorem made_call (s : State n) (now : ℤ) (call : ScreenCall) (unit : String) :
    (s.call now call).made .voice unit = s.made .voice unit := by
  cases call with
  | acquire u holder env => exact made_grant s nofun
  | takeOver u holder lookup env => exact made_grant s nofun
  | heartbeat u holder lookup => rfl
  | release u lookup => rfl

/-- A call session is established by the acquire of a handler, for itself or after it left. -/
theorem established_step (R : Relays n) (s : State n) (a : Action n) (unit : String) :
    (R.step s a).made .voice unit = s.made .voice unit
      ∨ ∃ i, R.route i = .voice ∧ R.unit i = unit ∧ ((∃ now, s.phases i = .cancelled now)
        ∨ ∃ session, (R.step s a).phases i
            = .relaying session ((R.step s a).made .voice unit).length
          ∧ (R.step s a).held .voice unit = some session) := by
  cases a with
  | acquire i env graceOver =>
    simp only [step]
    by_cases hru : R.route i = .voice ∧ R.unit i = unit
    · obtain ⟨hr, rfl⟩ := hru
      split
      case h_1 now hp =>
        have hgranted := (SessionManager.grants_acquire (s.managers (R.route i)) (R.unit i)
          (R.holder i) now env).granted
        rcases hacq : (s.managers (R.route i)).acquire (R.unit i) (R.holder i) now env
          with ⟨m, e | session⟩
        · exact .inl rfl
        · refine .inr ⟨i, hr, rfl, .inr ⟨session, ?_, ?_⟩⟩
          · rw [phases_goto_self, acquired, ← hr]
            rfl
          · rw [hacq] at hgranted
            simpa [State.held, State.grant, State.put, hr] using hgranted session rfl
      case h_2 now hp => exact .inr ⟨i, hr, rfl, .inl ⟨now, hp⟩⟩
      case h_3 => exact .inl rfl
    · have hne : ¬ (.voice = R.route i ∧ unit = R.unit i) := fun h => hru ⟨h.1.symm, h.2.symm⟩
      split
      case h_1 => exact .inl (made_grant s hne)
      case h_2 => exact .inl (made_grant s hne)
      case h_3 => exact .inl rfl
  | screen now call => exact .inl (made_call s now call unit)
  | pass now lookups => exact .inl rfl
  | submit i now =>
    simp only [step]
    split_ifs <;> exact .inl rfl
  | heartbeat i lookup =>
    simp only [step]
    split
    · exact .inl rfl
    · split <;> exact .inl rfl
  | compare i =>
    simp only [step]
    split
    · split_ifs <;> exact .inl rfl
    · exact .inl rfl
  | leave i | renew i now | release i lookup =>
    simp only [step]
    split <;> exact .inl rfl

/-- No acquire of a call handler that has left is on the way. -/
def NoneLeft (R : Relays n) (s : State n) : Prop :=
  ∀ i, R.route i = .voice → ∀ now, s.phases i ≠ .cancelled now

theorem NoneLeft.step (h : R.NoneLeft s) {a : Action n} (hstay : R.StaysToAcquire s a) :
    R.NoneLeft (R.step s a) := by
  intro i hi now hp
  have hturn := R.turns_step s a i
  rw [hp] at hturn
  generalize hq : s.phases i = q at hturn
  cases hturn with
  | stays => exact h i hi now hq
  | without _ _ hgo => exact hgo now rfl
  | cancels _ hleave => exact hstay i hleave hi now hq

theorem CallsOwned.step (h : R.CallsOwned s) (hleft : R.NoneLeft s) (a : Action n) :
    R.CallsOwned (R.step s a) := by
  intro unit session hheld
  rcases R.established_step s a unit with hmade | ⟨i, hr, hu, ⟨now, hp⟩ | ⟨latest, hp, hlatest⟩⟩
  · rcases R.passes_step s a .voice unit with ⟨-, hkept⟩ | ⟨_, hmore, -⟩
    · -- the session was held before: its handler has not let it go
      obtain ⟨before, hbefore, hstamp⟩ := hkept session hheld
      obtain ⟨i, mine, hr, rfl, hacq, hmine⟩ := h unit before hbefore
      refine ⟨i, mine, hr, rfl, ?_, hmine.trans hstamp⟩
      have hturn := R.turns_step s a i
      rw [hmade, ← hacq]
      rw [hr] at hturn
      generalize (R.step s a).phases i = p at hturn
      generalize s.phases i = q at hturn hacq
      cases hturn with
      | stays => rfl
      | without hnone => exact nomatch hnone.symm.trans hacq
      | cancels => exact nomatch hacq
      | acquires => exact nomatch hacq
      | closes => rfl
      | compares => rfl
      | gives mine' k hother =>
        obtain ⟨rfl, -⟩ := Prod.mk.inj (Option.some.inj hacq)
        simp [hbefore, sameSession, hmine] at hother
      | releases mine' k c hnone => exact nomatch hnone.symm.trans hheld
    · rw [hmore] at hmade
      exact absurd hmade (by simp)
  · exact absurd hp (hleft i hr now)
  · rw [hlatest] at hheld
    obtain rfl := Option.some.inj hheld
    exact ⟨i, latest, hr, hu, by rw [hp]; rfl, rfl⟩

/-- Where no call handler leaves with its acquire on the way, no call session outlives its
handler. -/
theorem callsOwned_of_stays (R : Relays n) (as : List (Action n))
    (hstay : Run.Meets R.step R.StaysToAcquire (init n) as) :
    Run.Always R.step R.CallsOwned (init n) as :=
  Run.always_of_meets (I := fun s => R.CallsOwned s ∧ R.NoneLeft s) (fun _ h => h.1)
    (fun _ a h hc => ⟨h.1.step h.2 a, h.2.step hc⟩) as
    ⟨fun _ _ h => (nomatch h), fun _ _ _ h => (nomatch h)⟩ hstay

end Relays

end Rackphone
