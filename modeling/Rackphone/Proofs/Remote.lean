import Rackphone.Remote

/-!
# One server runs

The lock is held from `mkdir` to the trap, so one command at a time creates and names a server.
Every live server is then the one the pid file names or the one that command is about to name
(`Inv.accounted`), as long as no command gives up the name of a live one.
-/

namespace Rackphone

open NamedResource

namespace RemoteUnit

variable {u : RemoteUnit}

theorem running_eq_false : u.running = false ↔ Stale u.pidFile u.alive := by
  unfold running Stale
  rcases u.pidFile with _ | pid <;> simp

@[simp] theorem removeFiles_pidFile (u : RemoteUnit) : u.removeFiles.pidFile = none := rfl

@[simp] theorem removeFiles_alive (u : RemoteUnit) : u.removeFiles.alive = u.alive := rfl

theorem kill_alive (pid : Option ℕ) : (u.kill pid).alive ⊆ u.alive := by
  rcases pid with _ | pid
  · exact Finset.Subset.refl _
  · exact Finset.erase_subset _ _

end RemoteUnit

namespace Stage

/-- Between `mkdir` and the trap. -/
def holds : Stage → Bool
  | verify | copyJar | launch | writePid _ | writeStart _ | grace _ _ | abandon | unlock _ => true
  | _ => false

/-- The server the command launched, unless it found it dead. -/
@[simp] def server : Stage → Option ℕ
  | writePid pid | writeStart pid | grace pid _ => some pid
  | unlock (.started pid) | exited (.started pid) => some pid
  | _ => none

@[simp] def writing : Stage → Option ℕ
  | writePid pid => some pid
  | _ => none

/-- The server the command wrote down and still looks for. -/
@[simp] def written : Stage → Option ℕ
  | writeStart pid | grace pid _ => some pid
  | _ => none

theorem holds_of_written {stage : Stage} {pid : ℕ} (h : stage.written = some pid) :
    stage.holds = true := by
  cases stage <;> first | rfl | cases h

theorem holds_of_writing {stage : Stage} {pid : ℕ} (h : stage.writing = some pid) :
    stage.holds = true := by
  cases stage <;> first | rfl | cases h

theorem server_of_writing {stage : Stage} {pid : ℕ} (h : stage.writing = some pid) :
    stage.server = some pid := by
  cases stage <;> first | exact h | cases h

/-- The steps that change the lock or the pid file, or launch a server. -/
def changes : Stage → Bool
  | clear | takeLock | launch | writePid _ | abandon | unlock _ | remove => true
  | _ => false

/-- A step that takes no lock and neither launches a server nor writes one down. -/
structure Follows (next stage : Stage) : Prop where
  server : ∀ pid, next.server = some pid → stage.server = some pid
  written : ∀ pid, next.written = some pid → stage.written = some pid
  writing : ∀ pid, stage.writing = some pid → next.writing = some pid

theorem next_holds (c : Caller) (running : Bool) : (c.next running).holds = false := by
  cases c <;> cases running <;> rfl

theorem next_server (c : Caller) (running : Bool) : (c.next running).server = none := by
  cases c <;> cases running <;> rfl

theorem next_ne_abandon (c : Caller) (running : Bool) : c.next running ≠ .abandon := by
  cases c <;> cases running <;> decide

theorem follows_outside {next stage : Stage} (hholds : next.holds = false)
    (hserver : next.server = none) (hwriting : stage.writing = none) : next.Follows stage where
  server pid hp := by
    rw [hserver] at hp
    cases hp
  written pid hp := by
    rw [holds_of_written hp] at hholds
    cases hholds
  writing pid hp := by
    rw [hwriting] at hp
    cases hp

theorem follows_act (u : RemoteUnit) {stage : Stage}
    (h : stage.changes = false ∨ stage = .clear ∨ stage = .abandon ∨ stage = .remove) :
    (stage.act u).2.Follows stage := by
  cases stage with
  | readPid c =>
    simp only [act]
    rcases u.pidFile with _ | pid
    · exact follows_outside (next_holds c _) (next_server c _) rfl
    · exact follows_outside rfl rfl rfl
  | probe c pid => exact follows_outside (next_holds c _) (next_server c _) rfl
  | awaitExit | insist | grace =>
    simp only [act]
    split_ifs <;> constructor <;> simp
  | exited o => cases o <;> constructor <;> simp [act]
  | takeLock | launch | writePid | unlock => simp [changes] at h
  | _ => constructor <;> simp [act]

theorem holds_act (u : RemoteUnit) {stage : Stage} (hlock : stage ≠ .takeLock)
    (h : (stage.act u).2.holds = true) : stage.holds = true := by
  cases stage with
  | readPid c =>
    simp only [act] at h
    split at h
    · exact absurd h (by simp [next_holds])
    · cases h
  | probe c pid => exact absurd h (by simp [act, next_holds])
  | takeLock => exact absurd rfl hlock
  | awaitExit | insist =>
    simp only [act] at h
    split_ifs at h <;> cases h
  | _ => first | rfl | cases h

/-- What a step that changes none of them leaves. -/
theorem act_frame (u : RemoteUnit) {stage : Stage} (h : stage.changes = false) :
    (stage.act u).1.lock = u.lock ∧ (stage.act u).1.nextPid = u.nextPid
      ∧ (stage.act u).1.pidFile = u.pidFile ∧ (stage.act u).1.alive ⊆ u.alive := by
  cases stage with
  | readPid c =>
    simp only [act]
    split <;> exact ⟨rfl, rfl, rfl, Finset.Subset.refl _⟩
  | awaitExit | insist | grace =>
    simp only [act]
    split_ifs <;> exact ⟨rfl, rfl, rfl, Finset.Subset.refl _⟩
  | kill pid => cases pid <;> exact ⟨rfl, rfl, rfl, RemoteUnit.kill_alive _⟩
  | clear | takeLock | launch | writePid | abandon | unlock | remove => cases h
  | _ => exact ⟨rfl, rfl, rfl, Finset.Subset.refl _⟩

/-- A start gives up only the server it found dead. -/
theorem act_abandon {u : RemoteUnit} {stage : Stage} (h : (stage.act u).2 = .abandon) :
    ∃ pid, stage.written = some pid ∧ pid ∉ u.alive := by
  cases stage with
  | readPid c =>
    simp only [act] at h
    split at h
    · exact absurd h (next_ne_abandon c _)
    · cases h
  | probe c pid => exact absurd h (next_ne_abandon c _)
  | grace pid waited =>
    simp only [act] at h
    split_ifs at h with hwaited halive
    exact ⟨pid, rfl, halive⟩
  | takeLock | awaitExit | insist =>
    simp only [act] at h
    split_ifs at h
  | _ => cases h

theorem fail_cases (stage : Stage) : stage.fail = stage ∨
    (stage.fail = .unlock .failed ∧ stage.holds = true ∧ stage.writing = none) := by
  cases stage <;> first | exact .inl rfl | exact .inr ⟨rfl, rfl, rfl⟩

end Stage

theorem RemoteCommand.first_cases (c : RemoteCommand) :
    c.first = .exited .failed ∨ ∃ caller, c.first = .readPid caller := by
  cases c with
  | start socketId =>
    simp only [first]
    split_ifs
    · exact .inl rfl
    · exact .inr ⟨.start, rfl⟩
    · exact .inl rfl
  | stop => exact .inr ⟨.stop, rfl⟩

namespace Remote

variable {s : Remote} {i : ℕ} {u : RemoteUnit} {stage : Stage}

@[simp] theorem unit_goto : (s.goto i u stage).unit = u := rfl

theorem stage_goto_self : (s.goto i u stage).stage i = stage := Function.update_self ..

theorem stage_goto_ne {j : ℕ} (h : j ≠ i) : (s.goto i u stage).stage j = s.stage j :=
  Function.update_of_ne h ..

theorem goto_self (s : Remote) (i : ℕ) : s.goto i s.unit (s.stage i) = s := by
  simp [goto]

theorem of_goto (P : Stage → Prop) (hP : P stage → P (s.stage i)) {j : ℕ}
    (h : P ((s.goto i u stage).stage j)) : P (s.stage j) := by
  by_cases hj : j = i
  · subst hj
    rw [stage_goto_self] at h
    exact hP h
  · rwa [stage_goto_ne hj] at h

theorem to_goto (P : Stage → Prop) (hP : P (s.stage i) → P stage) {j : ℕ} (h : P (s.stage j)) :
    P ((s.goto i u stage).stage j) := by
  by_cases hj : j = i
  · subst hj
    rw [stage_goto_self]
    exact hP h
  · rwa [stage_goto_ne hj]

def Writing (s : Remote) (pid : ℕ) : Prop := ∃ i, (s.stage i).writing = some pid

structure Inv (s : Remote) : Prop where
  lock : Exclusive s.unit.lock fun i => (s.stage i).holds = true
  allotted : Allotted s.unit.nextPid fun i => (s.stage i).server
  accounted : Accounted s.unit.pidFile s.unit.alive s.Writing
  written : ∀ i pid, (s.stage i).written = some pid → ∀ q ∈ s.unit.pidFile, q = pid
  abandoned : ∀ i, s.stage i = .abandon → Stale s.unit.pidFile s.unit.alive

theorem inv_boot (u : RemoteUnit) : Inv (boot u) where
  lock := ⟨fun _ h => absurd h Bool.false_ne_true, fun _ _ h => absurd h Bool.false_ne_true⟩
  allotted := ⟨fun _ _ h => absurd h.symm (Option.some_ne_none _),
    fun _ _ _ h => absurd h.symm (Option.some_ne_none _)⟩
  accounted pid h := absurd h (Finset.notMem_empty pid)
  written _ _ h := by cases h
  abandoned _ h := by cases h

namespace Inv

/-- Every step but `launch` and `writePid`: no server appears, and what the pid file names it named
before. -/
theorem move (h : Inv s) (hfollows : stage.Follows (s.stage i))
    (hlock : Exclusive u.lock fun j => ((s.goto i u stage).stage j).holds = true)
    (hnext : u.nextPid = s.unit.nextPid) (halive : u.alive ⊆ s.unit.alive)
    (hname : ∀ q ∈ u.pidFile, q ∈ s.unit.pidFile)
    (haccounted : Accounted u.pidFile u.alive s.Writing)
    (habandon : stage = .abandon → Stale u.pidFile u.alive) : Inv (s.goto i u stage) where
  lock := hlock
  allotted := by
    change Allotted u.nextPid _
    rw [hnext]
    exact h.allotted.mono fun j pid => of_goto (·.server = some pid) (hfollows.server pid)
  accounted := haccounted.mono (Finset.Subset.refl _) fun pid ⟨j, hj⟩ =>
    ⟨j, to_goto (·.writing = some pid) (hfollows.writing pid) hj⟩
  written j pid hj q hq :=
    h.written j pid (of_goto (·.written = some pid) (hfollows.written pid) hj) q (hname q hq)
  abandoned j hj := by
    by_cases hji : j = i
    · subst hji
      rw [stage_goto_self] at hj
      exact habandon hj
    · rw [stage_goto_ne hji] at hj
      exact fun q hq hmem => h.abandoned j hj q (hname q hq) (halive hmem)

/-- Nor does the pid file change, nor the lock. -/
theorem quiet (h : Inv s) (hfollows : stage.Follows (s.stage i))
    (hholds : stage.holds = true → (s.stage i).holds = true) (hlock : u.lock = s.unit.lock)
    (hnext : u.nextPid = s.unit.nextPid) (halive : u.alive ⊆ s.unit.alive)
    (hname : u.pidFile = s.unit.pidFile)
    (habandon : stage = .abandon → Stale s.unit.pidFile s.unit.alive) :
    Inv (s.goto i u stage) := by
  refine h.move hfollows ?_ hnext halive (fun q hq => hname ▸ hq) ?_ fun hn => ?_
  · rw [hlock]
    exact h.lock.mono fun j => of_goto (·.holds = true) hholds
  · rw [hname]
    exact h.accounted.mono halive fun _ hp => hp
  · rw [hname]
    exact (habandon hn).mono halive

theorem stay (h : Inv s) (hfollows : stage.Follows (s.stage i))
    (hholds : stage.holds = true → (s.stage i).holds = true)
    (habandon : stage = .abandon → Stale s.unit.pidFile s.unit.alive) :
    Inv (s.goto i s.unit stage) :=
  h.quiet hfollows hholds rfl rfl (Finset.Subset.refl _) rfl habandon

theorem turn_quiet (h : Inv s) (hquiet : (s.stage i).changes = false) :
    Inv (s.step (.turn i)) := by
  obtain ⟨hlock, hnext, hname, halive⟩ := Stage.act_frame s.unit hquiet
  refine h.quiet (Stage.follows_act _ (.inl hquiet)) (Stage.holds_act _ fun hn => ?_) hlock hnext
    halive hname fun hn => ?_
  · rw [hn] at hquiet
    cases hquiet
  -- what the pid file names, if anything, is the server that was found dead
  · obtain ⟨pid, hwritten, hdead⟩ := Stage.act_abandon hn
    intro q hq
    rwa [h.written i pid hwritten q hq]

theorem turn_removeFiles (h : Inv s)
    (hstage : s.stage i = .clear ∨ s.stage i = .abandon ∨ s.stage i = .remove)
    (hstale : Stale s.unit.pidFile s.unit.alive) : Inv (s.step (.turn i)) := by
  have hunit : ((s.stage i).act s.unit).1 = s.unit.removeFiles := by
    rcases hstage with hi | hi | hi <;> rw [hi] <;> rfl
  have hlock : s.stage i ≠ .takeLock := by
    rcases hstage with hi | hi | hi <;> simp [hi]
  simp only [step]
  rw [hunit]
  refine h.move (Stage.follows_act _ (.inr hstage)) ?_ rfl (Finset.Subset.refl _)
    (fun q hq => by cases hq) (h.accounted.forget hstale fun _ hp => hp) fun _ => stale_none _
  exact h.lock.mono fun j => of_goto (·.holds = true) (Stage.holds_act _ hlock)

theorem takeLock (h : Inv s) (hstage : s.stage i = .takeLock) (hlock : s.unit.lock = false) :
    Inv (s.goto i { s.unit with lock := true } .verify) := by
  refine h.move (by rw [hstage]; constructor <;> simp) ?_ rfl (Finset.Subset.refl _)
    (fun q hq => hq) h.accounted (fun hn => by cases hn)
  have hfree := h.lock
  rw [hlock] at hfree
  refine hfree.take (i := i) fun j hj => ?_
  by_cases hji : j = i
  · exact .inl hji
  · exact .inr (by rwa [stage_goto_ne hji] at hj)

theorem unlock {o : Outcome} (h : Inv s) (hstage : s.stage i = .unlock o) :
    Inv (s.goto i { s.unit with lock := false } (.exited o)) := by
  refine h.move (by rw [hstage]; cases o <;> constructor <;> simp) ?_ rfl (Finset.Subset.refl _)
    (fun q hq => hq) h.accounted (fun hn => by cases hn)
  refine h.lock.drop (i := i) (by rw [hstage]; rfl) fun j hj => ?_
  by_cases hji : j = i
  · subst hji
    rw [stage_goto_self] at hj
    cases hj
  · exact ⟨hji, by rwa [stage_goto_ne hji] at hj⟩

/-- The command that is past the lock is alone there. -/
theorem eq_of_goto (h : Inv s) (hi : (s.stage i).holds = true) {j : ℕ}
    (hj : ((s.goto i u stage).stage j).holds = true) : j = i := by
  by_contra hji
  rw [stage_goto_ne hji] at hj
  exact hji (h.lock.eq_of_holds j i hj hi)

theorem launch (h : Inv s) (hstage : s.stage i = .launch) :
    Inv (s.goto i s.unit.launch (.writePid s.unit.nextPid)) := by
  have hholds : (s.stage i).holds = true := by rw [hstage]; rfl
  refine ⟨h.lock.mono fun j => of_goto (·.holds = true) fun _ => hholds, ?_, ?_,
    fun j pid hj => ?_, fun j hj => ?_⟩
  · refine h.allotted.create (i := i) fun j pid hj => ?_
    by_cases hji : j = i
    · subst hji
      rw [stage_goto_self] at hj
      exact .inl ⟨rfl, (Option.some.inj hj).symm⟩
    · exact .inr (by rwa [stage_goto_ne hji] at hj)
  · refine h.accounted.create ⟨i, by rw [stage_goto_self]; rfl⟩ fun pid ⟨j, hj⟩ => ⟨j, ?_⟩
    exact to_goto (·.writing = some pid) (by simp [hstage]) hj
  · obtain rfl := h.eq_of_goto hholds (Stage.holds_of_written hj)
    rw [stage_goto_self] at hj
    cases hj
  · obtain rfl := h.eq_of_goto hholds (by rw [hj]; rfl)
    rw [stage_goto_self] at hj
    cases hj

theorem writePid {pid : ℕ} (h : Inv s) (hstage : s.stage i = .writePid pid)
    (hstale : Stale s.unit.pidFile s.unit.alive) :
    Inv (s.goto i { s.unit with pidFile := some pid } (.writeStart pid)) := by
  have hholds : (s.stage i).holds = true := by rw [hstage]; rfl
  refine ⟨h.lock.mono fun j => of_goto (·.holds = true) fun _ => hholds, ?_, ?_,
    fun j q hj => ?_, fun j hj => ?_⟩
  · exact h.allotted.mono fun j q => of_goto (·.server = some q) (by simp [hstage])
  -- the one server without a name is the one written down now
  · refine h.accounted.register hstale fun q ⟨j, hj⟩ => ?_
    obtain rfl := h.lock.eq_of_holds j i (Stage.holds_of_writing hj) hholds
    rw [hstage] at hj
    exact (Option.some.inj hj).symm
  · obtain rfl := h.eq_of_goto hholds (Stage.holds_of_written hj)
    rw [stage_goto_self] at hj
    intro r hr
    rw [← Option.some.inj hr, ← Option.some.inj hj]
  · obtain rfl := h.eq_of_goto hholds (by rw [hj]; rfl)
    rw [stage_goto_self] at hj
    cases hj

theorem exits (h : Inv s) (pid : ℕ) : Inv (s.step (.exits pid)) where
  lock := h.lock
  allotted := h.allotted
  accounted := h.accounted.mono (Finset.erase_subset _ _) fun _ hp => hp
  written := h.written
  abandoned i hi := (h.abandoned i hi).mono (Finset.erase_subset _ _)

theorem call (h : Inv s) (i : ℕ) (c : RemoteCommand) : Inv (s.step (.call i c)) := by
  simp only [step]
  split_ifs with hidle
  · have hwriting : (s.stage i).writing = none := by rw [hidle]; rfl
    rcases c.first_cases with hfirst | ⟨caller, hfirst⟩ <;> rw [hfirst]
    · exact h.stay (Stage.follows_outside rfl rfl hwriting) (fun hh => by cases hh)
        fun hn => by cases hn
    · exact h.stay (Stage.follows_outside rfl rfl hwriting) (fun hh => by cases hh)
        fun hn => by cases hn
  · exact h

theorem fails (h : Inv s) (i : ℕ) : Inv (s.step (.fails i)) := by
  simp only [step]
  rcases (s.stage i).fail_cases with hsame | ⟨hfail, hholds, hwriting⟩
  · rw [hsame, goto_self]
    exact h
  · rw [hfail]
    refine h.stay ⟨fun pid hp => ?_, fun pid hp => ?_, fun pid hp => ?_⟩ (fun _ => hholds)
      fun hn => ?_
    · cases hp
    · cases hp
    · rw [hwriting] at hp
      cases hp
    · cases hn

theorem turn (h : Inv s) (i : ℕ) (hc : s.StillStopped (.turn i)) : Inv (s.step (.turn i)) := by
  simp only [StillStopped] at hc
  cases hstage : s.stage i with
  | clear =>
    rw [hstage] at hc
    exact h.turn_removeFiles (.inl hstage) (RemoteUnit.running_eq_false.1 hc)
  | takeLock =>
    simp only [step, hstage, Stage.act]
    split_ifs with hlock
    · exact h.stay (by rw [hstage]; exact Stage.follows_outside rfl rfl rfl)
        (fun hh => by cases hh) fun hn => by cases hn
    · exact h.takeLock hstage (by simpa using hlock)
  | launch => simpa only [step, hstage, Stage.act] using h.launch hstage
  | writePid pid =>
    rw [hstage] at hc
    simpa only [step, hstage, Stage.act] using h.writePid hstage (RemoteUnit.running_eq_false.1 hc)
  | abandon => exact h.turn_removeFiles (.inr (.inl hstage)) (h.abandoned i hstage)
  | unlock o => simpa only [step, hstage, Stage.act] using h.unlock hstage
  | remove =>
    rw [hstage] at hc
    exact h.turn_removeFiles (.inr (.inr hstage)) (RemoteUnit.running_eq_false.1 hc)
  | _ => exact h.turn_quiet (by rw [hstage]; rfl)

theorem step (h : Inv s) (e : Event) (hc : s.StillStopped e) : Inv (s.step e) := by
  cases e with
  | call i c => exact h.call i c
  | turn i => exact h.turn i hc
  | fails i => exact h.fails i
  | exits pid => exact h.exits pid

/-- A server that was reported was also written down, so only the pid file can account for it. -/
theorem named (h : Inv s) {pid : ℕ} (hreported : s.Reported pid) (halive : pid ∈ s.unit.alive) :
    s.unit.pidFile = some pid := by
  refine (h.accounted pid halive).resolve_right fun ⟨j, hj⟩ => ?_
  obtain ⟨i, hi⟩ := hreported
  have hserver : (s.stage i).server = some pid := by rcases hi with hi | hi <;> rw [hi] <;> rfl
  obtain rfl := h.allotted.eq_of_own i j pid hserver (Stage.server_of_writing hj)
  rcases hi with hi | hi <;> rw [hi] at hj <;> cases hj

theorem oneServer (h : Inv s) : s.OneServer where
  one _ _ hp hq hpa hqa := Option.some.inj ((h.named hp hpa).symm.trans (h.named hq hqa))
  named _ hp hpa := h.named hp hpa

end Inv

/-- A command that does not meet the condition loses the name of a server that was reported. -/
theorem not_oneServer_of_reported (h : Inv s) {i pid : ℕ} (hc : ¬ s.StillStopped (.turn i))
    (hreported : s.Reported pid) (halive : pid ∈ s.unit.alive) :
    ¬ (s.step (.turn i)).OneServer := by
  obtain ⟨j, hj⟩ := hreported
  simp only [StillStopped] at hc
  have hne : j ≠ i := by
    rintro rfl
    rcases hj with hj | hj <;> simp [hj] at hc
  have hkept : (s.step (.turn i)).Reported pid := ⟨j, by
    simp only [step]
    rwa [stage_goto_ne hne]⟩
  intro hone
  cases hstage : s.stage i with
  | clear | remove =>
    have hnamed := hone.named pid hkept (by simpa [step, hstage, Stage.act] using halive)
    simp [step, hstage, Stage.act] at hnamed
  | writePid p =>
    have hnamed := hone.named pid hkept (by simpa [step, hstage, Stage.act] using halive)
    simp only [step, hstage, Stage.act, unit_goto, Option.some.injEq] at hnamed
    subst hnamed
    have hserver : (s.stage j).server = some p := by rcases hj with hj | hj <;> rw [hj] <;> rfl
    exact hne (h.allotted.eq_of_own j i p hserver (by rw [hstage]; rfl))
  | _ => simp [hstage] at hc

/-- Whatever the files were left at and whatever the commands do, at most one server runs that was
reported, under the name in the pid file, as long as no command removes or overwrites the pid file
while `running` answers yes. -/
theorem always_oneServer (u : RemoteUnit) {es : List Event}
    (hc : Run.Meets step StillStopped (boot u) es) :
    Run.Always step OneServer (boot u) es :=
  Run.always_of_meets (fun _ h => h.oneServer) (fun _ e h hc => h.step e hc) es (inv_boot u) hc

/-- A unit after a reboot, with the files of the session before. -/
def rebooted : RemoteUnit where
  pidFile := some 7
  startFile := true
  lock := false
  alive := ∅
  nextPid := 100

def turns (i n : ℕ) : List Event := List.replicate n (.turn i)

/-- One start from end to end, then a stop, then another start. -/
def inTurn : List Event :=
  .call 0 (.start "00abcdef") :: turns 0 16 ++ .call 1 .stop :: turns 1 2 ++
    [.turn 1, .turn 1, .exits 100] ++ turns 1 4 ++ .call 2 (.start "12345678") :: turns 2 16

theorem inTurn_oneServer : Run.Always step OneServer (boot rebooted) inTurn :=
  always_oneServer rebooted (by decide +kernel)

/-- Two starts that both looked before either launched: the second removes the name of the first's
server and starts its own. -/
def overtaken : List Event :=
  .call 0 (.start "00abcdef") :: .call 1 (.start "12345678") :: turns 1 2 ++ turns 0 16 ++
    turns 1 14

/-- A stop that looked before the start wrote the pid file. -/
def stoppedEarly : List Event :=
  .call 0 (.start "00abcdef") :: .call 1 .stop :: turns 1 2 ++ turns 0 16 ++ turns 1 1

theorem two_servers_run :
    (¬ ∀ (u : RemoteUnit) (es : List Event), Run.Always step OneServer (boot u) es)
    ∧ (¬ (Run.final step (boot rebooted) overtaken).OneServer)
    ∧ (¬ (Run.final step (boot rebooted) stoppedEarly).OneServer) := by
  have htwo : ¬ (Run.final step (boot rebooted) overtaken).OneServer := fun h =>
    absurd (h.one 100 101 ⟨0, .inr (by decide +kernel)⟩ ⟨1, .inr (by decide +kernel)⟩
      (by decide +kernel) (by decide +kernel)) (by decide)
  refine ⟨fun h => htwo (h rebooted overtaken).final, htwo, fun h => ?_⟩
  have hnamed := h.named 100 ⟨0, .inr (by decide +kernel)⟩ (by decide +kernel)
  exact absurd hnamed (by decide +kernel)

end Remote

end Rackphone
