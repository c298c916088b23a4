import Rackphone.Session

/-!
# The lease discipline

Every way out of an acquire that has made a start either holds a session or has made a stop
attempt, and a session ends only by a release, which makes one or could not resolve the device.
-/

namespace Rackphone

namespace SessionManager

variable {m : SessionManager} {unit unit' : String} {now : ℤ}

@[simp] theorem sessions_record (e : LogEntry) : (m.record e).sessions = m.sessions := rfl

@[simp] theorem log_record (e : LogEntry) : (m.record e).log = e :: m.log := rfl

@[simp] theorem sessions_closeTunnel (unit serial : String) (tunnel : Option Tunnel) :
    (m.closeTunnel unit serial tunnel).sessions = m.sessions := by
  rcases tunnel with _ | ⟨port, _ | remote⟩ <;> rfl

@[simp] theorem leftRunning_closeTunnel (unit serial : String) (tunnel : Option Tunnel) :
    leftRunning unit' (m.closeTunnel unit serial tunnel).log = leftRunning unit' m.log := by
  rcases tunnel with _ | ⟨port, _ | remote⟩ <;> rfl

@[simp] theorem sessions_stop (unit serial : String) :
    (m.stop unit serial).sessions = m.sessions := rfl

@[simp] theorem leftRunning_stop (unit serial : String) :
    leftRunning unit' (m.stop unit serial).log ↔ unit ≠ unit' ∧ leftRunning unit' m.log := Iff.rfl

/-- A session stands under its own unit, and a unit without one was left stopped. -/
structure Inv (m : SessionManager) : Prop where
  keyed : ∀ u s, m.sessions.get u = some s → s.unit = u
  stopped : ∀ u, m.sessions.get u = none → ¬ leftRunning u m.log

theorem inv_opened (plugin socket kind : String) (reverse : Bool) :
    (opened plugin socket kind reverse).Inv :=
  ⟨fun _ _ h => (nomatch h), fun _ _ h => h⟩

@[simp] theorem get_releaseLocked (lookup : UnitLookup) :
    (m.releaseLocked unit lookup).sessions.get unit'
      = if unit' = unit then none else m.sessions.get unit' := by
  unfold releaseLocked
  cases lookup.cleanupSerial <;> simp

theorem leftRunning_releaseLocked (lookup : UnitLookup) :
    leftRunning unit' (m.releaseLocked unit lookup).log ↔
      unit ≠ unit' ∧ leftRunning unit' m.log := by
  unfold releaseLocked
  cases lookup.cleanupSerial with
  | none => exact Iff.rfl
  | some serial => simp

theorem Inv.releaseLocked (h : m.Inv) (unit : String) (lookup : UnitLookup) :
    (m.releaseLocked unit lookup).Inv where
  keyed u s hs := by
    rw [get_releaseLocked] at hs
    split_ifs at hs
    exact h.keyed u s hs
  stopped u hu hrun := by
    rw [leftRunning_releaseLocked] at hrun
    rw [get_releaseLocked, if_neg hrun.1.symm] at hu
    exact h.stopped u hu hrun.2

/-- What an operation that tries to give a unit a session leaves: the session it answers with,
or none. -/
structure Attempt (unit : String) (now : ℤ)
    (r : SessionManager × Except AcquireError ScreenSession) : Prop where
  inv : r.1.Inv
  ok : ∀ s, r.2 = .ok s → r.1.sessions.get unit = some s ∧ s.lastSeen = now
  raised : ∀ e, r.2 = .error e → e = .raised ∧ r.1.sessions.get unit = none

/-- No session of the unit is held, and only the unit may have been left running. -/
structure Starting (m : SessionManager) (unit : String) : Prop where
  keyed : ∀ u s, m.sessions.get u = some s → s.unit = u
  free : m.sessions.get unit = none
  stopped : ∀ u, u ≠ unit → m.sessions.get u = none → ¬ leftRunning u m.log

theorem Inv.starting (h : m.Inv) (hfree : m.sessions.get unit = none) : m.Starting unit :=
  ⟨h.keyed, hfree, fun u _ => h.stopped u⟩

namespace Starting

theorem record (h : m.Starting unit) (serial : String) (c : DeviceCall) :
    (m.record (.call unit serial c)).Starting unit where
  keyed := h.keyed
  free := h.free
  stopped u hne hu hrun := by
    refine h.stopped u hne hu ?_
    cases c with
    | start plugin socketId => exact hrun.resolve_left fun he => hne he.symm
    | stop plugin => exact hrun.2
    | _ => exact hrun

theorem abandon (h : m.Starting unit) (serial : String) (tunnel : Option Tunnel) :
    Attempt unit now (m.abandon unit serial tunnel) where
  inv := by
    refine ⟨fun u s hs => h.keyed u s (by simpa [SessionManager.abandon] using hs),
      fun u hu hrun => ?_⟩
    simp only [SessionManager.abandon, sessions_stop, sessions_closeTunnel] at hu
    simp only [SessionManager.abandon, leftRunning_stop, leftRunning_closeTunnel] at hrun
    exact h.stopped u hrun.1.symm hu hrun.2
  ok _ hs := nomatch hs
  raised e he := ⟨(Except.error.inj he).symm, by simpa [SessionManager.abandon] using h.free⟩

theorem establish (h : m.Starting unit) (holder : String) (tunnel : Tunnel) :
    Attempt unit now (m.establish unit holder now tunnel) where
  inv := by
    refine ⟨fun u s hs => ?_, fun u hu => ?_⟩
    · simp only [SessionManager.establish, Dict.get_set] at hs
      split_ifs at hs with hu
      · obtain rfl := Option.some.inj hs
        exact hu.symm
      · exact h.keyed u s hs
    · simp only [SessionManager.establish, Dict.get_set] at hu
      split_ifs at hu with hne
      exact h.stopped u hne hu
  ok s hs := by
    obtain rfl := Except.ok.inj hs
    simp [SessionManager.establish]
  raised _ he := nomatch he

theorem startDevice (h : m.Starting unit) (holder serial socketId remote : String)
    (tunnel : Option Tunnel) (env : AcquireEnv) :
    Attempt unit now (m.startDevice unit holder serial socketId remote now tunnel env) := by
  unfold SessionManager.startDevice
  have hstart := h.record serial (.start m.plugin socketId)
  split_ifs
  · cases tunnel with
    | some tunnel => exact hstart.establish holder tunnel
    | none =>
      have hforward := hstart.record serial (.forward remote)
      cases env.forward with
      | some port => exact hforward.establish holder ⟨port, none⟩
      | none => exact hforward.abandon serial none
  · exact hstart.abandon serial tunnel

end Starting

theorem openTunnel_cases (m : SessionManager) (unit serial remote : String) (env : AcquireEnv) :
    (m.openTunnel unit serial remote env).1 = m
      ∨ ∃ port, (m.openTunnel unit serial remote env).1
        = m.record (.call unit serial (.reverse remote port)) := by
  unfold openTunnel
  rcases m.reverse with _ | _
  · exact .inl rfl
  · rcases env.port with _ | port
    · exact .inl rfl
    · refine .inr ⟨port, ?_⟩
      cases env.reverse <;> rfl

theorem openTunnel_error {serial remote : String} {env : AcquireEnv} {e : AcquireError}
    (h : (m.openTunnel unit serial remote env).2 = .error e) : e = .raised := by
  revert h
  unfold openTunnel
  rcases m.reverse with _ | _
  · exact nofun
  · rcases env.port with _ | port
    · exact fun h => (Except.error.inj h).symm
    · rcases env.reverse with _ | _
      · exact fun h => (Except.error.inj h).symm
      · exact nofun

theorem Inv.openTunnel (h : m.Inv) (unit serial remote : String) (env : AcquireEnv) :
    (m.openTunnel unit serial remote env).1.Inv
      ∧ (m.openTunnel unit serial remote env).1.sessions = m.sessions := by
  rcases openTunnel_cases m unit serial remote env with he | ⟨port, he⟩
  · rw [he]
    exact ⟨h, rfl⟩
  · rw [he]
    exact ⟨⟨h.keyed, h.stopped⟩, rfl⟩

theorem Inv.acquireFree (h : m.Inv) (hfree : m.sessions.get unit = none) (holder : String)
    (now : ℤ) (env : AcquireEnv) : Attempt unit now (m.acquireFree unit holder now env) := by
  unfold SessionManager.acquireFree
  cases env.lookup.serial with
  | none => exact ⟨h, fun _ hs => (nomatch hs), fun e he => ⟨(Except.error.inj he).symm, hfree⟩⟩
  | some serial =>
    obtain ⟨hI, hsess⟩ :=
      h.openTunnel unit serial (m.socket ++ "_" ++ socketIdText env.socketId) env
    have hfree' := hfree
    rw [← hsess] at hfree'
    rcases ho : m.openTunnel unit serial (m.socket ++ "_" ++ socketIdText env.socketId) env
      with ⟨m', e | tunnel⟩
    · rw [ho] at hI hfree'
      simp only [ho]
      refine ⟨hI, fun _ hs => (nomatch hs), fun e' he => ⟨?_, hfree'⟩⟩
      rw [← Except.error.inj he]
      exact openTunnel_error (congrArg Prod.snd ho)
    · rw [ho] at hI hfree'
      simp only [ho]
      exact (hI.starting hfree').startDevice holder serial _ _ tunnel env

def Free (m : SessionManager) (unit : String) (now : ℤ) : Prop :=
  ∀ s, m.sessions.get unit = some s → s.Stale now

/-- An acquire is refused as busy or made on a free unit. -/
theorem acquire_cases (m : SessionManager) (unit holder : String) (now : ℤ) (env : AcquireEnv) :
    (∃ e, m.acquire unit holder now env = (m, .error (.busy e))) ∨ m.Free unit now
      ∧ ∃ m' : SessionManager, (m.Inv → m'.Inv) ∧ m'.sessions.get unit = none
        ∧ m.acquire unit holder now env = m'.acquireFree unit holder now env := by
  unfold acquire Free
  rcases hget : m.sessions.get unit with _ | current
  · exact .inr ⟨fun _ h => (nomatch h), m, id, hget, rfl⟩
  · by_cases hst : current.Stale now
    · refine .inr ⟨fun s hs => Option.some.inj hs ▸ hst, m.releaseLocked unit env.stale,
        fun h => h.releaseLocked unit env.stale, by simp, if_pos hst⟩
    · exact .inl ⟨_, if_neg hst⟩

theorem Inv.acquire (h : m.Inv) (unit holder : String) (now : ℤ) (env : AcquireEnv) :
    (m.acquire unit holder now env).1.Inv := by
  rcases acquire_cases m unit holder now env with ⟨e, he⟩ | ⟨-, m', hI, hfree, he⟩
  · rw [he]
    exact h
  · rw [he]
    exact ((hI h).acquireFree hfree holder now env).inv

/-- A heartbeat answers nothing and leaves the table as it is, ends the session or renews it. -/
theorem heartbeat_cases (m : SessionManager) (unit : String) (now : ℤ) (holder : Option String)
    (lookup : UnitLookup) :
    m.heartbeat unit now holder lookup = (m, none)
      ∨ m.heartbeat unit now holder lookup = (m.releaseLocked unit lookup, none)
      ∨ ∃ current, m.sessions.get unit = some current ∧ ¬ current.Stale now
        ∧ m.heartbeat unit now holder lookup
          = ({ m with sessions := m.sessions.set unit { current with lastSeen := now } },
              some { current with lastSeen := now }) := by
  unfold heartbeat
  rcases hget : m.sessions.get unit with _ | current
  · exact .inl rfl
  · by_cases hh : ∃ h, holder = some h ∧ current.holder ≠ h
    · exact .inl (if_pos hh)
    · by_cases hst : current.Stale now
      · exact .inr (.inl (by simp only [if_neg hh, if_pos hst]))
      · exact .inr (.inr ⟨current, rfl, hst, by simp only [if_neg hh, if_neg hst]⟩)

theorem Inv.heartbeat (h : m.Inv) (unit : String) (now : ℤ) (holder : Option String)
    (lookup : UnitLookup) : (m.heartbeat unit now holder lookup).1.Inv := by
  rcases heartbeat_cases m unit now holder lookup with he | he | ⟨current, hget, -, he⟩
  · rw [he]
    exact h
  · rw [he]
    exact h.releaseLocked unit lookup
  · rw [he]
    refine ⟨fun u s hs => ?_, fun u hu => ?_⟩
    · rw [Dict.get_set] at hs
      split_ifs at hs with hu
      · rw [← Option.some.inj hs, hu]
        exact h.keyed unit current hget
      · exact h.keyed u s hs
    · rw [Dict.get_set] at hu
      split_ifs at hu
      exact h.stopped u hu

theorem get_foldl_releaseLocked (lookups : String → UnitLookup) :
    ∀ (units : List String) (m : SessionManager),
      (units.foldl (fun m unit => m.releaseLocked unit (lookups unit)) m).sessions.get unit
        = if unit ∈ units then none else m.sessions.get unit
  | [], _ => by simp
  | u :: units, m => by
    rw [List.foldl_cons, get_foldl_releaseLocked lookups units, get_releaseLocked]
    by_cases hu : unit = u
    · simp [hu]
    · simp [hu]

theorem mem_staleUnits : unit ∈ m.staleUnits now ↔
    ∃ s, m.sessions.get unit = some s ∧ s.Stale now := by
  simp [staleUnits, Dict.get_eq_some]

theorem Inv.reap (h : m.Inv) (now : ℤ) (lookups : String → UnitLookup) :
    (m.reap now lookups).Inv := by
  unfold SessionManager.reap
  induction m.staleUnits now generalizing m with
  | nil => exact h
  | cons unit units ih => exact ih (h.releaseLocked unit (lookups unit))

theorem Inv.call (h : m.Inv) (now : ℤ) (op : Op) : (m.call now op).Inv := by
  cases op with
  | acquire unit holder env => exact h.acquire unit holder now env
  | heartbeat unit holder lookup => exact h.heartbeat unit now holder lookup
  | release unit lookup => exact h.releaseLocked unit lookup
  | takeOver unit holder lookup env =>
    exact (h.releaseLocked unit lookup).acquire unit holder now env
  | reap lookups => exact h.reap now lookups

/-! ### What a call leaves in the table -/

/-- Every session held afterwards was held before, or is the one the unit was given. -/
structure Grants (m : SessionManager) (unit : String)
    (r : SessionManager × Except AcquireError ScreenSession) : Prop where
  kept : ∀ u session, r.1.sessions.get u = some session →
    m.sessions.get u = some session ∨ u = unit ∧ r.2 = .ok session
  granted : ∀ session, r.2 = .ok session → r.1.sessions.get unit = some session

theorem Grants.mono {m' : SessionManager} {r : SessionManager × Except AcquireError ScreenSession}
    (h : m'.Grants unit r)
    (hsub : ∀ u session, m'.sessions.get u = some session → m.sessions.get u = some session) :
    m.Grants unit r :=
  ⟨fun u session hs => (h.kept u session hs).imp_left (hsub u session), h.granted⟩

theorem grants_error {m' : SessionManager} (hsess : m'.sessions = m.sessions) (e : AcquireError) :
    m.Grants unit (m', .error e) :=
  ⟨fun u session hs => .inl (by rwa [hsess] at hs), fun _ hs => (nomatch hs)⟩

theorem grants_abandon (m : SessionManager) (unit serial : String) (tunnel : Option Tunnel) :
    m.Grants unit (m.abandon unit serial tunnel) :=
  grants_error (by simp) .raised

theorem grants_establish (m : SessionManager) (unit holder : String) (now : ℤ) (tunnel : Tunnel) :
    m.Grants unit (m.establish unit holder now tunnel) := by
  refine ⟨fun u session hs => ?_, fun session hs => ?_⟩
  · simp only [establish, Dict.get_set] at hs
    split_ifs at hs with hu
    · exact .inr ⟨hu, congrArg Except.ok (Option.some.inj hs)⟩
    · exact .inl hs
  · obtain rfl := Except.ok.inj hs
    simp [establish]

theorem grants_startDevice (m : SessionManager) (unit holder serial socketId remote : String)
    (now : ℤ) (tunnel : Option Tunnel) (env : AcquireEnv) :
    m.Grants unit (m.startDevice unit holder serial socketId remote now tunnel env) := by
  unfold startDevice
  split_ifs
  · cases tunnel with
    | some tunnel => exact (grants_establish _ unit holder now tunnel).mono fun _ _ h => h
    | none =>
      cases env.forward with
      | some port => exact (grants_establish _ unit holder now ⟨port, none⟩).mono fun _ _ h => h
      | none => exact (grants_abandon _ unit serial none).mono fun _ _ h => h
  · exact (grants_abandon _ unit serial tunnel).mono fun _ _ h => h

theorem sessions_openTunnel (m : SessionManager) (unit serial remote : String) (env : AcquireEnv) :
    (m.openTunnel unit serial remote env).1.sessions = m.sessions := by
  rcases openTunnel_cases m unit serial remote env with he | ⟨port, he⟩
  · rw [he]
  · rw [he]
    rfl

theorem grants_acquireFree (m : SessionManager) (unit holder : String) (now : ℤ)
    (env : AcquireEnv) : m.Grants unit (m.acquireFree unit holder now env) := by
  unfold acquireFree
  cases env.lookup.serial with
  | none => exact grants_error rfl .raised
  | some serial =>
    have hsess := m.sessions_openTunnel unit serial
      (m.socket ++ "_" ++ socketIdText env.socketId) env
    rcases ho : m.openTunnel unit serial (m.socket ++ "_" ++ socketIdText env.socketId) env
      with ⟨m', e | tunnel⟩
    · rw [ho] at hsess
      simp only [ho]
      exact grants_error hsess e
    · rw [ho] at hsess
      simp only [ho]
      exact (grants_startDevice m' unit holder serial _ _ now tunnel env).mono fun u session h => by
        rwa [← hsess]

theorem get_of_get_releaseLocked {lookup : UnitLookup} {session : ScreenSession}
    (h : (m.releaseLocked unit lookup).sessions.get unit' = some session) :
    m.sessions.get unit' = some session := by
  rw [get_releaseLocked] at h
  split_ifs at h
  exact h

theorem grants_acquire (m : SessionManager) (unit holder : String) (now : ℤ) (env : AcquireEnv) :
    m.Grants unit (m.acquire unit holder now env) := by
  unfold acquire
  rcases m.sessions.get unit with _ | current
  · exact m.grants_acquireFree unit holder now env
  · by_cases hst : current.Stale now
    · simp only [if_pos hst]
      exact (grants_acquireFree _ unit holder now env).mono fun _ _ => get_of_get_releaseLocked
    · simp only [if_neg hst]
      exact grants_error rfl _

theorem grants_takeOver (m : SessionManager) (unit holder : String) (now : ℤ) (lookup : UnitLookup)
    (env : AcquireEnv) : m.Grants unit (m.takeOver unit holder now lookup env) :=
  (grants_acquire _ unit holder now env).mono fun _ _ => get_of_get_releaseLocked

/-! ### The discipline -/

/-- No unit has two sessions, one that has none is not left running, and a session was last seen at
the unit's last heartbeat. -/
structure Disciplined (s : Moment) : Prop where
  single : ∀ unit, (s.manager.sessions.items.filter fun i => i.2.unit = unit).length ≤ 1
  stopped : ∀ unit, s.manager.sessions.get unit = none → ¬ leftRunning unit s.manager.log
  lastSeen : ∀ unit session, s.manager.sessions.get unit = some session →
    s.lastHeartbeat unit = some session.lastSeen

/-- An acquire gets a session only where the unit had none or its last heartbeat is more than the
lease ago, changes nothing where the unit is busy and leaves it without a session where it fails in
another way. -/
structure AcquireKeeps (s : Moment) (unit : String) (now : ℤ)
    (r : SessionManager × Except AcquireError ScreenSession) : Prop where
  ok : ∀ session, r.2 = .ok session →
    (s.manager.sessions.get unit = none ∨ s.LeaseOver unit now)
      ∧ r.1.sessions.get unit = some session
  busy : ∀ e, r.2 = .error (.busy e) → r.1 = s.manager
  raised : r.2 = .error .raised → r.1.sessions.get unit = none

/-- A heartbeat renews a session that is held, and does not bring back one whose lease has run
out. -/
structure HeartbeatKeeps (s : Moment) (unit : String) (now : ℤ)
    (r : SessionManager × Option ScreenSession) : Prop where
  renewed : ∀ session, r.2 = some session →
    s.manager.sessions.get unit ≠ none ∧ r.1.sessions.get unit = some session
      ∧ session.lastSeen = now
  expired : s.LeaseOver unit now → r.2 = none ∧
    ∀ session, r.1.sessions.get unit = some session → s.manager.sessions.get unit = some session

/-- What a call may do to the session of its unit. -/
def KeepsLease (s : Moment) (now : ℤ) : Op → Prop
  | .acquire unit holder env => AcquireKeeps s unit now (s.manager.acquire unit holder now env)
  | .heartbeat unit holder lookup =>
    HeartbeatKeeps s unit now (s.manager.heartbeat unit now holder lookup)
  | .release unit lookup => (s.manager.release unit lookup).sessions.get unit = none
  | .takeOver unit holder lookup env =>
    AcquireKeeps { s with manager := s.manager.releaseLocked unit lookup } unit now
      (s.manager.takeOver unit holder now lookup env)
  | .reap lookups =>
    ∀ unit session, (s.manager.reap now lookups).sessions.get unit = some session →
      s.manager.sessions.get unit = some session ∧ ¬ s.LeaseOver unit now

/-- The invariant of a run: the manager's own, with the times of the heartbeats. -/
structure Moment.Inv (s : Moment) : Prop where
  manager : s.manager.Inv
  lastSeen : ∀ unit session, s.manager.sessions.get unit = some session →
    s.lastHeartbeat unit = some session.lastSeen

variable {s : Moment}

theorem inv_atStart (plugin socket kind : String) (reverse : Bool) (now : ℤ) :
    (Moment.atStart plugin socket kind reverse now).Inv :=
  ⟨inv_opened plugin socket kind reverse, fun _ _ h => (nomatch h)⟩

theorem Moment.Inv.stale_iff (h : s.Inv) {session : ScreenSession}
    (hget : s.manager.sessions.get unit = some session) :
    session.Stale now ↔ s.LeaseOver unit now := by
  simp [ScreenSession.Stale, LeaseOver, h.lastSeen unit session hget]

theorem Inv.single (h : m.Inv) (unit : String) :
    (m.sessions.items.filter fun i => i.2.unit = unit).length ≤ 1 := by
  have hkey : ∀ i ∈ m.sessions.items.filter (fun i => i.2.unit = unit), i.1 = unit := by
    intro i hi
    obtain ⟨hmem, hu⟩ := List.mem_filter.1 hi
    rw [← h.keyed i.1 i.2 (Dict.get_eq_some.2 hmem)]
    simpa using hu
  refine Table.length_le_one (List.Nodup.of_map _ m.sessions.nodup |>.filter _) fun i hi j hj => ?_
  exact List.inj_on_of_nodup_map m.sessions.nodup (List.mem_of_mem_filter hi)
    (List.mem_of_mem_filter hj) ((hkey i hi).trans (hkey j hj).symm)

theorem Moment.Inv.disciplined (h : s.Inv) : Disciplined s :=
  ⟨h.manager.single, h.manager.stopped, h.lastSeen⟩

/-- An answer that gives the unit a session gives one that was seen just now. -/
theorem Inv.acquire_lastSeen (h : m.Inv) {holder : String} {env : AcquireEnv}
    {session : ScreenSession} (hok : (m.acquire unit holder now env).2 = .ok session) :
    session.lastSeen = now := by
  rcases acquire_cases m unit holder now env with ⟨e, he⟩ | ⟨-, m', hI, hget, he⟩
  · rw [he] at hok
    exact nomatch hok
  · rw [he] at hok
    exact (((hI h).acquireFree hget holder now env).ok session hok).2

theorem Moment.Inv.acquireKeeps (h : s.Inv) (unit holder : String) (now : ℤ) (env : AcquireEnv) :
    AcquireKeeps s unit now (s.manager.acquire unit holder now env) := by
  rcases acquire_cases s.manager unit holder now env with ⟨e, he⟩ | ⟨hfree, m', hI, hget, he⟩
  · rw [he]
    exact ⟨fun _ hs => (nomatch hs), fun _ _ => rfl, fun hr => (nomatch hr)⟩
  · have ha := (hI h.manager).acquireFree hget holder now env
    rw [he]
    refine ⟨fun session hs => ⟨?_, (ha.ok session hs).1⟩, fun e hb => ?_,
      fun hr => (ha.raised _ hr).2⟩
    · rcases hheld : s.manager.sessions.get unit with _ | current
      · exact .inl rfl
      · exact .inr ((h.stale_iff hheld).1 (hfree current hheld))
    · exact absurd (ha.raised _ hb).1 (by simp)

theorem Moment.Inv.heartbeatKeeps (h : s.Inv) (unit : String) (now : ℤ) (holder : Option String)
    (lookup : UnitLookup) :
    HeartbeatKeeps s unit now (s.manager.heartbeat unit now holder lookup) := by
  rcases heartbeat_cases s.manager unit now holder lookup with he | he | ⟨current, hget, hfresh, he⟩
  · rw [he]
    exact ⟨fun _ hs => (nomatch hs), fun _ => ⟨rfl, fun _ hs => hs⟩⟩
  · rw [he]
    exact ⟨fun _ hs => (nomatch hs), fun _ => ⟨rfl, fun _ => get_of_get_releaseLocked⟩⟩
  · rw [he]
    refine ⟨fun session hs => ?_, fun hover => absurd ((h.stale_iff hget).2 hover) hfresh⟩
    rw [← Option.some.inj hs]
    exact ⟨by simp [hget], by simp, rfl⟩

theorem Moment.Inv.keepsLease (h : s.Inv) (now : ℤ) (op : Op) : KeepsLease s now op := by
  cases op with
  | acquire unit holder env => exact h.acquireKeeps unit holder now env
  | heartbeat unit holder lookup => exact h.heartbeatKeeps unit now holder lookup
  | release unit lookup => exact (get_releaseLocked lookup).trans (if_pos rfl)
  | takeOver unit holder lookup env =>
    have hreleased : Moment.Inv { s with manager := s.manager.releaseLocked unit lookup } :=
      ⟨h.manager.releaseLocked unit lookup, fun u session hs =>
        h.lastSeen u session (get_of_get_releaseLocked hs)⟩
    exact hreleased.acquireKeeps unit holder now env
  | reap lookups =>
    intro unit session hs
    unfold SessionManager.reap at hs
    rw [get_foldl_releaseLocked] at hs
    split_ifs at hs with hmem
    refine ⟨hs, fun hover => hmem (mem_staleUnits.2 ⟨session, hs, ?_⟩)⟩
    exact (h.stale_iff hs).2 hover

/-- A call that gives the unit at most one session keeps the times of the heartbeats. -/
theorem Moment.Inv.lastSeen_of_grants (h : s.Inv)
    {r : SessionManager × Except AcquireError ScreenSession} (hg : s.manager.Grants unit r)
    (hnow : ∀ session, r.2 = .ok session → session.lastSeen = now) (u : String)
    (session : ScreenSession) (hs : r.1.sessions.get u = some session) :
    heard s.lastHeartbeat now (okUnit unit r.2) u = some session.lastSeen := by
  rcases hr : r.2 with e | granted
  · rcases hg.kept u session hs with hkept | ⟨-, hok⟩
    · exact h.lastSeen u session hkept
    · rw [hr] at hok
      exact nomatch hok
  · by_cases hu : u = unit
    · subst hu
      obtain rfl := Option.some.inj ((hg.granted granted hr).symm.trans hs)
      simp [heard, okUnit, hnow granted hr]
    · have hkept := (hg.kept u session hs).resolve_right fun h => hu h.1
      simp [heard, okUnit, hu, h.lastSeen u session hkept]

theorem Moment.Inv.step (h : s.Inv) (a : ℕ × Op) : (SessionManager.step s a).Inv := by
  obtain ⟨dt, op⟩ := a
  refine ⟨h.manager.call (s.now + dt) op, ?_⟩
  cases op with
  | acquire unit holder env =>
    exact h.lastSeen_of_grants (grants_acquire ..) fun _ => h.manager.acquire_lastSeen
  | heartbeat unit holder lookup =>
    intro u session hs
    simp only [SessionManager.step, SessionManager.call, confirmed] at hs ⊢
    rcases heartbeat_cases s.manager unit (s.now + dt) holder lookup with
      he | he | ⟨current, hget, -, he⟩
    · rw [he] at hs ⊢
      exact h.lastSeen u session hs
    · rw [he] at hs ⊢
      exact h.lastSeen u session (get_of_get_releaseLocked hs)
    · rw [he] at hs ⊢
      rw [Dict.get_set] at hs
      split_ifs at hs with hu
      · obtain rfl := Option.some.inj hs
        simp [heard, hu]
      · simp [heard, hu, h.lastSeen u session hs]
  | release unit lookup =>
    exact fun u session hs => h.lastSeen u session (get_of_get_releaseLocked hs)
  | takeOver unit holder lookup env =>
    exact h.lastSeen_of_grants (grants_takeOver ..) fun _ =>
      (h.manager.releaseLocked unit lookup).acquire_lastSeen
  | reap lookups =>
    intro u session hs
    simp only [SessionManager.step, SessionManager.call, SessionManager.reap] at hs
    rw [get_foldl_releaseLocked] at hs
    split_ifs at hs
    exact h.lastSeen u session hs

/-- The lease discipline, for every run of calls and whatever fails on the way. -/
theorem leaseDiscipline (plugin socket kind : String) (reverse : Bool) (now : ℤ)
    (calls : List (ℕ × Op)) :
    Run.Always step Disciplined (Moment.atStart plugin socket kind reverse now) calls
      ∧ Run.Meets step (fun s a => KeepsLease s (s.now + a.1) a.2)
        (Moment.atStart plugin socket kind reverse now) calls := by
  have hinit := inv_atStart plugin socket kind reverse now
  exact ⟨Run.always_of_invariant (fun _ h => h.disciplined) (fun _ a h => h.step a) calls hinit,
    Run.meets_of_invariant (fun s a h => h.keepsLease (s.now + a.1) a.2) (fun _ a h => h.step a)
      calls hinit⟩

end SessionManager

/-- An attached unit on which every call succeeds. -/
def AcquireEnv.attached (port : String) : AcquireEnv where
  stale := ⟨some (some "serial"), some [⟨"serial", true⟩]⟩
  lookup := ⟨some (some "serial"), some [⟨"serial", true⟩]⟩
  socketId := ⟨0, by decide⟩
  port := some port
  reverse := true
  start := true
  forward := some port

end Rackphone
