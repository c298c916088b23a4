import Rackphone.Session

/-!
# Relay handlers and their sessions

`hold_relay` and `acquire_own` of `gateway/api.py` past the authorisation: handlers on the event
loop, their acquires and renewals on worker threads, the screen endpoints, and the pass of the
drain loop whose clock `run_gateway` makes reap. Every action takes a manager's lock at most once.
A time is read before the lock is waited for, so an action carries its own. The schedule may also
interleave two cleanups, which the event loop does not.
-/

namespace Rackphone

inductive Route where
  | screen
  | voice
deriving DecidableEq

/-- What `same_session` compares. A heartbeat keeps it. -/
def ScreenSession.stamp (s : ScreenSession) : String × ℤ × String :=
  (s.holder, s.startedAt, s.localPort)

def sameSession : Option ScreenSession → Option ScreenSession → Bool
  | some current, some mine => current.stamp = mine.stamp
  | _, _ => false

/-- Where a handler stands. A session is numbered by how many were established for its unit. -/
inductive RelayPhase where
  /-- In the loop of `acquire_own`, with no acquire on the way. -/
  | polling
  | acquiring (now : ℤ)
  /-- Over, with its acquire still on the way. -/
  | cancelled (now : ℤ)
  | relaying (mine : ScreenSession) (number : ℕ)
  /-- At the comparison of the `finally` block. -/
  | closing (mine : ScreenSession) (number : ℕ)
  /-- At the release, with how many sessions had been established at the comparison. -/
  | releasing (mine : ScreenSession) (number compared : ℕ)
  | ended
deriving DecidableEq

/-- The session a handler acquired and has not let go, with its number. -/
def RelayPhase.acquired : RelayPhase → Option (ScreenSession × ℕ)
  | relaying mine number | closing mine number | releasing mine number _ => some (mine, number)
  | polling | acquiring _ | cancelled _ | ended => none

inductive ScreenCall where
  | acquire (unit holder : String) (env : AcquireEnv)
  | takeOver (unit holder : String) (lookup : UnitLookup) (env : AcquireEnv)
  | heartbeat (unit holder : String) (lookup : UnitLookup)
  | release (unit : String) (lookup : UnitLookup)

structure Relays (n : ℕ) where
  route : Fin n → Route
  unit : Fin n → String
  holder : Fin n → String

namespace Relays

variable {n : ℕ} (R : Relays n)

structure State (n : ℕ) where
  managers : Route → SessionManager
  /-- The sessions that were established for a unit, the latest last. -/
  made : Route → String → List ScreenSession
  phases : Fin n → RelayPhase
  /-- The times of the renewals on their way. -/
  beats : Fin n → Option ℤ

/-- The managers of `create_app`. -/
def manager : Route → SessionManager
  | .screen => .opened "remote" "localabstract:scrcpy" "screen" true
  | .voice => .opened "voice" "localabstract:rackphone-voice" "call" false

def init (n : ℕ) : State n := ⟨manager, fun _ _ => [], fun _ => .polling, fun _ => none⟩

namespace State

variable (s : State n)

def held (route : Route) (unit : String) : Option ScreenSession :=
  (s.managers route).sessions.get unit

/-- The session a manager holds is the latest that was established for the unit. -/
def Holds (route : Route) (unit : String) (number : ℕ) : Prop :=
  (s.held route unit).isSome ∧ (s.made route unit).length = number

def goto (i : Fin n) (p : RelayPhase) : State n :=
  { s with phases := Function.update s.phases i p }

def beat (i : Fin n) (b : Option ℤ) : State n := { s with beats := Function.update s.beats i b }

def put (route : Route) (m : SessionManager) : State n :=
  { s with managers := Function.update s.managers route m }

/-- What an acquire or a take-over of the unit leaves. -/
def grant (route : Route) (unit : String)
    (r : SessionManager × Except AcquireError ScreenSession) : State n :=
  match r with
  | (m, .error _) => s.put route m
  | (m, .ok session) =>
    { s.put route m with
      made := fun r u => if r = route ∧ u = unit then s.made r u ++ [session] else s.made r u }

/-- A screen endpoint, past `require_unit`. -/
def call (now : ℤ) : ScreenCall → State n
  | .acquire unit holder env =>
    s.grant .screen unit ((s.managers .screen).acquire unit holder now env)
  | .takeOver unit holder lookup env =>
    s.grant .screen unit ((s.managers .screen).takeOver unit holder now lookup env)
  | .heartbeat unit holder lookup =>
    s.put .screen ((s.managers .screen).heartbeat unit now (some holder) lookup).1
  | .release unit lookup => s.put .screen ((s.managers .screen).release unit lookup)

end State

inductive Action (n : ℕ) where
  | submit (i : Fin n) (now : ℤ)
  /-- A worker thread runs the acquire; then the grace of `acquire_own` is over or not. -/
  | acquire (i : Fin n) (env : AcquireEnv) (graceOver : Bool)
  /-- The handler fails, is cancelled or loses its client. -/
  | leave (i : Fin n)
  | renew (i : Fin n) (now : ℤ)
  | heartbeat (i : Fin n) (lookup : UnitLookup)
  | compare (i : Fin n)
  | release (i : Fin n) (lookup : UnitLookup)
  | screen (now : ℤ) (call : ScreenCall)
  | pass (now : ℤ) (lookups : String → UnitLookup)

/-- What `acquire_own` and `hold_relay` make of what the acquire answered. -/
def acquired (s : State n) (i : Fin n) (graceOver : Bool) :
    Except AcquireError ScreenSession → RelayPhase
  | .ok session => .relaying session (s.made (R.route i) (R.unit i)).length
  | .error (.busy e) => if e.holder = R.holder i ∧ ¬ graceOver then .polling else .ended
  | .error .raised => .ended

def step (s : State n) : Action n → State n
  | .submit i now => if s.phases i = .polling then s.goto i (.acquiring now) else s
  | .acquire i env graceOver =>
    let acquire now := (s.managers (R.route i)).acquire (R.unit i) (R.holder i) now env
    match s.phases i with
    | .acquiring now =>
      let s := s.grant (R.route i) (R.unit i) (acquire now)
      s.goto i (R.acquired s i graceOver (acquire now).2)
    | .cancelled now => (s.grant (R.route i) (R.unit i) (acquire now)).goto i .ended
    | _ => s
  | .leave i =>
    match s.phases i with
    | .polling => s.goto i .ended
    | .acquiring now => s.goto i (.cancelled now)
    | .relaying mine number => s.goto i (.closing mine number)
    | _ => s
  | .renew i now =>
    match s.phases i, s.beats i with
    | .relaying _ _, none => s.beat i (some now)
    | _, _ => s
  | .heartbeat i lookup =>
    match s.beats i with
    | none => s
    | some now =>
      let r := (s.managers (R.route i)).heartbeat (R.unit i) now (some (R.holder i)) lookup
      let s := (s.put (R.route i) r.1).beat i none
      match s.phases i, r.2 with
      | .relaying mine number, none => s.goto i (.closing mine number)
      | _, _ => s
  | .compare i =>
    match s.phases i with
    | .closing mine number =>
      if sameSession (s.held (R.route i) (R.unit i)) (some mine) then
        s.goto i (.releasing mine number (s.made (R.route i) (R.unit i)).length)
      else s.goto i .ended
    | _ => s
  | .release i lookup =>
    match s.phases i with
    | .releasing _ _ _ =>
      (s.put (R.route i) ((s.managers (R.route i)).release (R.unit i) lookup)).goto i .ended
    | _ => s
  | .screen now call => s.call now call
  | .pass now lookups => s.put .screen ((s.managers .screen).reap now lookups)

/-- A cleanup that comes to its release ends the session its handler acquired, or none. -/
def EndsOwn (s : State n) : Action n → Prop
  | .release i _ => ∀ mine number compared, s.phases i = .releasing mine number compared →
    s.held (R.route i) (R.unit i) ≠ none → s.Holds (R.route i) (R.unit i) number
  | _ => True

/-- Where a cleanup that comes to its release finds a session, none was established since the
comparison, and between the handler's own and the comparison none that compares equal to it. -/
def Undisturbed (s : State n) : Action n → Prop
  | .release i _ => ∀ mine number compared, s.phases i = .releasing mine number compared →
    s.held (R.route i) (R.unit i) ≠ none →
      (s.made (R.route i) (R.unit i)).length = compared
        ∧ ∀ other ∈ ((s.made (R.route i) (R.unit i)).take compared).drop number,
          other.stamp ≠ mine.stamp
  | _ => True

/-- Every call session is that of a handler that has not let it go. -/
def CallsOwned (s : State n) : Prop :=
  ∀ unit session, s.held .voice unit = some session → ∃ i mine, R.route i = .voice
    ∧ R.unit i = unit ∧ (s.phases i).acquired = some (mine, (s.made .voice unit).length)
    ∧ mine.stamp = session.stamp

/-- No call handler leaves with its acquire on the way. -/
def StaysToAcquire (s : State n) (a : Action n) : Prop :=
  ∀ i, a = .leave i → R.route i = .voice → ∀ now, s.phases i ≠ .acquiring now

end Relays

end Rackphone
