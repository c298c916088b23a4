import Rackphone.Lib.Run
import Rackphone.Lockout

/-!
# Guesses at the administrator's password at one time

Attempts that name the administrator and fail, each on a worker thread of the API with its own
time and address, a statement at a time. A phase is what an attempt does next, with what it has
read. The schedule says which attempt moves.
-/

namespace Rackphone

inductive GuessPhase where
  | started
  | refused
  /-- The locks were read and none was active. -/
  | passed
  | verified
  | recorded
  | ipCounted (failures : ℕ)
  | ipLeveled (level : ℤ)
  | ipDone
  | accountCounted (failures : ℕ)
  | accountLeveled (level : ℤ)
  /-- Over, without a lock of the account or with one. -/
  | finished
  | locked
deriving DecidableEq

namespace GuessPhase

/-- How far an attempt has come that was not refused. -/
def rank : GuessPhase → ℕ
  | started | refused => 0
  | passed => 1
  | verified => 2
  | recorded => 3
  | ipCounted _ => 4
  | ipLeveled _ => 5
  | ipDone => 6
  | accountCounted _ => 7
  | accountLeveled _ => 8
  | finished | locked => 9

end GuessPhase

structure GuessRace (n : ℕ) where
  gate : Gate
  store : LoginStore
  now : Fin n → ℤ
  ip : Fin n → String

namespace GuessRace

variable {n : ℕ} (R : GuessRace n)

structure State (n : ℕ) where
  store : LoginStore
  phases : Fin n → GuessPhase

def init : State n := ⟨R.store, fun _ => .started⟩

def State.goto (s : State n) (i : Fin n) (p : GuessPhase) : State n :=
  { s with phases := Function.update s.phases i p }

def account : String := accountSubject R.gate.adminUsername

def lock (s : State n) (lockout : Lockout) : State n := { s with store := s.store.lock lockout }

/-- The attempt runs on to its next statement. -/
def step (s : State n) (i : Fin n) : State n :=
  match s.phases i with
  | .started =>
    if R.gate.isConfigured ∧ R.gate.lockedUntil s.store (R.ip i) (R.now i) = none then
      s.goto i .passed
    else s.goto i .refused
  | .passed => s.goto i .verified
  | .verified =>
    { s with store := s.store.recordAttempt (R.ip i) R.gate.adminUsername false (R.now i) }.goto i
      .recorded
  | .recorded =>
    s.goto i (.ipCounted
      (s.store.failuresSince (R.now i - IP_FAILURE_WINDOW_SECONDS) fun a => a.ip = R.ip i))
  | .ipCounted failures =>
    if IP_FAILURE_THRESHOLD ≤ failures then
      s.goto i (.ipLeveled (s.store.lastLevel (ipSubject (R.ip i))))
    else s.goto i .ipDone
  | .ipLeveled level =>
    (lock s (nextLockout (ipSubject (R.ip i)) level (R.now i) IP_LADDER)).goto i .ipDone
  | .ipDone =>
    s.goto i (.accountCounted (s.store.failuresSince (R.now i - ACCOUNT_FAILURE_WINDOW_SECONDS)
      fun a => a.username = R.gate.adminUsername))
  | .accountCounted failures =>
    if ACCOUNT_FAILURE_THRESHOLD ≤ failures then
      s.goto i (.accountLeveled (s.store.lastLevel R.account))
    else s.goto i .finished
  | .accountLeveled level =>
    (lock s (nextLockout R.account level (R.now i) LOCKOUT_LADDER)).goto i .locked
  | .finished | .locked | .refused => s

/-- The attempts of an hour that have come some way. -/
def reached (s : State n) (k : ℕ) (w : ℤ) : Finset (Fin n) :=
  Finset.univ.filter fun i =>
    k ≤ (s.phases i).rank ∧ w ≤ R.now i ∧ R.now i < w + ACCOUNT_FAILURE_WINDOW_SECONDS

/-- At most five attempts of any hour have had the password verified. -/
def Bounded (s : State n) : Prop :=
  ∀ w, (R.reached s GuessPhase.verified.rank w).card ≤ ACCOUNT_FAILURE_THRESHOLD

/-- An attempt reads the locks when, of every hour it is in, fewer than five attempts are past
them or all of these are over. -/
def ReadsClear (s : State n) (i : Fin n) : Prop :=
  s.phases i = .started → ∀ w, w ≤ R.now i → R.now i < w + ACCOUNT_FAILURE_WINDOW_SECONDS →
    (R.reached s GuessPhase.passed.rank w).card < ACCOUNT_FAILURE_THRESHOLD
      ∨ ∀ j ∈ R.reached s GuessPhase.passed.rank w, GuessPhase.finished.rank ≤ (s.phases j).rank

/-- The attempts that lock the account do so in the order of their times. -/
def LocksInOrder (s : State n) (i : Fin n) : Prop :=
  ∀ level, s.phases i = .accountLeveled level → ∀ j, s.phases j = .locked → R.now j ≤ R.now i

def Clear (s : State n) (i : Fin n) : Prop := R.ReadsClear s i ∧ R.LocksInOrder s i

end GuessRace

end Rackphone
