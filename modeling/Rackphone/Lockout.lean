import Rackphone.Lib.Dict
import Rackphone.Lib.Ladder
import Rackphone.Login

/-!
# Guessing and the lockout ladder

`LoginService.log_in` and `reauthenticate` of `gateway/login.py` with the tables of
`gateway/authstore.py` they read and write. Names are ASCII, so that `compare_digest` is equality.
The verifiers of the password and the code are parameters; the alerts are left out. The state of a
run carries, for its history, the attempts whose credentials were checked and the durations of the
locks set for each subject.
-/

namespace Rackphone

def LOCKOUT_LADDER : List ℤ := [3600, 21600, 43200, 86400]

def IP_LADDER : List ℤ := [60, 120, 240, 480, 900]

def IP_FAILURE_THRESHOLD : ℕ := 3

def IP_FAILURE_WINDOW_SECONDS : ℤ := 900

def ACCOUNT_FAILURE_THRESHOLD : ℕ := 5

def ACCOUNT_FAILURE_WINDOW_SECONDS : ℤ := 3600

structure LoginAttempt where
  time : ℤ
  ip : String
  username : String
  ok : Bool
deriving DecidableEq

structure AuditEntry where
  time : ℤ
  actor : String
  action : String
  subject : String
  detail : String
deriving DecidableEq

structure Lockout extends Ladder.Lock where
  subject : String

/-- `next_lockout`; no ladder is empty. -/
def nextLockout (subject : String) (level now : ℤ) (ladder : List ℤ) : Lockout :=
  let rung := min (max level 0) (ladder.length - 1)
  { subject
    level := min (rung + 1) ladder.length
    lockedUntil := now + ladder.getD rung.toNat 0 }

structure LoginStore where
  attempts : List LoginAttempt
  lockouts : Dict String Ladder.Lock
  totpSecret : Option String
  /-- By hash, with the time the code was used. -/
  recoveryCodes : Dict String (Option ℤ)
  refreshTokens : AuthStore
  audit : List AuditEntry

namespace LoginStore

variable (s : LoginStore)

def recordAttempt (ip username : String) (ok : Bool) (now : ℤ) : LoginStore :=
  { s with attempts := s.attempts ++ [⟨now, ip, username, ok⟩] }

def failuresSince (since : ℤ) (p : LoginAttempt → Prop) [DecidablePred p] : ℕ :=
  s.attempts.countP fun a => a.ok = false ∧ since ≤ a.time ∧ p a

def lock (lockout : Lockout) : LoginStore :=
  { s with lockouts := s.lockouts.set lockout.subject lockout.toLock }

def activeLock (subject : String) (now : ℤ) : Option Ladder.Lock :=
  (s.lockouts.get subject).filter fun lock => now < lock.lockedUntil

def clearLock (subject : String) : LoginStore := { s with lockouts := s.lockouts.pop subject }

def lastLevel (subject : String) : ℤ := Ladder.level (s.lockouts.get subject)

def recordAudit (entry : AuditEntry) : LoginStore := { s with audit := s.audit ++ [entry] }

/-- `consume_recovery_code`, with whether an unused code was consumed. -/
def consumeRecoveryCode (codeHash : String) (now : ℤ) : LoginStore × Bool :=
  match s.recoveryCodes.get codeHash with
  | some none => ({ s with recoveryCodes := s.recoveryCodes.set codeHash (some now) }, true)
  | _ => (s, false)

end LoginStore

def RefusalReason.value : RefusalReason → String
  | badCredentials => "bad_credentials"
  | totpRequired => "totp_required"
  | badTotp => "bad_totp"
  | locked => "locked"
  | notConfigured => "not_configured"

structure LoginOutcome where
  tokens : Option Tokens
  reason : Option RefusalReason
  lockedUntil : Option ℤ
deriving DecidableEq

def refuse (reason : RefusalReason) (lockedUntil : Option ℤ) : LoginOutcome :=
  ⟨none, some reason, lockedUntil⟩

def ipSubject (ip : String) : String := "ip:" ++ ip

def accountSubject (username : String) : String := "account:" ++ username

structure Credentials where
  username : String
  password : String
  ip : String
  totpCode : Option String
  recoveryCode : Option String

structure Gate extends LoginService where
  adminUsername : String
  isConfigured : Bool
  verifyPassword : String → Bool
  verifyTotp : String → String → ℤ → Bool

namespace Gate

variable (G : Gate) (s : LoginStore)

/-- Lock a subject whose failures reached a threshold. -/
def lockAt (subject : String) (failures threshold : ℕ) (now : ℤ) (ladder : List ℤ) :
    LoginStore × List String :=
  if threshold ≤ failures then
    (s.lock (nextLockout subject (s.lastLevel subject) now ladder), [subject])
  else (s, [])

/-- `_record_failure`. Only attempts that name the account count towards its lock. -/
def recordFailure (username ip : String) (now : ℤ) (reason : RefusalReason) : LoginStore :=
  let s := s.recordAttempt ip username false now
  let byIp := lockAt s (ipSubject ip)
    (s.failuresSince (now - IP_FAILURE_WINDOW_SECONDS) fun a => a.ip = ip)
    IP_FAILURE_THRESHOLD now IP_LADDER
  let byAccount :=
    if username = G.adminUsername then
      lockAt byIp.1 (accountSubject G.adminUsername)
        (byIp.1.failuresSince (now - ACCOUNT_FAILURE_WINDOW_SECONDS)
          fun a => a.username = G.adminUsername)
        ACCOUNT_FAILURE_THRESHOLD now LOCKOUT_LADDER
    else (byIp.1, [])
  let locks := byIp.2 ++ byAccount.2
  let detail := "reason=" ++ reason.value
    ++ if locks.isEmpty then "" else "; locked=" ++ String.intercalate "," locks
  byAccount.1.recordAudit ⟨now, username, "login_failed", ip, detail⟩

/-- The later of the ends of two locks, either of which may be missing. -/
def latest (a b : Option Ladder.Lock) : Option ℤ :=
  match a, b with
  | none, none => none
  | some a, none => some a.lockedUntil
  | none, some b => some b.lockedUntil
  | some a, some b => some (max a.lockedUntil b.lockedUntil)

/-- The end of the lock that refuses an attempt, if one does. -/
def lockedUntil (ip : String) (now : ℤ) : Option ℤ :=
  latest (s.activeLock (ipSubject ip) now) (s.activeLock (accountSubject G.adminUsername) now)

/-- The second factor: what is left in the store, and the reason it fails. -/
def checkSecondFactor (c : Credentials) (now : ℤ) : LoginStore × Option RefusalReason :=
  match s.totpSecret with
  | none => (s, none)
  | some secret =>
    match c.totpCode, c.recoveryCode with
    | none, none => (s, some .totpRequired)
    | totpCode, recoveryCode =>
      if totpCode.any fun code => G.verifyTotp secret code now then (s, none) else
        match recoveryCode with
        | none => (s, some .badTotp)
        | some code =>
          let consumed := s.consumeRecoveryCode (G.hashToken code) now
          (consumed.1, if consumed.2 then none else some .badTotp)

/-- `_check_credentials`: the refusal, or nothing when every factor holds. -/
def checkCredentials (c : Credentials) (now : ℤ) : LoginStore × Option LoginOutcome :=
  if !G.isConfigured then (s, some (refuse .notConfigured none)) else
    match G.lockedUntil s c.ip now with
    | some lockedUntil => (s, some (refuse .locked (some lockedUntil)))
    | none =>
      if c.username ≠ G.adminUsername ∨ G.verifyPassword c.password = false then
        (G.recordFailure s c.username c.ip now .badCredentials,
          some (refuse .badCredentials none))
      else
        match G.checkSecondFactor s c now with
        | (s, none) => (s, none)
        | (s, some reason) =>
          (G.recordFailure s c.username c.ip now reason, some (refuse reason none))

/-- What a success clears and records before the tokens are issued. -/
def recordSuccess (username ip : String) (now : ℤ) : LoginStore :=
  ((s.recordAttempt ip username true now).clearLock (ipSubject ip)).clearLock
    (accountSubject G.adminUsername)

/-- `log_in`, with the refresh token it generates. -/
def logIn (c : Credentials) (deviceLabel scope refresh : String) (now : ℤ) :
    LoginStore × Except IntegrityError LoginOutcome :=
  match G.checkCredentials s c now with
  | (s, some refusal) => (s, .ok refusal)
  | (s, none) =>
    let s := G.recordSuccess s c.username c.ip now
    match s.refreshTokens.issueRefresh (G.hashToken refresh) deviceLabel scope now
        G.refreshTtlSeconds with
    | .error e => (s, .error e)
    | .ok (refreshTokens, refreshId) =>
      (({ s with refreshTokens } : LoginStore).recordAudit
          ⟨now, G.adminUsername, "login", deviceLabel, "scope=" ++ scope⟩,
        .ok ⟨some (G.tokens refresh refreshId scope now), none, none⟩)

/-- `reauthenticate`: a check of the administrator's credentials and nothing else. -/
def reauthenticate (password ip : String) (totpCode recoveryCode : Option String) (now : ℤ) :
    LoginStore × Option LoginOutcome :=
  G.checkCredentials s ⟨G.adminUsername, password, ip, totpCode, recoveryCode⟩ now

end Gate

inductive Attempt where
  | logIn (credentials : Credentials) (deviceLabel scope refresh : String)
  | reauthenticate (password ip : String) (totpCode recoveryCode : Option String)

namespace Attempt

def credentials (G : Gate) : Attempt → Credentials
  | logIn credentials _ _ _ => credentials
  | reauthenticate password ip totpCode recoveryCode =>
    ⟨G.adminUsername, password, ip, totpCode, recoveryCode⟩

/-- What an attempt leaves in the store. -/
def store (G : Gate) (s : LoginStore) (now : ℤ) : Attempt → LoginStore
  | logIn credentials deviceLabel scope refresh =>
    (G.logIn s credentials deviceLabel scope refresh now).1
  | reauthenticate password ip totpCode recoveryCode =>
    (G.reauthenticate s password ip totpCode recoveryCode now).1

/-- The refusal an attempt ends in, if it does. -/
def refusal (G : Gate) (s : LoginStore) (now : ℤ) (a : Attempt) : Option LoginOutcome :=
  (G.checkCredentials s (a.credentials G) now).2

end Attempt

structure Guessing where
  store : LoginStore
  now : ℤ
  checked : List (String × ℤ)
  durations : String → List ℤ

namespace Guessing

def start (store : LoginStore) (now : ℤ) : Guessing := ⟨store, now, [], fun _ => []⟩

/-- The duration of the lock a subject was given, newest first, after those it had before. -/
def locked (before after : LoginStore) (now : ℤ) (durations : String → List ℤ) :
    String → List ℤ :=
  fun subject => match after.lockouts.get subject with
    | none => durations subject
    | some lock =>
      if before.lockouts.get subject = some lock then durations subject
      else (lock.lockedUntil - now) :: durations subject

variable (G : Gate)

/-- An attempt made some seconds after the one before. -/
def step (s : Guessing) (a : ℕ × Attempt) : Guessing :=
  let now := s.now + a.1
  let ip := (a.2.credentials G).ip
  { store := a.2.store G s.store now
    now
    checked :=
      if G.isConfigured ∧ G.lockedUntil s.store ip now = none then (ip, now) :: s.checked
      else s.checked
    durations := locked s.store (a.2.store G s.store now) now s.durations }

def Fails (s : Guessing) (a : ℕ × Attempt) : Prop :=
  (a.2.refusal G s.store (s.now + a.1)).isSome

instance (s : Guessing) (a : ℕ × Attempt) : Decidable (s.Fails G a) :=
  inferInstanceAs (Decidable (_ = true))

/-- How many attempts from an address were checked in a window of 900 seconds. -/
def checkedIn (s : Guessing) (ip : String) (w : ℤ) : ℕ :=
  s.checked.countP fun c => c.1 = ip ∧ w ≤ c.2 ∧ c.2 < w + IP_FAILURE_WINDOW_SECONDS

/-- No lock of a subject is shorter than the one before it. -/
def Escalates (s : Guessing) : Prop :=
  ∀ subject, (s.durations subject).Pairwise fun later earlier => earlier ≤ later

/-- An attempt refused as locked changes nothing. -/
def LeavesLocks (s : Guessing) (a : ℕ × Attempt) : Prop :=
  ∀ outcome, a.2.refusal G s.store (s.now + a.1) = some outcome →
    outcome.reason = some .locked → (step G s a).store = s.store

end Guessing

end Rackphone
