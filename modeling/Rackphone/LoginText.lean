import Rackphone.Lib.Run
import Rackphone.Lockout
import Rackphone.Verifiers

/-!
# Logins with any text

`LoginService.log_in` of `gateway/login.py` where the four credentials, the device label and the
administrator's name are any strings, each comparison and each text bound to a statement at the
place where it may raise. What a call has written when it raises stays written. Times are ones that
SQLite can store; the alerts are left out.
-/

namespace Rackphone

open Json (codes IsText)

inductive LoginError where
  | text (e : TextError)
  | integrity (e : IntegrityError)
deriving DecidableEq

structure Presented where
  username : Str
  password : Str
  ip : String
  totpCode : Option Str
  recoveryCode : Option Str
deriving DecidableEq

structure TextGate where
  crypto : Crypto
  adminUsername : Str
  passwordHash : Str
  accessTtlSeconds : ℤ
  refreshTtlSeconds : ℤ

namespace TextGate

variable (G : TextGate) (s : LoginStore)

/-- `admin.is_configured`. -/
def IsConfigured : Prop := G.adminUsername ≠ [] ∧ G.passwordHash ≠ []

instance : Decidable G.IsConfigured := inferInstanceAs (Decidable (_ ∧ _))

/-- The issuer of the tokens. -/
def service : LoginService where
  hashToken := G.crypto.sha256Hex
  accessTtlSeconds := G.accessTtlSeconds
  refreshTtlSeconds := G.refreshTtlSeconds

/-- The end of the lock that refuses an attempt, if one does; each subject is bound as text. -/
def lockedUntil (ip : String) (now : ℤ) : Except TextError (Option ℤ) := do
  let admin ← encode G.adminUsername
  return Gate.latest (s.activeLock (ipSubject ip) now) (s.activeLock (accountSubject admin) now)

def addressLock (ip : String) (now : ℤ) : LoginStore × List String :=
  Gate.lockAt s (ipSubject ip)
    (s.failuresSince (now - IP_FAILURE_WINDOW_SECONDS) fun a => a.ip = ip)
    IP_FAILURE_THRESHOLD now IP_LADDER

def accountLock (admin : String) (now : ℤ) : LoginStore × List String :=
  Gate.lockAt s (accountSubject admin)
    (s.failuresSince (now - ACCOUNT_FAILURE_WINDOW_SECONDS) fun a => a.username = admin)
    ACCOUNT_FAILURE_THRESHOLD now LOCKOUT_LADDER

def failedEntry (username ip : String) (now : ℤ) (reason : RefusalReason) (locks : List String) :
    AuditEntry :=
  ⟨now, username, "login_failed", ip, "reason=" ++ reason.value
    ++ if locks.isEmpty then "" else "; locked=" ++ String.intercalate "," locks⟩

/-- `_record_failure`. -/
def recordFailure (username : Str) (ip : String) (now : ℤ) (reason : RefusalReason) :
    LoginStore × Except LoginError LoginOutcome :=
  match encode username with
  | .error e => (s, .error (.text e))
  | .ok name =>
    let byIp := addressLock (s.recordAttempt ip name false now) ip now
    match compareDigest username G.adminUsername with
    | .error e => (byIp.1, .error (.text e))
    | .ok named =>
      let account : Except TextError (LoginStore × List String) :=
        if named then (encode G.adminUsername).map fun admin => accountLock byIp.1 admin now
        else .ok (byIp.1, [])
      match account with
      | .error e => (byIp.1, .error (.text e))
      | .ok byAccount =>
        (byAccount.1.recordAudit (failedEntry name ip now reason (byIp.2 ++ byAccount.2)),
          .ok (refuse reason none))

/-- A recovery code in place of the second factor. -/
def useRecoveryCode (code : Str) (now : ℤ) :
    LoginStore × Except LoginError (Option RefusalReason) :=
  match G.crypto.hashToken code with
  | .error e => (s, .error (.text e))
  | .ok codeHash =>
    let consumed := s.consumeRecoveryCode codeHash now
    (consumed.1, .ok (if consumed.2 then none else some .badTotp))

/-- The second factor: what is left in the store, and the reason it fails. -/
def checkSecondFactor (c : Presented) (now : ℤ) :
    LoginStore × Except LoginError (Option RefusalReason) :=
  match s.totpSecret with
  | none => (s, .ok none)
  | some secret =>
    match c.totpCode, c.recoveryCode with
    | none, none => (s, .ok (some .totpRequired))
    | totpCode, recoveryCode =>
      if totpCode.any fun code => G.crypto.verifyTotp secret code now then (s, .ok none) else
        match recoveryCode with
        | none => (s, .ok (some .badTotp))
        | some code => G.useRecoveryCode s code now

/-- What a check of the second factor comes to: its failure is recorded. -/
def settle (c : Presented) (now : ℤ) : LoginStore × Except LoginError (Option RefusalReason) →
    LoginStore × Except LoginError (Option LoginOutcome)
  | (s, .error e) => (s, .error e)
  | (s, .ok none) => (s, .ok none)
  | (s, .ok (some reason)) =>
    let failed := G.recordFailure s c.username c.ip now reason
    (failed.1, failed.2.map some)

/-- `_check_credentials`: the refusal, or nothing when every factor holds. -/
def checkCredentials (c : Presented) (now : ℤ) :
    LoginStore × Except LoginError (Option LoginOutcome) :=
  if ¬ G.IsConfigured then (s, .ok (some (refuse .notConfigured none))) else
    match G.lockedUntil s c.ip now with
    | .error e => (s, .error (.text e))
    | .ok (some lockedUntil) => (s, .ok (some (refuse .locked (some lockedUntil))))
    | .ok none =>
      match compareDigest c.username G.adminUsername with
      | .error e => (s, .error (.text e))
      | .ok usernameOk =>
        let passwordOk := G.crypto.verifyPassword c.password G.passwordHash
        if ¬ usernameOk ∨ ¬ passwordOk then
          let failed := G.recordFailure s c.username c.ip now .badCredentials
          (failed.1, failed.2.map some)
        else G.settle c now (G.checkSecondFactor s c now)

/-- What a success writes, up to the audit row. -/
def letIn (username : Str) (ip : String) (deviceLabel : Str) (scope refresh : String) (now : ℤ) :
    LoginStore × Except LoginError LoginOutcome :=
  match encode username with
  | .error e => (s, .error (.text e))
  | .ok name =>
    let s := (s.recordAttempt ip name true now).clearLock (ipSubject ip)
    match encode G.adminUsername with
    | .error e => (s, .error (.text e))
    | .ok admin =>
      let s := s.clearLock (accountSubject admin)
      match encode deviceLabel with
      | .error e => (s, .error (.text e))
      | .ok label =>
        match s.refreshTokens.issueRefresh (G.crypto.sha256Hex refresh) label scope now
            G.refreshTtlSeconds with
        | .error e => (s, .error (.integrity e))
        | .ok (refreshTokens, refreshId) =>
          (({ s with refreshTokens } : LoginStore).recordAudit
              ⟨now, admin, "login", label, "scope=" ++ scope⟩,
            .ok ⟨some (G.service.tokens refresh refreshId scope now), none, none⟩)

/-- `log_in`, with the refresh token it generates. -/
def logIn (c : Presented) (deviceLabel : Str) (scope refresh : String) (now : ℤ) :
    LoginStore × Except LoginError LoginOutcome :=
  match G.checkCredentials s c now with
  | (s, .error e) => (s, .error e)
  | (s, .ok (some refusal)) => (s, .ok refusal)
  | (s, .ok none) => G.letIn s c.username c.ip deviceLabel scope refresh now

/-- The gate whose names and credentials are all text. -/
def gate (admin : String) : Gate where
  toLoginService := G.service
  adminUsername := admin
  isConfigured := G.IsConfigured
  verifyPassword password := G.crypto.verifyPassword (codes password.toList) G.passwordHash
  verifyTotp secret code now := G.crypto.verifyTotp secret (codes code.toList) now

end TextGate

def Credentials.presented (c : Credentials) : Presented where
  username := codes c.username.toList
  password := codes c.password.toList
  ip := c.ip
  totpCode := c.totpCode.map fun code => codes code.toList
  recoveryCode := c.recoveryCode.map fun code => codes code.toList

/-- A call of `log_in`. -/
structure LoginCall where
  presented : Presented
  deviceLabel : Str
  scope : String
  refresh : String
  now : ℤ
deriving DecidableEq

namespace LoginCall

variable (G : TextGate) (s : LoginStore) (a : LoginCall)

def result : LoginStore × Except LoginError LoginOutcome :=
  G.logIn s a.presented a.deviceLabel a.scope a.refresh a.now

/-- What the call leaves in the store. -/
def step (s : LoginStore) (a : LoginCall) : LoginStore := (a.result G s).1

/-- The call returns, and a refusal that is not a lock's adds one failed row to the attempts and
one `login_failed` row to the audit log. -/
def Counted : Prop :=
  ∃ outcome, (a.result G s).2 = .ok outcome
    ∧ (outcome.tokens = none → outcome.reason ≠ some .locked →
      ∃ attempt entry, (step G s a).attempts = s.attempts ++ [attempt]
        ∧ (step G s a).audit = s.audit ++ [entry] ∧ attempt.ok = false
        ∧ entry.action = "login_failed")

/-- No lock refuses the attempt. -/
def Unlocked : Prop := G.lockedUntil s a.presented.ip a.now = .ok none

/-- The name and the password are the administrator's. -/
def NamesAdmin : Prop :=
  a.presented.username = G.adminUsername
    ∧ G.crypto.verifyPassword a.presented.password G.passwordHash

/-- A code is presented and holds for the secret. -/
def TotpHolds (secret : String) : Prop :=
  ∃ code ∈ a.presented.totpCode, G.crypto.verifyTotp secret code a.now

/-- A recovery code is presented that is unused. -/
def RecoveryHolds : Prop :=
  ∃ code ∈ a.presented.recoveryCode, ∃ text, encode code = .ok text
    ∧ s.recoveryCodes.get (G.crypto.sha256Hex text) = some none

/-- Every text that the call comes to compare, hash or bind can be: the administrator's name has no
lone surrogate; where the attempt is not locked both names are ASCII; where the recovery code is
looked up it has no lone surrogate; and where the device is let in its label has none and the
generated token is new. -/
structure Plain : Prop where
  admin : IsText G.adminUsername
  names : a.Unlocked G s → IsAscii a.presented.username ∧ IsAscii G.adminUsername
  recovery : a.Unlocked G s → a.NamesAdmin G → ∀ secret, s.totpSecret = some secret →
    ¬ a.TotpHolds G secret → ∀ code, a.presented.recoveryCode = some code → IsText code
  device : a.Unlocked G s → a.NamesAdmin G →
    (∀ secret, s.totpSecret = some secret → a.TotpHolds G secret ∨ a.RecoveryHolds G s) →
    IsText a.deviceLabel ∧ G.crypto.sha256Hex a.refresh ∉ s.refreshTokens.hashes

end LoginCall

end Rackphone
