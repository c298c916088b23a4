import Rackphone.Lib.Run
import Rackphone.Lockout

/-!
# Recovery codes on many threads

`log_in`, `reauthenticate`, `enable_totp` and `disable_totp` of `gateway/login.py`, each call on a
worker thread of the API and all on the one connection of `gateway/authstore.py`, a statement at a
time. No statement fails, so nothing is rolled back and all read and write one state of the tables.
The statements that record a failure or a success, and those of other calls, leave the secret and
the codes. The state keeps, for its history, the attempts a code satisfied and the order in which
the calls set or deleted the secret.
-/

namespace Rackphone

/-- What an attempt does next, with what it has read. -/
inductive FactorPhase where
  | started
  | ipLockRead (lock : Option Ladder.Lock)
  /-- No lock was active. -/
  | passed
  | verified
  | challenged (secret : String)
  | refused (reason : RefusalReason)
  | admitted
  /-- Admitted by the recovery code. -/
  | redeemed
deriving DecidableEq

structure FactorAttempt where
  credentials : Credentials
  now : ℤ
  phase : FactorPhase

/-- A call of `enable_totp`, with the hashes of its codes, or of `disable_totp`. -/
inductive TotpChange where
  | enable (secret : String) (hashes : List String)
  | disable
deriving DecidableEq

def TotpChange.hashes : TotpChange → List String
  | enable _ hashes => hashes
  | disable => []

def TotpChange.secret : TotpChange → Option String
  | enable secret _ => some secret
  | disable => none

inductive TotpPhase where
  | started
  /-- The secret is set or deleted; which of the calls did that earlier is counted. -/
  | stored (turn : ℕ)
  /-- The codes are deleted and the call inserts its own. -/
  | inserting (turn : ℕ) (rest : List String)
  | committed (turn : ℕ)
deriving DecidableEq

structure TotpCall where
  change : TotpChange
  phase : TotpPhase
deriving DecidableEq

namespace TotpCall

def turn (c : TotpCall) : Option ℕ :=
  match c.phase with
  | .started => none
  | .stored turn | .inserting turn _ | .committed turn => some turn

def HasDeleted (c : TotpCall) : Prop :=
  match c.phase with
  | .started | .stored _ => False
  | .inserting _ _ | .committed _ => True

instance : DecidablePred HasDeleted := fun c => by unfold HasDeleted; split <;> infer_instance

/-- The hashes the call has still to insert. -/
def toInsert (c : TotpCall) : List String :=
  match c.phase with
  | .started | .stored _ => c.change.hashes
  | .inserting _ rest => rest
  | .committed _ => []

end TotpCall

structure RecoveryCodes where
  store : LoginStore
  attempts : List FactorAttempt
  calls : List TotpCall
  turns : ℕ
  /-- The attempts a recovery code satisfied, each with the code's hash. -/
  redeemed : List (ℕ × String)

namespace RecoveryCodes

inductive Action where
  | begin (a : Attempt) (now : ℤ)
  /-- The attempt makes its next statement. -/
  | attempt (i : ℕ)
  | call (change : TotpChange)
  /-- The call makes its next statement. -/
  | change (j : ℕ)
  /-- Any statement on the other tables. -/
  | elsewhere (tables : LoginStore)

/-- A store in which two-factor was never on. -/
def start (tables : LoginStore) : RecoveryCodes :=
  ⟨{ tables with totpSecret := none, recoveryCodes := .empty }, [], [], 0, []⟩

def goto (s : RecoveryCodes) (i : ℕ) (a : FactorAttempt) (phase : FactorPhase) : RecoveryCodes :=
  { s with attempts := s.attempts.set i { a with phase } }

def moveOn (s : RecoveryCodes) (j : ℕ) (c : TotpCall) (phase : TotpPhase) : RecoveryCodes :=
  { s with calls := s.calls.set j { c with phase } }

variable (G : Gate)

/-- The check of the second factor, with the secret that was read. -/
def checkCode (s : RecoveryCodes) (i : ℕ) (a : FactorAttempt) (secret : String) : RecoveryCodes :=
  match a.credentials.totpCode, a.credentials.recoveryCode with
  | none, none => s.goto i a (.refused .totpRequired)
  | totpCode, recoveryCode =>
    if totpCode.any fun code => G.verifyTotp secret code a.now then s.goto i a .admitted else
      match recoveryCode with
      | none => s.goto i a (.refused .badTotp)
      | some code =>
        let consumed := s.store.consumeRecoveryCode (G.hashToken code) a.now
        if consumed.2 then
          { s with
            store := consumed.1
            redeemed := s.redeemed ++ [(i, G.hashToken code)] }.goto i a .redeemed
        else { s with store := consumed.1 }.goto i a (.refused .badTotp)

/-- `_check_credentials`, statement by statement. -/
def check (s : RecoveryCodes) (i : ℕ) (a : FactorAttempt) : RecoveryCodes :=
  match a.phase with
  | .started =>
    if !G.isConfigured then s.goto i a (.refused .notConfigured)
    else s.goto i a (.ipLockRead (s.store.activeLock (ipSubject a.credentials.ip) a.now))
  | .ipLockRead lock =>
    match Gate.latest lock (s.store.activeLock (accountSubject G.adminUsername) a.now) with
    | some _ => s.goto i a (.refused .locked)
    | none => s.goto i a .passed
  | .passed =>
    if a.credentials.username ≠ G.adminUsername ∨ G.verifyPassword a.credentials.password = false
    then s.goto i a (.refused .badCredentials)
    else s.goto i a .verified
  | .verified =>
    match s.store.totpSecret with
    | none => s.goto i a .admitted
    | some secret => s.goto i a (.challenged secret)
  | .challenged secret => checkCode G s i a secret
  | .refused _ | .admitted | .redeemed => s

/-- `enable_totp` and `disable_totp` of the store, statement by statement. -/
def runCall (s : RecoveryCodes) (j : ℕ) (c : TotpCall) : RecoveryCodes :=
  match c.phase with
  | .started =>
    { s with
      store := { s.store with totpSecret := c.change.secret }
      turns := s.turns + 1 }.moveOn j c (.stored s.turns)
  | .stored turn =>
    { s with store := { s.store with recoveryCodes := .empty } }.moveOn j c
      (.inserting turn c.change.hashes)
  | .inserting turn (h :: rest) =>
    { s with store := { s.store with recoveryCodes := s.store.recoveryCodes.set h none } }.moveOn
      j c (.inserting turn rest)
  | .inserting turn [] => s.moveOn j c (.committed turn)
  | .committed _ => s

def step (s : RecoveryCodes) : Action → RecoveryCodes
  | .begin a now => { s with attempts := s.attempts ++ [⟨a.credentials G, now, .started⟩] }
  | .attempt i =>
    match s.attempts[i]? with
    | none => s
    | some a => s.check G i a
  | .call change => { s with calls := s.calls ++ [⟨change, .started⟩] }
  | .change j =>
    match s.calls[j]? with
    | none => s
    | some c => s.runCall j c
  | .elsewhere tables =>
    { s with
      store :=
        { tables with
          totpSecret := s.store.totpSecret
          recoveryCodes := s.store.recoveryCodes } }

/-- The hashes of one enrolment's codes are distinct, and none was used by another. -/
def FreshCodes (s : RecoveryCodes) : Action → Prop
  | .call change =>
    change.hashes.Nodup ∧ ∀ c ∈ s.calls, ∀ h ∈ change.hashes, h ∉ c.change.hashes
  | _ => True

/-- The enrolment is replaced or disabled: a call that set or deleted the secret after it did has
deleted the codes. -/
def Over (s : RecoveryCodes) (c : TotpCall) : Prop :=
  ∃ d ∈ s.calls, d.HasDeleted ∧ ∃ t ∈ c.turn, ∃ u ∈ d.turn, t < u

/-- `consume_recovery_code` would accept the code. -/
def Accepts (s : RecoveryCodes) (h : String) : Prop := s.store.recoveryCodes.get h = some none

structure SingleUse (s : RecoveryCodes) : Prop where
  once : (s.redeemed.map Prod.snd).Nodup
  replaced : ∀ c ∈ s.calls, s.Over c → ∀ h ∈ c.change.hashes, ¬ s.Accepts h
  /-- Whoever used a code had the administrator's name and password, and was not refused. -/
  earned : ∀ r ∈ s.redeemed, ∃ a ∈ s.attempts[r.1]?, a.phase = .redeemed
    ∧ a.credentials.username = G.adminUsername ∧ G.verifyPassword a.credentials.password = true

/-- A statement of an attempt leaves the codes as they are, or spends the one code that the attempt
presents and is thereby satisfied by. No other statement counts as a use. -/
def SpendsOwn (s : RecoveryCodes) : Action → Prop
  | .attempt i =>
    (s.step G (.attempt i)).store.recoveryCodes = s.store.recoveryCodes
        ∧ (s.step G (.attempt i)).redeemed = s.redeemed
      ∨ ∃ a ∈ s.attempts[i]?, ∃ code ∈ a.credentials.recoveryCode,
        s.Accepts (G.hashToken code)
          ∧ (s.step G (.attempt i)).store.recoveryCodes
            = s.store.recoveryCodes.set (G.hashToken code) (some a.now)
          ∧ (s.step G (.attempt i)).redeemed = s.redeemed ++ [(i, G.hashToken code)]
  | a => (s.step G a).redeemed = s.redeemed

/-- A call inserts a code before any that set or deleted the secret after it has deleted the
codes. -/
def InsertsCurrent (s : RecoveryCodes) : Action → Prop
  | .change j => ∀ c ∈ s.calls[j]?, c.HasDeleted → c.toInsert ≠ [] → ¬ s.Over c
  | _ => True

instance (s : RecoveryCodes) (c : TotpCall) : Decidable (s.Over c) :=
  inferInstanceAs (Decidable (∃ d ∈ s.calls, d.HasDeleted ∧ ∃ t ∈ c.turn, ∃ u ∈ d.turn, t < u))

instance (s : RecoveryCodes) : DecidablePred s.FreshCodes
  | .call change => inferInstanceAs (Decidable (change.hashes.Nodup
      ∧ ∀ c ∈ s.calls, ∀ h ∈ change.hashes, h ∉ c.change.hashes))
  | .begin _ _ | .attempt _ | .change _ | .elsewhere _ => isTrue trivial

instance (s : RecoveryCodes) : DecidablePred s.InsertsCurrent
  | .change j => inferInstanceAs (Decidable (∀ c ∈ s.calls[j]?, c.HasDeleted →
      c.toInsert ≠ [] → ¬ s.Over c))
  | .begin _ _ | .attempt _ | .call _ | .elsewhere _ => isTrue trivial

end RecoveryCodes

end Rackphone
