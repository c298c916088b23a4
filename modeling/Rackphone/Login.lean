import Rackphone.AuthStore

/-!
# Renewal and logout

`LoginService.refresh` and `log_out` of `gateway/login.py` over the refresh tokens. An access
token is the claims it signs. The audit rows both write are left out: nothing here reads them.
-/

namespace Rackphone

structure AccessClaims where
  refreshId : ℕ
  scope : String
  expiresAt : ℤ
deriving DecidableEq

structure Tokens where
  refresh : String
  access : AccessClaims
  scope : String
  refreshExpiresAt : ℤ
  accessExpiresAt : ℤ
deriving DecidableEq

inductive RefusalReason where
  | badCredentials
  | totpRequired
  | badTotp
  | locked
  | notConfigured
deriving DecidableEq

structure LoginService where
  hashToken : String → String
  accessTtlSeconds : ℤ
  refreshTtlSeconds : ℤ

namespace LoginService

variable (L : LoginService)

def tokens (refresh : String) (refreshId : ℕ) (scope : String) (now : ℤ) : Tokens where
  refresh := refresh
  access := ⟨refreshId, scope, now + L.accessTtlSeconds⟩
  scope := scope
  refreshExpiresAt := now + L.refreshTtlSeconds
  accessExpiresAt := now + L.accessTtlSeconds

/-- `refresh`, with the token it generates: the table, and the tokens or the refusal where the
call does not raise. -/
def refresh (s : AuthStore) (refreshToken replacement : String) (now : ℤ) :
    AuthStore × Except IntegrityError (Except RefusalReason Tokens) :=
  let oldHash := L.hashToken refreshToken
  match s.resolveRefresh oldHash now with
  | (s, none) => (s, .ok (.error .badCredentials))
  | (s, some session) =>
    match s.rotateRefresh oldHash (L.hashToken replacement) now L.refreshTtlSeconds with
    | .error e => (s, .error e)
    | .ok (s', none) => (s', .ok (.error .badCredentials))
    | .ok (s', some refreshId) =>
      (s', .ok (.ok (L.tokens replacement refreshId session.scope now)))

/-- `log_out`, with whether it revoked a live token. -/
def logOut (s : AuthStore) (refreshToken : String) (now : ℤ) : AuthStore × Bool :=
  match s.resolveRefresh (L.hashToken refreshToken) now with
  | (s, none) => (s, false)
  | (s, some session) => s.revokeRefresh session.id now

end LoginService

end Rackphone
