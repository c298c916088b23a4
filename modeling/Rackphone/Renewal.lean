import Rackphone.Login

/-!
# The client's two isolates

The app (`session_controller.dart`) and the background event service (`event_service.dart`) renew
the login they share: each reads the refresh token from the `TokenStore`, presents it and writes
the answer back. Within an isolate a renewal in flight is joined, so each makes one at a time. A
request that meets a 401 may start one at any moment; the requests themselves are left out. The
server answers with `LoginService.refresh`, and no answer is lost.
-/

namespace Rackphone

/-- The durable half of a login. -/
structure StoredSession where
  baseUrl : String
  refreshToken : String
  deviceLabel : String
  scope : String
  refreshExpiresAt : ℤ
deriving DecidableEq

def StoredSession.renewed (current : StoredSession) (tokens : Tokens) : StoredSession :=
  { current with
    refreshToken := tokens.refresh
    scope := tokens.scope
    refreshExpiresAt := tokens.refreshExpiresAt }

inductive Isolate where
  | app
  | service
deriving DecidableEq

/-- How far an isolate's renewal is. -/
inductive RenewalPhase where
  | idle
  | hasRead (refreshToken : String)
  | answered (tokens : Tokens)
  /-- The service reads the stored session once more before it writes. -/
  | rewriting (current : StoredSession) (tokens : Tokens)
  /-- A `GatewayAuthException` is on its way to whoever asked. -/
  | refused
  | signedOut
deriving DecidableEq

namespace RenewalPhase

def held : RenewalPhase → Option String
  | hasRead refreshToken => some refreshToken
  | _ => none

def pending : RenewalPhase → Option Tokens
  | answered tokens | rewriting _ tokens => some tokens
  | _ => none

end RenewalPhase

/-- A login both isolates have: the stored token is the one of an unrevoked row. -/
structure SignedIn where
  login : LoginService
  server : AuthStore
  reachable : server.Reachable
  session : StoredSession
  row : RefreshRow
  row_mem : row ∈ server.rows
  row_hash : row.tokenHash = login.hashToken session.refreshToken
  row_unrevoked : row.revokedAt = none

namespace SignedIn

variable (S : SignedIn)

structure State where
  server : AuthStore
  /-- What the `TokenStore` holds. -/
  store : Option StoredSession
  /-- `SessionController._session`. -/
  session : Option StoredSession
  /-- The session the service's `_listen` began with. -/
  original : StoredSession
  phases : Isolate → RenewalPhase
  failed : Bool

def init : State := ⟨S.server, some S.session, some S.session, S.session, fun _ => .idle, false⟩

def State.goto (s : State) (i : Isolate) (p : RenewalPhase) : State :=
  { s with phases := Function.update s.phases i p }

inductive Action where
  /-- The app is opened: `restore` reads the session and goes on to renew it. -/
  | restore
  | listen
  /-- A request met a 401 and the isolate's token provider reads the store. -/
  | read (i : Isolate)
  | present (i : Isolate) (replacement : String) (now : ℤ)
  | reread
  | write (i : Isolate)
  /-- The isolate's own handler clears the store. -/
  | clear (i : Isolate)
  /-- Another caller of the app shows the failure. -/
  | report

def step (s : State) : Action → State
  | .restore =>
    match s.phases .app, s.store with
    | .idle, none => { s with session := none }.goto .app .signedOut
    | .idle, some session =>
      { s with session := some session }.goto .app (.hasRead session.refreshToken)
    | _, _ => s
  | .listen =>
    match s.phases .service, s.store with
    | .idle, none => s.goto .service .signedOut
    | .idle, some session => { s with original := session }
    | _, _ => s
  | .read i =>
    match s.phases i, s.store with
    | .idle, none => { s with failed := true }.goto i .refused
    | .idle, some session => s.goto i (.hasRead session.refreshToken)
    | _, _ => s
  | .present i replacement now =>
    match s.phases i with
    | .hasRead refreshToken =>
      match S.login.refresh s.server refreshToken replacement now with
      | (server, .ok (.ok tokens)) => { s with server }.goto i (.answered tokens)
      | (server, .ok (.error _)) => { s with server, failed := true }.goto i .refused
      | (server, .error _) => { s with server }.goto i .idle
    | _ => s
  | .reread =>
    match s.phases .service with
    | .answered tokens => s.goto .service (.rewriting (s.store.getD s.original) tokens)
    | _ => s
  | .write .app =>
    match s.phases .app, s.session with
    | .answered _, none => s.goto .app .idle
    | .answered tokens, some current =>
      { s with
        store := some (current.renewed tokens)
        session := some (current.renewed tokens) }.goto .app .idle
    | _, _ => s
  | .write .service =>
    match s.phases .service with
    | .rewriting current tokens =>
      { s with store := some (current.renewed tokens) }.goto .service .idle
    | _ => s
  | .clear .app =>
    match s.phases .app with
    | .refused => { s with store := none, session := none }.goto .app .signedOut
    | _ => s
  | .clear .service =>
    match s.phases .service with
    | .refused => { s with store := none }.goto .service .signedOut
    | _ => s
  | .report =>
    match s.phases .app with
    | .refused => s.goto .app .idle
    | _ => s

def Quiet (s : State) : Prop := s.phases .app = .idle ∧ s.phases .service = .idle

/-- Nothing was reported as an authentication failure, the store was not cleared, and once no
renewal is running it holds the token of the family's one unrevoked row. -/
def KeptSignedIn (s : State) : Prop :=
  s.failed = false ∧ s.store ≠ none
    ∧ (Quiet s → (s.server.unrevoked S.row.family).map (fun r => some r.tokenHash)
        = [s.store.map fun session => S.login.hashToken session.refreshToken])

/-- The login has not expired when a token is presented. -/
def NotExpired (s : State) : Action → Prop
  | .present _ _ now => ∀ r ∈ s.server.unrevoked S.row.family, now < r.expiresAt
  | _ => True

/-- A token that is presented is the one the store holds, and no isolate has an answer of the
server it has yet to write. -/
def PresentsStored (s : State) : Action → Prop
  | .present i _ _ => ∀ refreshToken, (s.phases i).held = some refreshToken →
    s.store.map (fun session => session.refreshToken) = some refreshToken
      ∧ (s.phases .app).pending = none ∧ (s.phases .service).pending = none
  | _ => True

instance : DecidablePred Quiet := fun s => by unfold Quiet; infer_instance

instance : DecidablePred S.KeptSignedIn := fun s => by unfold KeptSignedIn; infer_instance

instance (s : State) : DecidablePred (S.NotExpired s)
  | .present _ _ _ => inferInstanceAs (Decidable (∀ _ ∈ _, _))
  | .restore | .listen | .read _ | .reread | .write _ | .clear _ | .report => isTrue trivial

instance (s : State) : DecidablePred (PresentsStored s)
  | .present _ _ _ => by unfold PresentsStored; infer_instance
  | .restore | .listen | .read _ | .reread | .write _ | .clear _ | .report => isTrue trivial

end SignedIn

end Rackphone
