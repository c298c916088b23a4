import Rackphone.AccessToken
import Rackphone.BusyClose
import Rackphone.Capability
import Rackphone.DeviceCli
import Rackphone.Files
import Rackphone.Lib.Handler
import Rackphone.LoginText
import Rackphone.RelayHandlers

/-!
# The gateway's API

What `create_app` of `gateway/api.py` is built from, the requests it is sent and the dependencies
that let them in, with `authorise` of `gateway/login.py`. What a unit does with what it is asked is
an argument. The claims of each access token that is signed are kept for history.
-/

namespace Rackphone

namespace Api

open CommandReceiver (Text)
open Json (codes Value)

/-! ## What the application is built from -/

inductive Scope where
  | read | control | admin
deriving DecidableEq

namespace Scope

def value : Scope → String
  | read => "read"
  | control => "control"
  | admin => "admin"

/-- `_SCOPE_RANKS`. -/
def rank : Scope → ℕ
  | read => 1
  | control => 2
  | admin => 3

/-- `KNOWN_SCOPES`, each with what is written for it. -/
def ofText (text : Str) : Option Scope :=
  [read, control, admin].find? fun scope => codes scope.value.toList = text

/-- `scope_allows`. -/
def allows (held : Str) (required : Scope) : Bool :=
  (ofText held).any fun held => required.rank ≤ held.rank

end Scope

/-- What the units do with what they are asked, each call with what it meets. -/
structure Rack (κ σ : Type) where
  /-- `run_device_cli`, once the unit's file is read. -/
  run (c : κ) (unit : String) (s : σ) (arguments : List Text) :
    σ × Except DeviceCli.RunError Text
  /-- `ContactBook.get`. -/
  contacts (c : κ) (unit : String) (refresh : Bool) (s : σ) : σ × Except DeviceCli.Failure Value
  sims (c : κ) (unit : String) (s : σ) : σ × Except DeviceCli.Failure Value
  /-- `collect_unit_metrics`: whether the unit is up, and the samples. -/
  metrics (c : κ) (unit : String) (s : σ) : σ × Bool × Value
  listFiles (c : κ) (unit : String) (s : σ) : σ × Except Files.FilesError (List (Files.Name × ℤ))
  store (c : κ) (unit : String) (name : Files.Name) (content : Files.Bytes) (s : σ) :
    σ × Except Files.FilesError Unit
  fetch (c : κ) (unit : String) (name : Files.Name) (s : σ) :
    σ × Except Files.FilesError Files.Bytes
  remove (c : κ) (unit : String) (name : Files.Name) (s : σ) : σ × Except Files.FilesError Unit

structure Service (κ σ : Type) where
  gate : TextGate
  numeral : Numeral
  digest : List UInt8 → List UInt8 → List UInt8
  accessKey : List UInt8
  config : GatewayConfig
  apiToken : Str
  /-- `is_loopback(config.api_host)`. -/
  isLoopback : Bool
  trustedProxies : List String
  /-- `str.isspace` of a character. -/
  isSpace : Char → Bool
  /-- `repr`. -/
  repr : String → Text
  /-- `str` of a value that is no string. -/
  str : Value → String
  rack : Rack κ σ

structure State (σ : Type) where
  store : LoginStore
  events : EventStore
  /-- The managers of screens and of call audio. -/
  sessions : SessionManager
  voices : SessionManager
  rack : σ
  signed : List AccessClaims

/-- What a request meets besides the state. -/
structure Chance (κ : Type) where
  /-- The clock at the dependencies; by how much it is later in the endpoint, and where the endpoint
  writes down what was done. -/
  now : ℤ
  handled : ℕ
  written : ℕ
  nowMs : ℤ
  /-- The names and labels of the unit files. -/
  units : List (String × String)
  /-- What `generate_token`, `generate_totp_secret` and `generate_recovery_codes` give. -/
  token : String
  totpSecret : String
  recoveryCodes : List String
  /-- For the session that is released, and the one that is acquired. -/
  lookup : UnitLookup
  acquire : AcquireEnv
  /-- The phone opens what is to be relayed. -/
  opens : Bool
  device : κ

inductive Detail where
  | text (t : Text)
  | unknownScope (scope : String)
  | files (e : Files.FilesError)
  /-- A reason, with `Retry-After` where it is a lock. -/
  | refusal (reason : RefusalReason) (retryAfter : Option ℤ)
  | holder (holder : String) (since : ℤ)
deriving DecidableEq

inductive HttpError where
  /-- `HTTPException`. -/
  | http (status : ℕ) (detail : Detail)
  /-- A WebSocket is closed. -/
  | closed (code : ℕ) (reason : Detail)
  | raised
deriving DecidableEq

/-- What a relay that is not let in is told. -/
def HttpError.closing : HttpError → HttpError
  | .http _ detail => .closed BusyClose.WS_POLICY detail
  | e => e

def unauthorized : HttpError := .http 401 (.text "invalid or missing bearer token".toList)

def unknownUnit : HttpError := .http 404 (.text "unknown unit".toList)

def capabilityDenied : HttpError := .http 403 (.text "unit capability denied".toList)

structure LoginBody where
  username : String
  password : String
  deviceLabel : String
  totpCode : Option String
  recoveryCode : Option String
  scope : String

structure PasswordBody where
  password : String
  totpCode : Option String
  recoveryCode : Option String

/-- `LimitQuery`. -/
abbrev Limit := {n : ℕ // 1 ≤ n ∧ n ≤ MAX_QUERY_LIMIT}

inductive Endpoint where
  | health
  | readUnits
  | stats
  | acquireSession (unit : String)
  | takeOverSession (unit : String)
  | heartbeatSession (unit : String)
  | releaseSession (unit : String)
  | readSession (unit : String)
  | relay (route : Route) (unit : String)
  /-- No requests: a relay that runs renews its lease, and comes to the end of its session. -/
  | relayHeartbeat (route : Route) (unit holder : String) (refreshId : Option ℕ)
  | relayEnd (route : Route) (unit : String) (session : ScreenSession)
  | contacts (unit : String) (refresh : Bool)
  | sims (unit : String)
  | telemetry (unit : String)
  | listFiles (unit : String)
  | uploadFile (unit : String) (name : Files.Name) (content : Files.Bytes)
  | downloadFile (unit : String) (name : Files.Name)
  | deleteFile (unit : String) (name : Files.Name)
  | logIn (body : LoginBody)
  | refresh (refreshToken : String)
  | logOut (refreshToken : String)
  | readSessions
  | revokeSession (tokenId : ℤ)
  | revokeAllSessions
  | audit (since : Option ℤ) (limit : Limit)
  | enableTotp (body : PasswordBody)
  | disableTotp (body : PasswordBody)
  | readEvents (kind unit : Option String) (since : Option ℤ) (limit : Limit)
  | readMessages (unit : Option String) (since : Option ℤ) (limit : Limit)
  | readCalls (unit : Option String) (since : Option ℤ) (limit : Limit)
  | sendMessage (unit destination body : String) (sim : Option ℤ)
  | answerCall (unit : String)
  | rejectCall (unit : String)
  | dialCall (unit destination : String) (sim : Option ℤ)
  | endCall (unit : String)
  | sendDtmf (unit digits : String)
  | stream

structure Request where
  authorization : Str
  /-- `request.client.host`. -/
  peer : Option String
  forwardedFor : String
  endpoint : Endpoint

/-- `security_summary`. -/
structure SecuritySummary where
  lastLogin : Option (ℤ × String)
  failedLogins : ℕ
  lockedUntil : Option ℤ
  totp : Bool

inductive Body where
  | noContent
  | health (totp : Bool)
  | units (rows : List (String × String × List Capability))
  | stats (events : List (String × ℕ)) (security : SecuritySummary)
  | session (session : Option ScreenSession)
  /-- The relay runs, for this device and login. -/
  | relay (holder : String) (refreshId : Option ℕ) (session : ScreenSession)
  /-- Whether it may keep running. -/
  | renewed (runs : Bool)
  | json (value : Value)
  | telemetry (isUp : Bool) (collectedAt : ℤ) (samples : Value)
  | files (rows : List (Files.Name × ℤ))
  | stored (name : Files.Name) (size : ℕ)
  | file (content : Files.Bytes)
  /-- The tokens, with the text of the access token. -/
  | tokens (tokens : Tokens) (access : Option Str)
  | sessions (rows : List RefreshToken)
  | revoked (count : ℕ)
  | audit (rows : List AuditEntry)
  | totp (secret : String) (recoveryCodes : List String)
  | rows (rows : List Row)
  | sent (answer : DeviceCli.Members) (event : Row)
  | outcome (answer : DeviceCli.Members)
  /-- The stream begins, bound to this login, above this row. -/
  | stream (refreshId : Option ℕ) (lastSeen : ℕ)

/-! ## What is read off a request -/

/-- `bearer_token`. -/
def bearerToken (authorization : Str) : Str :=
  let scheme := codes "Bearer ".toList
  if scheme <+: authorization then authorization.drop scheme.length else []

/-- `forwarded_for.rsplit(",", maxsplit=1)[-1]`. -/
def lastHop (t : List Char) : List Char := (t.reverse.takeWhile (· ≠ ',')).reverse

def clientIp (isSpace : Char → Bool) (trusted : List String) (peer forwardedFor : String) :
    String :=
  if peer ∈ trusted ∧ forwardedFor ≠ "" then
    let hop := Lines.strip isSpace (lastHop forwardedFor.toList)
    if hop = [] then peer else String.ofList hop
  else peer

/-! ## The dependencies -/

/-- A part of a request's handling. -/
abbrev Handling (σ α : Type) := Handler (State σ) HttpError α

section Handling

variable {κ σ : Type} (A : Service κ σ) (c : Chance κ)

def refuseWith {α : Type} (status : ℕ) (detail : Detail) : Handling σ α :=
  Handler.raise (.http status detail)

/-- A call of the login store, with what it raises. -/
def withStore {α : Type} (f : LoginStore → LoginStore × Except LoginError α) : Handling σ α :=
  fun s =>
    match f s.store with
    | (store, .ok a) => ({ s with store }, .ok a)
    | (store, .error _) => ({ s with store }, .error .raised)

/-- `translate_device_error`, and what is no boundary error. -/
def deviceError (e : DeviceCli.Failure) : HttpError :=
  match e with
  | .request detail | .device detail => .http e.status (.text detail)
  | .raised => .raised

def withUnit {α : Type} (f : σ → σ × Except DeviceCli.Failure α) : Handling σ α := fun s =>
  match f s.rack with
  | (rack, .ok a) => ({ s with rack }, .ok a)
  | (rack, .error e) => ({ s with rack }, .error (deviceError e))

/-- `FileNotFoundError` and `FilesError`. -/
def filesError (e : Files.FilesError) : HttpError :=
  match e with
  | .missing => .http 404 (.text "file not found".toList)
  | .device _ => .http 502 (.files e)
  | .name | .size => .http 400 (.files e)

def withFiles {α : Type} (f : σ → σ × Except Files.FilesError α) : Handling σ α := fun s =>
  match f s.rack with
  | (rack, .ok a) => ({ s with rack }, .ok a)
  | (rack, .error e) => ({ s with rack }, .error (filesError e))

def withSessions {α : Type} (f : SessionManager → SessionManager × α) : Handling σ α := fun s =>
  ({ s with sessions := (f s.sessions).1 }, .ok (f s.sessions).2)

def withVoices {α : Type} (f : SessionManager → SessionManager × α) : Handling σ α := fun s =>
  ({ s with voices := (f s.voices).1 }, .ok (f s.voices).2)

def recordAudit (now : ℤ) (action : String) (actor subject detail : String) : Handling σ Unit :=
  Handler.modify fun s =>
    { s with store := s.store.recordAudit ⟨now, actor, action, subject, detail⟩ }

/-- When the endpoint's body reads the clock, and when it does so after its work. -/
def Chance.inside : ℤ := c.now + c.handled

def Chance.afterwards : ℤ := c.now + c.handled + c.written

/-- `LoginService.authorise`. -/
def Service.authorise (token : Str) (now : ℤ) (required : Scope) :
    Option AccessToken.AccessClaims :=
  (AccessToken.verifyAccessToken A.numeral A.digest A.accessKey token now).filter fun claims =>
    Scope.allows claims.scope required

def Service.legacyEnabled : Bool := A.apiToken ≠ [] ∧ A.isLoopback

/-- `legacy_enabled and hmac.compare_digest(token, config.api_token)`. -/
def isLegacy (token : Str) : Handling σ Bool :=
  if A.legacyEnabled then
    match compareDigest token A.apiToken with
    | .ok same => pure same
    | .error _ => Handler.raise .raised
  else pure false

/-- A dependency of the route. -/
def requireScope (authorization : Str) (scope : Scope) : Handling σ Unit := do
  let token := bearerToken authorization
  if (A.authorise token c.now scope).isSome then return ()
  if ← isLegacy A token then return ()
  Handler.raise unauthorized

/-- The row of a session that is live, which its id names; no row has an id below one. -/
def liveRefresh (s : LoginStore) (refreshId : ℤ) (now : ℤ) : Option RefreshToken :=
  s.refreshTokens.liveRefresh refreshId.toNat now

def liveSession (authorization : Str) (scope : Scope) (now : ℤ) :
    Handling σ (String × Option ℕ) := do
  let token := bearerToken authorization
  let s ← Handler.get
  match (A.authorise token now scope).bind fun claims =>
      liveRefresh s.store claims.refreshId now with
  | some session => return (session.deviceLabel, some session.id)
  | none =>
    if ← isLegacy A token then return ("legacy", none)
    Handler.raise unauthorized

/-- `control_session`, and `control_holder`. -/
def controlSession (authorization : Str) : Handling σ (String × Option ℕ) :=
  liveSession A authorization .control c.now

/-- A configured unit that carries one of the capabilities. -/
def requireEither (unit : String) (capabilities : List Capability) : Handling σ Unit :=
  if unit ∉ c.units.map Prod.fst then Handler.raise unknownUnit
  else if ∃ capability ∈ capabilities, capability ∈ A.config.capabilitiesFor unit then pure ()
  else Handler.raise capabilityDenied

def requireUnit (unit : String) (capability : Capability) : Handling σ Unit :=
  requireEither A c unit [capability]

end Handling

end Api

end Rackphone
