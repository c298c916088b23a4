import Rackphone.Api

/-!
# The gateway's endpoints

The endpoints of `create_app` of `gateway/api.py`, with `LoginService.refresh`, `log_out`,
`log_out_everywhere`, `enable_totp` and `disable_totp` of `gateway/login.py`. A request is handled
from its dependencies to its answer before the next one; a relay, which goes on after it, comes in
again to renew its lease and at its end. What it relays, and a stream, run elsewhere.
-/

namespace Rackphone

namespace Api

open CommandReceiver (Text)
open Json (codes Value)

section Handling

variable {κ σ : Type} (A : Service κ σ) (c : Chance κ)

/-! ## Sessions of a screen -/

def acquired : Except AcquireError ScreenSession → Handling σ ScreenSession
  | .ok session => pure session
  | .error (.busy e) => refuseWith 409 (.holder e.holder e.startedAt)
  | .error .raised => Handler.raise .raised

def acquireSession (unit holder : String) : Handling σ Body := do
  requireUnit A c unit .screen
  let session ← acquired (← withSessions fun m => m.acquire unit holder c.inside c.acquire)
  recordAudit c.inside "session_acquire" holder unit ""
  return .session (some session)

def takeOverSession (unit holder : String) : Handling σ Body := do
  requireUnit A c unit .screen
  let session ← acquired
    (← withSessions fun m => m.takeOver unit holder c.inside c.lookup c.acquire)
  recordAudit c.inside "session_takeover" holder unit ""
  return .session (some session)

def heartbeatSession (unit holder : String) : Handling σ Body := do
  requireUnit A c unit .screen
  match ← withSessions fun m => m.heartbeat unit c.inside (some holder) c.lookup with
  | none => refuseWith 409 (.text "caller is not the holder".toList)
  | some _ => return .noContent

def releaseSession (unit holder : String) : Handling σ Body := do
  requireUnit A c unit .screen
  withSessions fun m => (m.release unit c.lookup, ())
  recordAudit c.inside "session_release" holder unit ""
  return .noContent

def readSession (unit : String) : Handling σ Body := do
  requireUnit A c unit .screen
  return .session ((← Handler.get).sessions.sessions.get unit)

def routeCapability : Route → Capability
  | .screen => .screen
  | .voice => .calls

/-- `route.manager`. -/
def withManager {α : Type} (route : Route) (f : SessionManager → SessionManager × α) :
    Handling σ α :=
  match route with
  | .screen => withSessions f
  | .voice => withVoices f

def endedReason : Route → Text
  | .screen => "screen relay ended".toList
  | .voice => "call audio relay ended".toList

def relayEnded {α : Type} (route : Route) : Handling σ α :=
  Handler.raise (.closed 1011 (.text (endedReason route)))

/-- The `finally` of `hold_relay`: an explicit takeover may have replaced the session. -/
def relayEnd (route : Route) (unit : String) (session : ScreenSession) : Handling σ Body := do
  withManager route fun m =>
    (if sameSession (m.sessions.get unit) (some session) then m.release unit c.lookup else m, ())
  return .noContent

/-- `hold_relay` until its relay runs, with the last attempt of `acquire_own`; the earlier ones
found the session held and did nothing. -/
def relay (route : Route) (unit : String) (authorization : Str) : Handling σ Body := do
  let (holder, refreshId) ← Handler.mapError HttpError.closing do
    let session ← controlSession A c authorization
    requireUnit A c unit (routeCapability route)
    return session
  match ← withManager route fun m => m.acquire unit holder c.inside c.acquire with
  | .error (.busy e) =>
    Handler.raise (.closed BusyClose.WS_POLICY (.text (BusyClose.reason e.holder.toList)))
  | .error .raised => relayEnded route
  | .ok session =>
    if c.opens then return .relay holder refreshId session
    else
      let _ ← relayEnd c route unit session
      relayEnded route

/-- `renew_lease`. -/
def relayHeartbeat (route : Route) (unit holder : String) (refreshId : Option ℕ) :
    Handling σ Body := do
  let s ← Handler.get
  if refreshId.any fun id => (s.store.refreshTokens.liveRefresh id c.now).isNone then
    return .renewed false
  else
    let session ← withManager route fun m => m.heartbeat unit c.now (some holder) c.lookup
    return .renewed session.isSome

/-! ## What is asked of a unit -/

def readContacts (unit : String) (refresh : Bool) : Handling σ Body := do
  requireUnit A c unit .sms
  return .json (← withUnit (A.rack.contacts c.device unit refresh))

def readSims (unit : String) : Handling σ Body := do
  requireUnit A c unit .sms
  return .json (← withUnit (A.rack.sims c.device unit))

def readTelemetry (unit : String) : Handling σ Body := do
  requireEither A c unit [.sms, .notifications]
  let (isUp, samples) ← withUnit fun s =>
    ((A.rack.metrics c.device unit s).1, .ok (A.rack.metrics c.device unit s).2)
  return .telemetry isUp c.afterwards samples

def readFiles (unit : String) : Handling σ Body := do
  requireUnit A c unit .files
  return .files (← withFiles (A.rack.listFiles c.device unit))

/-- `resolve`. -/
def resolveName (name : Files.Name) : Handling σ Unit :=
  if Files.isRefused name then Handler.raise (filesError .name) else pure ()

def fileDetail (name : Files.Name) (direction : String) : String :=
  String.ofList ("name=".toList ++ (name ++ (" direction=" ++ direction).toList))

def uploadFile (unit : String) (name : Files.Name) (content : Files.Bytes) : Handling σ Body := do
  requireUnit A c unit .files
  resolveName name
  if Files.MAX_FILE_SIZE < content.length then
    refuseWith 400 (.text "file exceeds the 536870912-byte size limit".toList)
  else
    withFiles (A.rack.store c.device unit name content)
    recordAudit c.afterwards "file_write" "" unit (fileDetail name "upload")
    return .stored name content.length

def downloadFile (unit : String) (name : Files.Name) : Handling σ Body := do
  requireUnit A c unit .files
  resolveName name
  return .file (← withFiles (A.rack.fetch c.device unit name))

def deleteFile (unit : String) (name : Files.Name) : Handling σ Body := do
  requireUnit A c unit .files
  withFiles (A.rack.remove c.device unit name)
  recordAudit c.afterwards "file_write" "" unit (fileDetail name "remove")
  return .noContent

/-- `str(answer.get("to") or body.to)`; a text that cannot be stored raises where it is bound. -/
def sentTo (answer : DeviceCli.Members) (destination : String) : Option String :=
  match Json.lookup (DeviceCli.key "to") answer with
  | none | some .null | some (.bool false) | some (.int 0) | some (.str []) | some (.arr [])
  | some (.obj []) => some destination
  | some (.str s) => (Json.text s).map String.ofList
  | some v => some (A.str v)

/-- `answer.get(k)` where it is a number, which a truth value is too. -/
def number (k : String) (answer : DeviceCli.Members) : Option ℤ :=
  match Json.lookup (DeviceCli.key k) answer with
  | some (.int n) => some n
  | some (.bool b) => some (if b then 1 else 0)
  | _ => none

/-- The raw record of the text, which names the SIM as the answer does. -/
def sentRaw (answer : DeviceCli.Members) : Text :=
  match Json.lookup (DeviceCli.key "sub_id") answer with
  | some (.bool b) =>
    (Json.printObject jsonDumps (EventStore.sentRaw none)).dropLast ++
      (", \"sub\": " ++ (if b then "true" else "false") ++ "\x7d").toList
  | _ => Json.printObject jsonDumps (EventStore.sentRaw (number "sub_id" answer))

/-- The row of the text that was sent; the store may refuse it. -/
def addSent (unit destination body : String) (answer : DeviceCli.Members) : Handling σ Row :=
  fun s =>
    match sentTo A answer destination with
    | none => (s, .error .raised)
    | some address =>
      let queued := (number "ts" answer).getD c.nowMs
      let e := { s.events.sentEvent unit address body queued none with
        raw := String.ofList (sentRaw answer) }
      if Has64Bits e.sourceId ∧ Has64Bits queued ∧ s.events.stores e then
        ({ s with events := s.events.insertOrIgnore e c.afterwards },
          .ok (s.events.newRow e c.afterwards))
      else (s, .error .raised)

def sendMessage (unit destination body : String) (sim : Option ℤ) : Handling σ Body := do
  requireUnit A c unit .sms
  let answer ← withUnit fun s => DeviceCli.sendSms (A.rack.run c.device unit) (A.repr unit) s
    destination.toList body.toList sim
  recordAudit c.afterwards "send_sms" "" unit ("to=" ++ destination)
  return .sent answer (← addSent A c unit destination body answer)

/-- A request of the unit's calls, with the detail of its entry. -/
def call (unit : String) (action : Option (String × String))
    (f : (σ → List Text → σ × Except DeviceCli.RunError Text) →
      Text → σ → σ × Except DeviceCli.Failure DeviceCli.Members) : Handling σ Body := do
  requireUnit A c unit .calls
  let outcome ← withUnit (f (A.rack.run c.device unit) (A.repr unit))
  match action with
  | some (action, detail) => recordAudit c.afterwards action "" unit detail
  | none => pure ()
  return .outcome outcome

def answerCall (unit : String) : Handling σ Body :=
  call A c unit (some ("answer_call", "")) DeviceCli.answerCall

def rejectCall (unit : String) : Handling σ Body :=
  call A c unit (some ("reject_call", "")) DeviceCli.rejectCall

def dialCall (unit destination : String) (sim : Option ℤ) : Handling σ Body :=
  call A c unit (some ("dial_call", "to=" ++ destination)) fun run name s =>
    DeviceCli.dialCall run name s destination.toList sim

def endCall (unit : String) : Handling σ Body :=
  call A c unit (some ("end_call", "")) DeviceCli.endCall

/-- The keys that are pressed are not written down. -/
def sendDtmf (unit digits : String) : Handling σ Body :=
  call A c unit none fun run name s => DeviceCli.sendDtmf run name s digits.toList

/-! ## Logins -/

/-- An access token is signed, and the answer has both tokens. -/
def tokensBody (tokens : Tokens) : Handling σ Body := fun s =>
  ({ s with signed := s.signed ++ [tokens.access] },
    .ok (.tokens tokens (AccessToken.issueAccessToken A.numeral A.digest A.accessKey
      tokens.access.refreshId (codes tokens.access.scope.toList) tokens.access.expiresAt)))

def Service.clientIp (r : Request) : String :=
  Api.clientIp A.isSpace A.trustedProxies (r.peer.getD "") r.forwardedFor

/-- The refusal of some credentials. -/
def refuseLogin {α : Type} (status : RefusalReason → ℕ) (now : ℤ) (outcome : LoginOutcome) :
    Handling σ α :=
  match outcome.reason with
  | some .locked =>
    refuseWith 423 (.refusal .locked (some (max 0 (outcome.lockedUntil.getD 0 - now))))
  | some .notConfigured => refuseWith 503 (.refusal .notConfigured none)
  | some reason => refuseWith (status reason) (.refusal reason none)
  | none => Handler.raise .raised

/-- The statuses of the reasons that only a login tells apart. -/
def loginStatus (reason : RefusalReason) : ℕ := if reason = .badCredentials then 401 else 403

/-- The call of `log_in` a request comes to. -/
def loginCall (r : Request) (body : LoginBody) : LoginCall where
  presented := Credentials.presented
    ⟨body.username, body.password, A.clientIp r, body.totpCode, body.recoveryCode⟩
  deviceLabel := codes body.deviceLabel.toList
  scope := body.scope
  refresh := c.token
  now := c.now

def logIn (r : Request) (body : LoginBody) : Handling σ Body := do
  if (Scope.ofText (codes body.scope.toList)).isNone then
    refuseWith 400 (.unknownScope body.scope)
  else
    let outcome ← withStore (LoginCall.result A.gate · (loginCall A c r body))
    match outcome.tokens with
    | some tokens => tokensBody A tokens
    | none => refuseLogin loginStatus c.inside outcome

def labelOf (session : Option RefreshToken) : String :=
  (session.map fun t => t.deviceLabel).getD ""

/-- `LoginService.refresh`. -/
def refreshTokens (G : TextGate) (refreshToken replacement : String) (now : ℤ) (s : LoginStore) :
    LoginStore × Except LoginError (Except RefusalReason Tokens) :=
  let session := (s.refreshTokens.resolveRefresh (G.service.hashToken refreshToken) now).2
  match G.service.refresh s.refreshTokens refreshToken replacement now with
  | (refreshTokens, .error e) => ({ s with refreshTokens }, .error (.integrity e))
  | (refreshTokens, .ok (.error reason)) => ({ s with refreshTokens }, .ok (.error reason))
  | (refreshTokens, .ok (.ok tokens)) =>
    let s := { s with refreshTokens }
    match encode G.adminUsername with
    | .error e => (s, .error (.text e))
    | .ok admin =>
      (s.recordAudit ⟨now, admin, "refresh", labelOf session, "scope=" ++ tokens.scope⟩,
        .ok (.ok tokens))

def refresh (refreshToken : String) : Handling σ Body := do
  match ← withStore (refreshTokens A.gate refreshToken c.token c.now) with
  | .error _ => refuseWith 401 (.text "invalid refresh token".toList)
  | .ok tokens => tokensBody A tokens

/-- `LoginService.log_out`. -/
def logOutTokens (G : TextGate) (refreshToken : String) (now : ℤ) (s : LoginStore) :
    LoginStore × Except LoginError Unit :=
  let session := (s.refreshTokens.resolveRefresh (G.service.hashToken refreshToken) now).2
  let r := G.service.logOut s.refreshTokens refreshToken now
  let s := { s with refreshTokens := r.1 }
  match encode G.adminUsername with
  | .error e => (s, .error (.text e))
  | .ok admin =>
    (s.recordAudit ⟨now, admin, "logout", labelOf session,
      "revoked=" ++ if r.2 then "true" else "false"⟩, .ok ())

def logOut (refreshToken : String) : Handling σ Body := do
  withStore (logOutTokens A.gate refreshToken c.now)
  return .noContent

/-- A `revoke_refresh`, which names no row below one. -/
def revokeSession (tokenId : ℤ) : Handling σ Body := fun s =>
  let r := s.store.refreshTokens.revokeRefresh tokenId.toNat c.inside
  ({ s with store := { s.store with refreshTokens := r.1 } }, .ok (.revoked (if r.2 then 1 else 0)))

/-- `log_out_everywhere`. -/
def revokeAllSessions : Handling σ Body := fun s =>
  let r := s.store.refreshTokens.revokeAll c.inside
  let entry : AuditEntry := ⟨c.inside, "", "logout_everywhere", "", "count=" ++ toString r.2⟩
  let store := LoginStore.recordAudit { s.store with refreshTokens := r.1 } entry
  ({ s with store }, .ok (.revoked r.2))

def stepUp (r : Request) (body : PasswordBody) : Handling σ Unit := do
  let _ ← liveSession A r.authorization .admin c.inside
  let refusal ← withStore fun store => A.gate.checkCredentials store
    ⟨A.gate.adminUsername, codes body.password.toList, A.clientIp r,
      body.totpCode.map fun code => codes code.toList,
      body.recoveryCode.map fun code => codes code.toList⟩ c.inside
  match refusal with
  | none => return ()
  | some outcome => refuseLogin (fun _ => 403) c.inside outcome

/-- `enable_totp` of the store: the codes that were there are replaced. -/
def replaceTotp (secret : String) (hashes : List String) (s : LoginStore) :
    LoginStore × Except LoginError Unit :=
  if hashes.Nodup then
    ({ s with
        totpSecret := some secret
        recoveryCodes := hashes.foldl (fun codes hash => codes.set hash none) .empty }, .ok ())
  else (s, .error (.integrity .unique))

def enableTotp (r : Request) (body : PasswordBody) : Handling σ Body := do
  stepUp A c r body
  withStore (replaceTotp c.totpSecret (c.recoveryCodes.map A.gate.service.hashToken))
  recordAudit c.afterwards "totp_enabled" "" "" ""
  return .totp c.totpSecret c.recoveryCodes

def disableTotp (r : Request) (body : PasswordBody) : Handling σ Body := do
  stepUp A c r body
  withStore fun store => ({ store with totpSecret := none, recoveryCodes := .empty }, .ok ())
  recordAudit c.afterwards "totp_disabled" "" "" ""
  return .noContent

/-! ## What is read -/

/-- `list_refresh`. -/
def sessionRows (s : AuthStore) : List RefreshToken :=
  (Page.descending (fun r : RefreshRow => toLex (r.issuedAt, r.id)) s.rows).map fun r =>
    r.toRefreshToken

/-- The audit rows, each with its id. -/
def numbered (entries : List AuditEntry) : List (ℕ × AuditEntry) :=
  entries.zipIdx.map fun e => (e.2, e.1)

def auditKey (e : ℕ × AuditEntry) : ℤ ×ₗ ℕ := toLex (e.2.time, e.1)

/-- `query_audit`. -/
def queryAudit (s : LoginStore) (since : Option ℤ) (limit : ℕ) : List AuditEntry :=
  (Page.top auditKey limit ((numbered s.audit).filter fun e => ∀ t ∈ since, t ≤ e.2.time)).map
    Prod.snd

/-- `count_by_kind`. -/
def countByKind (s : EventStore) : List (String × ℕ) :=
  (s.rows.map fun r => r.kind).dedup.map fun kind => (kind, s.rows.countP fun r => r.kind = kind)

def securitySummary (s : LoginStore) (now : ℤ) : SecuritySummary where
  lastLogin :=
    (Page.top auditKey 1 ((numbered s.audit).filter fun e => e.2.action = "login")).head?.map
      fun e => (e.2.time, e.2.subject)
  failedLogins := s.attempts.countP fun a => a.ok = false ∧ now - 86400 ≤ a.time
  lockedUntil := ((s.lockouts.items.filter fun i =>
    "account:".toList <+: i.1.toList ∧ now < i.2.lockedUntil).map fun i => i.2.lockedUntil).max?
  totp := s.totpSecret.isSome

def unitRows : List (String × String × List Capability) :=
  c.units.map fun u =>
    (u.1, if u.2 = "" then u.1 else u.2, A.config.capabilitiesFor u.1)

def permitted (kind unit : Option String) (since : Option ℤ) (limit : Limit) : Handling σ Body :=
  fun s =>
    match permittedRows s.events A.config kind unit since limit with
    | none => (s, .error capabilityDenied)
    | some rows => (s, .ok (.rows rows))

/-- `stream_events`, which looks at the token again. -/
def stream (authorization : Str) : Handling σ Body := do
  let token := bearerToken authorization
  let s ← Handler.get
  match A.authorise token c.inside .read with
  | some claims =>
    if s.store.refreshTokens.familyLive claims.refreshId.toNat c.inside then
      return .stream (some claims.refreshId.toNat) s.events.latestEventId
    else Handler.raise unauthorized
  | none =>
    if ← isLegacy A token then return .stream none s.events.latestEventId
    else Handler.raise unauthorized

/-! ## Requests -/

/-- A request, from its dependencies on. -/
def handle (r : Request) : Handling σ Body :=
  match r.endpoint with
  | .health => do return .health (← Handler.get).store.totpSecret.isSome
  | .readUnits => do
    requireScope A c r.authorization .read
    return .units (unitRows A c)
  | .stats => do
    requireScope A c r.authorization .read
    let s ← Handler.get
    return .stats (countByKind s.events) (securitySummary s.store c.inside)
  | .acquireSession unit => do acquireSession A c unit (← controlSession A c r.authorization).1
  | .takeOverSession unit => do takeOverSession A c unit (← controlSession A c r.authorization).1
  | .heartbeatSession unit => do heartbeatSession A c unit (← controlSession A c r.authorization).1
  | .releaseSession unit => do releaseSession A c unit (← controlSession A c r.authorization).1
  | .readSession unit => do
    let _ ← controlSession A c r.authorization
    readSession A c unit
  | .relay route unit => relay A c route unit r.authorization
  | .relayHeartbeat route unit holder refreshId => relayHeartbeat c route unit holder refreshId
  | .relayEnd route unit session => relayEnd c route unit session
  | .contacts unit refresh => do
    requireScope A c r.authorization .read
    readContacts A c unit refresh
  | .sims unit => do
    requireScope A c r.authorization .read
    readSims A c unit
  | .telemetry unit => do
    requireScope A c r.authorization .read
    readTelemetry A c unit
  | .listFiles unit => do
    requireScope A c r.authorization .control
    readFiles A c unit
  | .uploadFile unit name content => do
    requireScope A c r.authorization .control
    uploadFile A c unit name content
  | .downloadFile unit name => do
    requireScope A c r.authorization .control
    downloadFile A c unit name
  | .deleteFile unit name => do
    requireScope A c r.authorization .control
    deleteFile A c unit name
  | .logIn body => logIn A c r body
  | .refresh refreshToken => refresh A c refreshToken
  | .logOut refreshToken => logOut A c refreshToken
  | .readSessions => do
    requireScope A c r.authorization .admin
    return .sessions (sessionRows (← Handler.get).store.refreshTokens)
  | .revokeSession tokenId => do
    requireScope A c r.authorization .admin
    revokeSession c tokenId
  | .revokeAllSessions => do
    requireScope A c r.authorization .admin
    revokeAllSessions c
  | .audit since limit => do
    requireScope A c r.authorization .admin
    return .audit (queryAudit (← Handler.get).store since limit)
  | .enableTotp body => do
    requireScope A c r.authorization .admin
    enableTotp A c r body
  | .disableTotp body => do
    requireScope A c r.authorization .admin
    disableTotp A c r body
  | .readEvents kind unit since limit => do
    requireScope A c r.authorization .read
    permitted A kind unit since limit
  | .readMessages unit since limit => do
    requireScope A c r.authorization .read
    permitted A (some KIND_SMS) unit since limit
  | .readCalls unit since limit => do
    requireScope A c r.authorization .read
    permitted A (some KIND_CALL) unit since limit
  | .sendMessage unit destination body sim => do
    requireScope A c r.authorization .control
    sendMessage A c unit destination body sim
  | .answerCall unit => do
    requireScope A c r.authorization .control
    answerCall A c unit
  | .rejectCall unit => do
    requireScope A c r.authorization .control
    rejectCall A c unit
  | .dialCall unit destination sim => do
    requireScope A c r.authorization .control
    dialCall A c unit destination sim
  | .endCall unit => do
    requireScope A c r.authorization .control
    endCall A c unit
  | .sendDtmf unit digits => do
    requireScope A c r.authorization .control
    sendDtmf A c unit digits
  | .stream => do
    requireScope A c r.authorization .read
    stream A c r.authorization

/-- A request with what it meets. -/
abbrev Visit (κ : Type) := Request × Chance κ

def step (s : State σ) (v : Visit κ) : State σ := (handle A v.2 v.1 s).1

end Handling

/-! ## What the endpoints are for -/

namespace Endpoint

/-- The scope a token must have. -/
def scope : Endpoint → Option Scope
  | health | logIn _ | refresh _ | logOut _ | relayHeartbeat .. | relayEnd .. => none
  | readUnits | stats | contacts .. | sims _ | telemetry _ | readEvents .. | readMessages ..
  | readCalls .. | stream => some .read
  | readSessions | revokeSession _ | revokeAllSessions | audit .. | enableTotp _
  | disableTotp _ => some .admin
  | acquireSession _ | takeOverSession _ | heartbeatSession _ | releaseSession _ | readSession _
  | relay .. | listFiles _ | uploadFile .. | downloadFile .. | deleteFile .. | sendMessage ..
  | answerCall _ | rejectCall _ | dialCall .. | endCall _ | sendDtmf .. => some .control

/-- The unit, with the capabilities it must have one of. -/
def unit : Endpoint → Option (String × List Capability)
  | acquireSession unit | takeOverSession unit | heartbeatSession unit | releaseSession unit
  | readSession unit | relay .screen unit => some (unit, [.screen])
  | relay .voice unit | answerCall unit | rejectCall unit | dialCall unit .. | endCall unit
  | sendDtmf unit _ => some (unit, [.calls])
  | contacts unit _ | sims unit | sendMessage unit .. => some (unit, [.sms])
  | telemetry unit => some (unit, [.sms, .notifications])
  | listFiles unit | uploadFile unit .. | downloadFile unit _ | deleteFile unit _ =>
    some (unit, [.files])
  | health | readUnits | stats | relayHeartbeat .. | relayEnd .. | logIn _ | refresh _ | logOut _
  | readSessions | revokeSession _ | revokeAllSessions | audit .. | enableTotp _ | disableTotp _
  | readEvents .. | readMessages .. | readCalls .. | stream => none

/-- The session of the token must be live, and not only the token. -/
def IsSessionBound : Endpoint → Prop
  | acquireSession _ | takeOverSession _ | heartbeatSession _ | releaseSession _ | readSession _
  | relay .. | enableTotp _ | disableTotp _ | stream => True
  | _ => False

/-- How an error at the dependencies is told: a relay's socket is closed. -/
def told : Endpoint → HttpError → HttpError
  | relay .., e => e.closing
  | _, e => e

end Endpoint

/-! ## What a login gives -/

/-- What stays of a row of the refresh tokens: the login it descends from, and what it is for. -/
structure Grant where
  id : ℕ
  family : ℕ
  scope : String
  issuedAt : ℤ
deriving DecidableEq

def grantOf (r : RefreshRow) : Grant := ⟨r.id, r.family, r.scope, r.issuedAt⟩

def grants (s : AuthStore) : List Grant := s.rows.map grantOf

/-- The claims of the access token that is issued with a row. -/
def Grant.claims (accessTtlSeconds : ℤ) (g : Grant) : AccessClaims :=
  ⟨g.id, g.scope, g.issuedAt + accessTtlSeconds⟩

/-- No lock refuses the attempt, and every factor holds. -/
structure Right (G : TextGate) (s : LoginStore) (a : LoginCall) : Prop where
  unlocked : a.Unlocked G s
  names : a.NamesAdmin G
  factor : ∀ secret, s.totpSecret = some secret → a.TotpHolds G secret ∨ a.RecoveryHolds G s

/-- The request is a login with the right credentials that is answered with the row's tokens. -/
structure LetIn {κ σ : Type} (A : Service κ σ) (s : State σ) (v : Visit κ) (g : Grant) : Prop where
  root : g.family = g.id
  issuedAt : g.issuedAt = v.2.now
  request : ∃ body, v.1.endpoint = .logIn body ∧ g.scope = body.scope
    ∧ Right A.gate s.store (loginCall A v.2 v.1 body)
  answer : ∃ tokens access, (handle A v.2 v.1 s).2 = .ok (.tokens tokens access)
    ∧ tokens.access = g.claims A.gate.accessTtlSeconds

end Api

end Rackphone
