import Rackphone.Endpoints
import Rackphone.Proofs.AccessToken
import Rackphone.Proofs.Login
import Rackphone.Proofs.LoginText

/-!
# Who is let in

Every endpoint stands behind its scope, its unit's capability and, where it has one, the session of
the token, and without them nothing is done.
-/

namespace Rackphone

namespace Api

open Handler (Guarded Only Preserves)

variable {κ σ : Type} {A : Service κ σ} {c : Chance κ} {α : Type}

/-! ## The dependencies -/

/-- The token is the one of the configuration, which is looked at on a loopback bind. -/
def Service.IsLegacy (A : Service κ σ) (token : Str) : Prop :=
  A.legacyEnabled = true ∧ compareDigest token A.apiToken = .ok true

def Service.Admits (A : Service κ σ) (token : Str) (now : ℤ) (scope : Scope) : Prop :=
  (A.authorise token now scope).isSome ∨ A.IsLegacy token

/-- The session of the token, which is live. -/
def Service.session (A : Service κ σ) (s : State σ) (token : Str) (now : ℤ) (scope : Scope) :
    Option RefreshToken :=
  (A.authorise token now scope).bind fun claims => liveRefresh s.store claims.refreshId now

/-- A token that is turned away; one that is not ASCII cannot be compared with another. -/
def Service.Turned (A : Service κ σ) (e : HttpError) : Prop :=
  e = unauthorized ∨ A.legacyEnabled = true ∧ e = .raised

/-- A request that is turned away at its dependencies. -/
def Service.Denied (A : Service κ σ) (e : HttpError) : Prop :=
  A.Turned e ∨ e = unknownUnit ∨ e = capabilityDenied

/-- One of `E`, as the endpoint tells it. -/
def Endpoint.Answers (endpoint : Endpoint) (E : HttpError → Prop) (answer : HttpError) : Prop :=
  ∃ e, E e ∧ answer = endpoint.told e

def Service.Permits (A : Service κ σ) (c : Chance κ) (unit : String)
    (capabilities : List Capability) : Prop :=
  unit ∈ c.units.map Prod.fst
    ∧ ∃ capability ∈ capabilities, capability ∈ A.config.capabilitiesFor unit

theorem isLegacy_cases (A : Service κ σ) (token : Str) (s : State σ) :
    (∃ b, isLegacy A token s = (s, .ok b) ∧ (b = true → A.IsLegacy token))
      ∨ A.legacyEnabled = true ∧ isLegacy A token s = (s, .error .raised) := by
  unfold isLegacy
  by_cases henabled : A.legacyEnabled = true
  · rw [if_pos henabled]
    rcases hsame : compareDigest token A.apiToken with e | same
    · exact .inr ⟨henabled, rfl⟩
    · exact .inl ⟨same, rfl, fun h => ⟨henabled, hsame.trans (congrArg _ h)⟩⟩
  · rw [if_neg henabled]
    exact .inl ⟨false, rfl, fun h => absurd h (by decide)⟩

/-- What stands at the end of both dependencies. -/
theorem legacy_cases (A : Service κ σ) (token : Str) (a : α) (s : State σ) :
    ((isLegacy A token >>= fun b => if b = true then pure a else Handler.raise unauthorized) s
        = (s, .ok a) ∧ A.IsLegacy token)
      ∨ ∃ e, A.Turned e
        ∧ (isLegacy A token >>= fun b => if b = true then pure a else Handler.raise unauthorized) s
          = (s, .error e) := by
  rcases isLegacy_cases A token s with ⟨b, h, hb⟩ | ⟨henabled, h⟩
  · rw [Handler.bind_of_ok h]
    cases b with
    | true => exact .inl ⟨rfl, hb rfl⟩
    | false => exact .inr ⟨_, .inl rfl, rfl⟩
  · exact .inr ⟨_, .inr ⟨henabled, rfl⟩, Handler.bind_of_error h⟩

theorem requireScope_cases (A : Service κ σ) (c : Chance κ) (authorization : Str) (scope : Scope)
    (s : State σ) :
    (requireScope A c authorization scope s = (s, .ok ())
        ∧ A.Admits (bearerToken authorization) c.now scope)
      ∨ ∃ e, A.Turned e ∧ requireScope A c authorization scope s = (s, .error e) := by
  unfold requireScope
  by_cases hclaims : (A.authorise (bearerToken authorization) c.now scope).isSome = true
  · simp only [hclaims, if_true]
    exact .inl ⟨rfl, .inl hclaims⟩
  · simp only [hclaims]
    rcases legacy_cases A (bearerToken authorization) () s with ⟨h, hlegacy⟩ | ⟨e, he, h⟩
    · exact .inl ⟨h, .inr hlegacy⟩
    · exact .inr ⟨e, he, h⟩

theorem liveSession_cases (A : Service κ σ) (authorization : Str) (scope : Scope) (now : ℤ)
    (s : State σ) :
    (∃ a, liveSession A authorization scope now s = (s, .ok a)
        ∧ ((A.session s (bearerToken authorization) now scope).isSome
          ∨ A.IsLegacy (bearerToken authorization)))
      ∨ ∃ e, A.Turned e ∧ liveSession A authorization scope now s = (s, .error e) := by
  unfold liveSession
  rw [Handler.get_bind]
  rcases hsession : A.session s (bearerToken authorization) now scope with _ | session
  · simp only [Service.session] at hsession
    simp only [hsession]
    rcases legacy_cases A (bearerToken authorization) ("legacy", none) s
      with ⟨h, hlegacy⟩ | ⟨e, he, h⟩
    · exact .inl ⟨_, h, .inr hlegacy⟩
    · exact .inr ⟨e, he, h⟩
  · simp only [Service.session] at hsession
    simp only [hsession]
    exact .inl ⟨_, rfl, .inl rfl⟩

theorem guarded_requireScope (A : Service κ σ) (c : Chance κ) (authorization : Str)
    (scope : Scope) :
    Guarded (fun _ => A.Admits (bearerToken authorization) c.now scope) A.Turned
      (requireScope A c authorization scope) := by
  intro s hs
  rcases requireScope_cases A c authorization scope s with ⟨-, hadmits⟩ | ⟨e, he, h⟩
  · exact absurd hadmits hs
  · rw [h]
    exact ⟨rfl, e, he, rfl⟩

theorem guarded_liveSession (A : Service κ σ) (authorization : Str) (scope : Scope) (now : ℤ) :
    Guarded (fun s => (A.session s (bearerToken authorization) now scope).isSome
        ∨ A.IsLegacy (bearerToken authorization)) A.Turned
      (liveSession A authorization scope now) := by
  intro s hs
  rcases liveSession_cases A authorization scope now s with ⟨a, -, hlive⟩ | ⟨e, he, h⟩
  · exact absurd hlive hs
  · rw [h]
    exact ⟨rfl, e, he, rfl⟩

theorem admits_of_session {token : Str} {now : ℤ} {scope : Scope} {s : State σ}
    (h : (A.session s token now scope).isSome ∨ A.IsLegacy token) : A.Admits token now scope := by
  refine h.imp_left fun h => ?_
  obtain ⟨session, hsession⟩ := Option.isSome_iff_exists.1 h
  obtain ⟨claims, hclaims, -⟩ := Option.bind_eq_some_iff.1 hsession
  rw [hclaims]
  rfl

theorem only_requireScope (A : Service κ σ) (c : Chance κ) (authorization : Str) (scope : Scope)
    (s : State σ) : Only A.Turned (requireScope A c authorization scope) s := by
  rcases requireScope_cases A c authorization scope s with ⟨h, -⟩ | ⟨e, he, h⟩ <;> rw [Only, h]
  · exact ⟨rfl, fun _ h => by cases h⟩
  · exact ⟨rfl, fun _ h => Except.error.inj h ▸ he⟩

theorem only_liveSession (A : Service κ σ) (authorization : Str) (scope : Scope) (now : ℤ)
    (s : State σ) : Only A.Turned (liveSession A authorization scope now) s := by
  rcases liveSession_cases A authorization scope now s with ⟨a, h, -⟩ | ⟨e, he, h⟩ <;> rw [Only, h]
  · exact ⟨rfl, fun _ h => by cases h⟩
  · exact ⟨rfl, fun _ h => Except.error.inj h ▸ he⟩

theorem Only.denied {x : Handling σ α} {s : State σ} (h : Only A.Turned x s) :
    Only A.Denied x s := ⟨h.1, fun e he => .inl (h.2 e he)⟩

theorem guarded_requireEither (A : Service κ σ) (c : Chance κ) (unit : String)
    (capabilities : List Capability) :
    Guarded (fun _ => A.Permits c unit capabilities) A.Denied
      (requireEither A c unit capabilities) := by
  intro s hs
  unfold requireEither
  by_cases hknown : unit ∈ c.units.map Prod.fst
  · rw [if_neg (not_not.2 hknown), if_neg fun h => hs ⟨hknown, h⟩]
    exact ⟨rfl, _, .inr (.inr rfl), rfl⟩
  · rw [if_pos hknown]
    exact ⟨rfl, _, .inr (.inl rfl), rfl⟩

/-! ## The endpoints -/

/-- An endpoint that is no relay tells what is raised as it is. -/
theorem Guarded.answers {g : State σ → Prop} {E : HttpError → Prop} {x : Handling σ α}
    {endpoint : Endpoint} (h : Guarded g E x) (htold : ∀ e, endpoint.told e = e) :
    Guarded g (endpoint.Answers E) x := h.imp fun e he => ⟨e, he, (htold e).symm⟩

/-- Without its scope no endpoint does anything. -/
theorem guarded_scope (A : Service κ σ) (c : Chance κ) (r : Request) {scope : Scope}
    (h : r.endpoint.scope = some scope) :
    Guarded (fun _ => A.Admits (bearerToken r.authorization) c.now scope)
      (r.endpoint.Answers A.Turned) (handle A c r) := by
  have hsession : Guarded (fun _ => A.Admits (bearerToken r.authorization) c.now .control) A.Turned
      (controlSession A c r.authorization) := fun s hs =>
    guarded_liveSession A r.authorization .control c.now s fun h => hs (admits_of_session h)
  obtain ⟨authorization, peer, forwardedFor, endpoint⟩ := r
  cases endpoint with
  | relay route unit =>
    cases h
    exact (hsession.bind.mapError HttpError.closing).bind
  | _ =>
    cases h <;> refine Guarded.answers ?_ fun _ => rfl <;>
      first
      | exact (guarded_requireScope A c authorization _).bind
      | exact hsession.bind

/-- Without a unit that has the capability no endpoint of a unit does anything. -/
theorem guarded_unit (A : Service κ σ) (c : Chance κ) (r : Request) {unit : String}
    {capabilities : List Capability} (h : r.endpoint.unit = some (unit, capabilities)) :
    Guarded (fun _ => A.Permits c unit capabilities) (r.endpoint.Answers A.Denied)
      (handle A c r) := by
  obtain ⟨authorization, peer, forwardedFor, endpoint⟩ := r
  have hscope scope s := Only.denied (only_requireScope A c authorization scope s)
  have hsession s := Only.denied (only_liveSession A authorization .control c.now s)
  have hunit := guarded_requireEither A c
  cases endpoint with
  | relay route unit =>
    have hdependencies := Guarded.after hsession fun session =>
      (hunit unit [routeCapability route]).bind (f := fun _ => pure session)
    cases route <;> cases h <;> exact (hdependencies.mapError HttpError.closing).bind
  | telemetry unit =>
    cases h
    refine Guarded.answers ?_ fun _ => rfl
    exact .after (hscope .read) fun _ => (hunit unit [.sms, .notifications]).bind
  | _ =>
    cases h <;> refine Guarded.answers ?_ fun _ => rfl <;>
      first
      | exact .after (hscope _) fun _ => (hunit _ _).bind
      | exact .after hsession fun _ => (hunit _ _).bind

/-- The login of the token is live where the endpoint looks it up: the row the token names, and for
the stream a row of its family. -/
def Service.SessionLive (A : Service κ σ) (c : Chance κ) (endpoint : Endpoint) (token : Str)
    (s : State σ) : Prop :=
  A.IsLegacy token ∨ match endpoint with
    | .stream => ∃ claims, A.authorise token c.inside .read = some claims
      ∧ s.store.refreshTokens.familyLive claims.refreshId.toNat c.inside = true
    | .enableTotp _ | .disableTotp _ => (A.session s token c.inside .admin).isSome = true
    | _ => (A.session s token c.now .control).isSome = true

theorem verified_of_authorise {token : Str} {now : ℤ} {scope : Scope}
    {claims : AccessToken.AccessClaims} (h : A.authorise token now scope = some claims) :
    AccessToken.verifyAccessToken A.numeral A.digest A.accessKey token now = some claims
      ∧ Scope.allows claims.scope scope = true :=
  Option.filter_eq_some_iff.1 h

theorem familyLive_of_liveRefresh {s : AuthStore} {id : ℕ} {now : ℤ} {session : RefreshToken}
    (h : s.liveRefresh id now = some session) : s.familyLive id now = true := by
  obtain ⟨r, hr, -⟩ := Option.map_eq_some_iff.1 h
  obtain ⟨hmem, rfl, hlive⟩ := AuthStore.find?_id_eq_some.1 hr
  exact (AuthStore.familyLive_iff hmem).2 ⟨r, hmem, rfl, hlive⟩

theorem exists_familyLive {s : State σ} {token : Str} {now : ℤ} {scope : Scope}
    (h : (A.session s token now scope).isSome = true) : ∃ claims,
    AccessToken.verifyAccessToken A.numeral A.digest A.accessKey token now = some claims
      ∧ s.store.refreshTokens.familyLive claims.refreshId.toNat now = true := by
  obtain ⟨session, hsession⟩ := Option.isSome_iff_exists.1 h
  obtain ⟨claims, hclaims, hlive⟩ := Option.bind_eq_some_iff.1 hsession
  exact ⟨claims, (verified_of_authorise hclaims).1, familyLive_of_liveRefresh hlive⟩

theorem now_le_inside (c : Chance κ) : c.now ≤ c.inside := by simp [Chance.inside]

/-- Wherever it is looked up, the family is live at some time from the request's on. -/
theorem Service.SessionLive.familyLive {endpoint : Endpoint} {token : Str} {s : State σ}
    (h : A.SessionLive c endpoint token s) : A.IsLegacy token ∨ ∃ now, c.now ≤ now ∧ ∃ claims,
      AccessToken.verifyAccessToken A.numeral A.digest A.accessKey token now = some claims
        ∧ s.store.refreshTokens.familyLive claims.refreshId.toNat now = true := by
  refine h.imp_right fun h => ?_
  cases endpoint with
  | stream =>
    obtain ⟨claims, hclaims, hlive⟩ := h
    exact ⟨c.inside, now_le_inside c, claims, (verified_of_authorise hclaims).1, hlive⟩
  | enableTotp | disableTotp => exact ⟨c.inside, now_le_inside c, exists_familyLive h⟩
  | _ => exact ⟨c.now, le_rfl, exists_familyLive h⟩

theorem guarded_stream (A : Service κ σ) (c : Chance κ) (authorization : Str) :
    Guarded (A.SessionLive c .stream (bearerToken authorization)) A.Turned
      (stream A c authorization) := by
  intro s hs
  unfold stream
  rw [Handler.get_bind]
  rcases hclaims : A.authorise (bearerToken authorization) c.inside .read with _ | claims
  · simp only
    rcases legacy_cases A (bearerToken authorization) (Body.stream none s.events.latestEventId) s
      with ⟨-, hlegacy⟩ | ⟨e, he, h⟩
    · exact absurd (.inl hlegacy) hs
    · exact ⟨congrArg Prod.fst h, e, he, congrArg Prod.snd h⟩
  · simp only
    by_cases hlive : s.store.refreshTokens.familyLive claims.refreshId.toNat c.inside = true
    · exact absurd (.inr ⟨claims, hclaims, hlive⟩) hs
    · rw [if_neg hlive]
      exact ⟨rfl, _, .inl rfl, rfl⟩

/-- Where a session is looked up, a login that is over is turned away at once. -/
theorem guarded_session (A : Service κ σ) (c : Chance κ) (r : Request)
    (h : r.endpoint.IsSessionBound) :
    Guarded (A.SessionLive c r.endpoint (bearerToken r.authorization))
      (r.endpoint.Answers A.Turned) (handle A c r) := by
  obtain ⟨authorization, peer, forwardedFor, endpoint⟩ := r
  have hlive scope now := (guarded_liveSession A authorization scope now).mono fun _ => Or.symm
  have hcontrol := hlive .control c.now
  have hadmin := hlive .admin c.inside
  have hscope := only_requireScope A c authorization
  cases endpoint with
  | relay route unit => exact (hcontrol.bind.mapError HttpError.closing).bind
  | enableTotp body =>
    exact Guarded.answers (.after (hscope .admin) fun _ => hadmin.bind.bind) fun _ => rfl
  | disableTotp body =>
    exact Guarded.answers (.after (hscope .admin) fun _ => hadmin.bind.bind) fun _ => rfl
  | stream =>
    exact Guarded.answers (.after (hscope .read) fun _ => guarded_stream A c authorization)
      fun _ => rfl
  | acquireSession | takeOverSession | heartbeatSession | releaseSession | readSession =>
    exact Guarded.answers hcontrol.bind fun _ => rfl
  | _ => exact h.elim

/-! ## What the endpoints leave alone -/

/-- One of the requests the units are sent, a message to send excepted. -/
inductive Rack.Asks (R : Rack κ σ) : σ → σ → Prop
  | contacts (c unit refresh s) : Asks R s (R.contacts c unit refresh s).1
  | sims (c unit s) : Asks R s (R.sims c unit s).1
  | metrics (c unit s) : Asks R s (R.metrics c unit s).1
  | listFiles (c unit s) : Asks R s (R.listFiles c unit s).1
  | store (c unit name content s) : Asks R s (R.store c unit name content s).1
  | fetch (c unit name s) : Asks R s (R.fetch c unit name s).1
  | remove (c unit name s) : Asks R s (R.remove c unit name s).1
  | answerCall (c unit name s) : Asks R s (DeviceCli.answerCall (R.run c unit) name s).1
  | rejectCall (c unit name s) : Asks R s (DeviceCli.rejectCall (R.run c unit) name s).1
  | dialCall (c unit name s destination sim) :
    Asks R s (DeviceCli.dialCall (R.run c unit) name s destination sim).1
  | endCall (c unit name s) : Asks R s (DeviceCli.endCall (R.run c unit) name s).1
  | sendDtmf (c unit name s digits) :
    Asks R s (DeviceCli.sendDtmf (R.run c unit) name s digits).1

/-- A property that no step of a handler changes, where it neither sends a message nor issues or
revokes a token. -/
structure Frame (A : Service κ σ) (P : State σ → Prop) : Prop where
  sessions : ∀ s sessions, P s → P { s with sessions }
  voices : ∀ s voices, P s → P { s with voices }
  audit : ∀ s entry, entry.action ≠ "send_sms" → P s →
    P { s with store := s.store.recordAudit entry }
  rack : ∀ s rack, A.rack.Asks s.rack rack → P s → P { s with rack }
  credentials : ∀ s presented now, P s →
    P { s with store := (A.gate.checkCredentials s.store presented now).1 }
  totp : ∀ s totpSecret recoveryCodes, P s →
    P { s with store := { s.store with totpSecret, recoveryCodes } }

def Endpoint.IsFramed : Endpoint → Prop
  | logIn _ | refresh _ | logOut _ | revokeSession _ | revokeAllSessions | sendMessage .. => False
  | _ => True

section Frame

variable {P : State σ → Prop}

theorem preserves_of_only {E : HttpError → Prop} {x : Handling σ α} (h : ∀ s, Only E x s) :
    Preserves P x := fun s hs => (h s).1.symm ▸ hs

theorem preserves_requireScope (authorization : Str) (scope : Scope) :
    Preserves P (requireScope A c authorization scope) :=
  preserves_of_only (only_requireScope A c authorization scope)

theorem preserves_liveSession (authorization : Str) (scope : Scope) (now : ℤ) :
    Preserves P (liveSession A authorization scope now) :=
  preserves_of_only (only_liveSession A authorization scope now)

theorem preserves_legacy (token : Str) (a : α) :
    Preserves P (isLegacy A token >>= fun b =>
      if b = true then pure a else Handler.raise unauthorized) := by
  intro s hs
  rcases legacy_cases A token a s with ⟨h, -⟩ | ⟨e, -, h⟩ <;> rw [h] <;> exact hs

theorem preserves_requireEither (unit : String) (capabilities : List Capability) :
    Preserves P (requireEither A c unit capabilities) := by
  unfold requireEither
  split_ifs
  · exact Handler.preserves_pure _
  · exact Handler.preserves_raise _
  · exact Handler.preserves_raise _

theorem preserves_withUnit {f : σ → σ × Except DeviceCli.Failure α}
    (hf : ∀ s, P s → P { s with rack := (f s.rack).1 }) : Preserves P (withUnit f) := by
  intro s hs
  have hs' := hf s hs
  unfold withUnit
  rcases h : f s.rack with ⟨rack, e | a⟩ <;> rw [h] at hs' <;> exact hs'

theorem preserves_withFiles {f : σ → σ × Except Files.FilesError α}
    (hf : ∀ s, P s → P { s with rack := (f s.rack).1 }) : Preserves P (withFiles f) := by
  intro s hs
  have hs' := hf s hs
  unfold withFiles
  rcases h : f s.rack with ⟨rack, e | a⟩ <;> rw [h] at hs' <;> exact hs'

theorem withStore_of_ok {f : LoginStore → LoginStore × Except LoginError α} {s : State σ}
    {store : LoginStore} {a : α} (h : f s.store = (store, .ok a)) :
    withStore f s = ({ s with store }, .ok a) := by
  unfold withStore
  rw [h]

theorem withStore_of_error {f : LoginStore → LoginStore × Except LoginError α} {s : State σ}
    {store : LoginStore} {e : LoginError} (h : f s.store = (store, .error e)) :
    withStore f s = ({ s with store }, .error .raised) := by
  unfold withStore
  rw [h]

theorem preserves_withStore {f : LoginStore → LoginStore × Except LoginError α}
    (hf : ∀ s, P s → P { s with store := (f s.store).1 }) : Preserves P (withStore f) := by
  intro s hs
  have hs' := hf s hs
  unfold withStore
  rcases h : f s.store with ⟨store, e | a⟩ <;> rw [h] at hs' <;> exact hs'

theorem preserves_acquired (r : Except AcquireError ScreenSession) :
    Preserves P (acquired r : Handling σ ScreenSession) := by
  rcases r with (_ | _) | session
  · exact Handler.preserves_raise _
  · exact Handler.preserves_raise _
  · exact Handler.preserves_pure _

theorem preserves_refuseLogin (status : RefusalReason → ℕ) (now : ℤ) (outcome : LoginOutcome) :
    Preserves P (refuseLogin status now outcome : Handling σ α) := by
  unfold refuseLogin
  split <;> exact Handler.preserves_raise _

theorem preserves_addSent (hP : ∀ s events, P s → P { s with events })
    (unit destination body : String) (answer : DeviceCli.Members) :
    Preserves P (addSent A c unit destination body answer) := by
  intro s hs
  unfold addSent
  split
  · exact hs
  · simp only
    split_ifs
    · exact hP s _ hs
    · exact hs

variable (F : Frame A P)
include F

theorem Frame.preserves_withSessions (f : SessionManager → SessionManager × α) :
    Preserves P (withSessions f) := fun s hs => F.sessions s _ hs

theorem Frame.preserves_withManager (route : Route) (f : SessionManager → SessionManager × α) :
    Preserves P (withManager route f) := by
  cases route with
  | screen => exact fun s hs => F.sessions s _ hs
  | voice => exact fun s hs => F.voices s _ hs

theorem Frame.preserves_relayEnd (route : Route) (unit : String) (session : ScreenSession) :
    Preserves P (relayEnd c route unit session) :=
  (F.preserves_withManager route _).bind fun _ => Handler.preserves_pure _

theorem Frame.preserves_relay (route : Route) (unit : String) (authorization : Str) :
    Preserves P (relay A c route unit authorization) := by
  have hdependencies := (preserves_liveSession (P := P) (A := A) authorization .control c.now).bind
    fun session =>
      (preserves_requireEither (A := A) (c := c) unit [routeCapability route]).bind fun _ =>
        Handler.preserves_pure session
  refine (hdependencies.mapError HttpError.closing).bind fun session =>
    (F.preserves_withManager route _).bind fun r => ?_
  rcases r with (_ | _) | session
  · exact Handler.preserves_raise _
  · exact Handler.preserves_raise _
  · simp only
    split_ifs
    · exact Handler.preserves_pure _
    · exact (F.preserves_relayEnd route unit session).bind fun _ => Handler.preserves_raise _

theorem Frame.preserves_relayHeartbeat (route : Route) (unit holder : String)
    (refreshId : Option ℕ) : Preserves P (relayHeartbeat c route unit holder refreshId) := by
  refine Handler.preserves_get.bind fun s => ?_
  split_ifs
  · exact Handler.preserves_pure _
  · exact (F.preserves_withManager route _).bind fun _ => Handler.preserves_pure _

theorem Frame.preserves_recordAudit (now : ℤ) {action : String} (h : action ≠ "send_sms")
    (actor subject detail : String) : Preserves P (recordAudit now action actor subject detail) :=
  Handler.preserves_modify fun s hs => F.audit s ⟨now, actor, action, subject, detail⟩ h hs

theorem Frame.preserves_acquiring (f : SessionManager → SessionManager ×
      Except AcquireError ScreenSession) {action : String} (h : action ≠ "send_sms")
    (unit holder : String) :
    Preserves P (requireUnit A c unit .screen >>= fun _ => withSessions f >>= fun r =>
      acquired r >>= fun session => recordAudit c.inside action holder unit "" >>= fun _ =>
        pure (Body.session (some session))) :=
  (preserves_requireEither unit [.screen]).bind fun _ => (F.preserves_withSessions f).bind fun r =>
    (preserves_acquired r).bind fun _ => (F.preserves_recordAudit _ h _ _ _).bind fun _ =>
      Handler.preserves_pure _

theorem Frame.preserves_call {unit : String} {action : Option (String × String)}
    {f : (σ → List CommandReceiver.Text →
        σ × Except DeviceCli.RunError CommandReceiver.Text) → CommandReceiver.Text → σ →
      σ × Except DeviceCli.Failure DeviceCli.Members}
    (h : ∀ a ∈ action, a.1 ≠ "send_sms")
    (hf : ∀ s, A.rack.Asks s (f (A.rack.run c.device unit) (A.repr unit) s).1) :
    Preserves P (call A c unit action f) := by
  refine (preserves_requireEither unit [.calls]).bind fun _ =>
    (preserves_withUnit fun s hs => F.rack s _ (hf s.rack) hs).bind fun outcome => ?_
  cases action with
  | none => exact Handler.preserves_pure _
  | some a =>
    exact (F.preserves_recordAudit _ (h a rfl) _ _ _).bind fun _ => Handler.preserves_pure _

theorem Frame.preserves_stepUp (r : Request) (body : PasswordBody) :
    Preserves P (stepUp A c r body) := by
  refine (preserves_liveSession _ _ _).bind fun _ =>
    (preserves_withStore fun s hs => F.credentials s _ _ hs).bind fun refusal => ?_
  cases refusal with
  | none => exact Handler.preserves_pure _
  | some outcome => exact preserves_refuseLogin _ _ _

/-- An endpoint that neither sends a message nor issues or revokes a token. -/
theorem Frame.preserves_handle {r : Request} (h : r.endpoint.IsFramed) :
    Preserves P (handle A c r) := by
  obtain ⟨authorization, peer, forwardedFor, endpoint⟩ := r
  have hscope scope := preserves_requireScope (P := P) (A := A) (c := c) authorization scope
  have hsession := preserves_liveSession (P := P) (A := A) authorization .control c.now
  have hunit unit capabilities :=
    preserves_requireEither (P := P) (A := A) (c := c) unit capabilities
  have hpure (body : Body) := Handler.preserves_pure (P := P) (ε := HttpError) body
  have hget := Handler.preserves_get (P := P) (ε := HttpError)
  have hwritten : ∀ action ∈ ["session_acquire", "session_takeover", "session_release",
      "file_write", "totp_enabled", "totp_disabled", "answer_call", "reject_call", "dial_call",
      "end_call"], action ≠ "send_sms" := by decide
  have haudit now action (ha : action ∈ _) := F.preserves_recordAudit now (hwritten action ha)
  have hname (name : Files.Name) : Preserves P (resolveName name : Handling σ Unit) := by
    unfold resolveName
    split_ifs
    · exact Handler.preserves_raise _
    · exact Handler.preserves_pure _
  cases endpoint with
  | health => exact hget.bind fun _ => hpure _
  | readUnits => exact (hscope .read).bind fun _ => hpure _
  | stats => exact (hscope .read).bind fun _ => hget.bind fun _ => hpure _
  | acquireSession unit =>
    exact hsession.bind fun _ => F.preserves_acquiring _ (hwritten _ (by simp)) unit _
  | takeOverSession unit =>
    exact hsession.bind fun _ => F.preserves_acquiring _ (hwritten _ (by simp)) unit _
  | heartbeatSession unit =>
    refine hsession.bind fun _ => (hunit unit [.screen]).bind fun _ =>
      (F.preserves_withSessions _).bind fun session => ?_
    cases session with
    | none => exact Handler.preserves_raise _
    | some session => exact hpure _
  | releaseSession unit =>
    exact hsession.bind fun _ => (hunit unit [.screen]).bind fun _ =>
      (F.preserves_withSessions _).bind fun _ =>
        (haudit c.inside "session_release" (by simp) _ _ _).bind fun _ => hpure _
  | readSession unit =>
    exact hsession.bind fun _ => (hunit unit [.screen]).bind fun _ => hget.bind fun _ => hpure _
  | relay route unit => exact F.preserves_relay route unit authorization
  | relayHeartbeat route unit holder refreshId =>
    exact F.preserves_relayHeartbeat route unit holder refreshId
  | relayEnd route unit session => exact F.preserves_relayEnd route unit session
  | contacts unit refresh =>
    exact (hscope .read).bind fun _ => (hunit unit [.sms]).bind fun _ =>
      (preserves_withUnit fun s hs => F.rack s _ (.contacts ..) hs).bind fun _ => hpure _
  | sims unit =>
    exact (hscope .read).bind fun _ => (hunit unit [.sms]).bind fun _ =>
      (preserves_withUnit fun s hs => F.rack s _ (.sims ..) hs).bind fun _ => hpure _
  | telemetry unit =>
    exact (hscope .read).bind fun _ => (hunit unit [.sms, .notifications]).bind fun _ =>
      (preserves_withUnit fun s hs => F.rack s _ (.metrics ..) hs).bind fun _ => hpure _
  | listFiles unit =>
    exact (hscope .control).bind fun _ => (hunit unit [.files]).bind fun _ =>
      (preserves_withFiles fun s hs => F.rack s _ (.listFiles ..) hs).bind fun _ => hpure _
  | uploadFile unit name content =>
    refine (hscope .control).bind fun _ => (hunit unit [.files]).bind fun _ =>
      (hname name).bind fun _ => ?_
    split_ifs
    · exact Handler.preserves_raise _
    · exact (preserves_withFiles fun s hs => F.rack s _ (.store ..) hs).bind fun _ =>
        (haudit c.afterwards "file_write" (by simp) _ _ _).bind fun _ => hpure _
  | downloadFile unit name =>
    exact (hscope .control).bind fun _ => (hunit unit [.files]).bind fun _ =>
      (hname name).bind fun _ =>
        (preserves_withFiles fun s hs => F.rack s _ (.fetch ..) hs).bind fun _ => hpure _
  | deleteFile unit name =>
    exact (hscope .control).bind fun _ => (hunit unit [.files]).bind fun _ =>
      (preserves_withFiles fun s hs => F.rack s _ (.remove ..) hs).bind fun _ =>
        (haudit c.afterwards "file_write" (by simp) _ _ _).bind fun _ => hpure _
  | readSessions => exact (hscope .admin).bind fun _ => hget.bind fun _ => hpure _
  | audit since limit => exact (hscope .admin).bind fun _ => hget.bind fun _ => hpure _
  | enableTotp body =>
    refine (hscope .admin).bind fun _ => (F.preserves_stepUp _ body).bind fun _ =>
      (preserves_withStore fun s hs => ?_).bind fun _ =>
        (haudit c.afterwards "totp_enabled" (by simp) _ _ _).bind fun _ => hpure _
    unfold replaceTotp
    split_ifs
    · exact F.totp s _ _ hs
    · exact hs
  | disableTotp body =>
    exact (hscope .admin).bind fun _ => (F.preserves_stepUp _ body).bind fun _ =>
      (preserves_withStore fun s hs => F.totp s _ _ hs).bind fun _ =>
        (haudit c.afterwards "totp_disabled" (by simp) _ _ _).bind fun _ => hpure _
  | readEvents | readMessages | readCalls =>
    refine (hscope .read).bind fun _ s hs => ?_
    unfold permitted
    split <;> exact hs
  | answerCall unit =>
    exact (hscope .control).bind fun _ =>
      F.preserves_call (by simp [hwritten]) fun s => .answerCall ..
  | rejectCall unit =>
    exact (hscope .control).bind fun _ =>
      F.preserves_call (by simp [hwritten]) fun s => .rejectCall ..
  | dialCall unit destination sim =>
    exact (hscope .control).bind fun _ =>
      F.preserves_call (by simp [hwritten]) fun s => .dialCall ..
  | endCall unit =>
    exact (hscope .control).bind fun _ =>
      F.preserves_call (by simp [hwritten]) fun s => .endCall ..
  | sendDtmf unit digits =>
    exact (hscope .control).bind fun _ =>
      F.preserves_call (by simp) fun s => .sendDtmf ..
  | stream =>
    refine (hscope .read).bind fun _ => hget.bind fun s => ?_
    split
    · split_ifs
      · exact hpure _
      · exact Handler.preserves_raise _
    · exact preserves_legacy _ _
  | logIn | refresh | logOut | revokeSession | revokeAllSessions | sendMessage => exact h.elim

end Frame

end Api

end Rackphone
