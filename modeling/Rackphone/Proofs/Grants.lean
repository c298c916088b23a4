import Rackphone.Lib.Origin
import Rackphone.Proofs.Api

/-!
# What a token goes back to

Every access token that is signed names a row of the refresh tokens, every row descends from a
login, and a login has the right credentials.
-/

namespace Rackphone

namespace TextGate

variable {G : TextGate} {s : LoginStore}

theorem refreshTokens_lockAt (s : LoginStore) (subject : String) (failures threshold : ℕ) (now : ℤ)
    (ladder : List ℤ) :
    (Gate.lockAt s subject failures threshold now ladder).1.refreshTokens = s.refreshTokens := by
  unfold Gate.lockAt
  split_ifs <;> rfl

theorem refreshTokens_recordFailure (G : TextGate) (s : LoginStore) (username : Str) (ip : String)
    (now : ℤ) (reason : RefusalReason) :
    (G.recordFailure s username ip now reason).1.refreshTokens = s.refreshTokens := by
  unfold recordFailure
  split
  · rfl
  · rename_i name _
    have hip : (addressLock (s.recordAttempt ip name false now) ip now).1.refreshTokens
        = s.refreshTokens := refreshTokens_lockAt (s.recordAttempt ip name false now) ..
    split
    · exact hip
    · rename_i named _
      simp only
      split
      · exact hip
      · rename_i byAccount haccount
        refine Eq.trans ?_ hip
        cases named with
        | false =>
          simp only [Bool.false_eq_true, if_false, Except.ok.injEq] at haccount
          rw [← haccount]
          rfl
        | true =>
          simp only [if_true] at haccount
          rcases hadmin : encode G.adminUsername with e | admin <;> rw [hadmin] at haccount
          · cases haccount
          · simp only [Except.map, Except.ok.injEq] at haccount
            rw [← haccount]
            exact refreshTokens_lockAt ..

/-- A failure is a refusal or raises. -/
theorem tokens_recordFailure {s' : LoginStore} {outcome : LoginOutcome} {username : Str}
    {ip : String} {now : ℤ} {reason : RefusalReason}
    (h : G.recordFailure s username ip now reason = (s', .ok outcome)) : outcome.tokens = none := by
  unfold recordFailure at h
  split at h
  · cases h
  · split at h
    · cases h
    · simp only at h
      split at h
      · cases h
      · obtain ⟨-, h⟩ := Prod.mk.inj h
        rw [← Except.ok.inj h]
        rfl

theorem refreshTokens_checkSecondFactor (G : TextGate) (s : LoginStore) (p : Presented) (now : ℤ) :
    (G.checkSecondFactor s p now).1.refreshTokens = s.refreshTokens := by
  unfold checkSecondFactor
  split
  · rfl
  · split
    · rfl
    · split_ifs
      · rfl
      · split
        · rfl
        · unfold useRecoveryCode
          split
          · rfl
          · exact refreshTokens_consumeRecoveryCode ..

theorem refreshTokens_settle (G : TextGate) (p : Presented) (now : ℤ)
    (r : LoginStore × Except LoginError (Option RefusalReason)) :
    (G.settle p now r).1.refreshTokens = r.1.refreshTokens := by
  rcases r with ⟨s, e | _ | reason⟩
  · rfl
  · rfl
  · exact refreshTokens_recordFailure ..

/-- A check of the credentials leaves the tokens as they are. -/
theorem refreshTokens_checkCredentials (G : TextGate) (s : LoginStore) (p : Presented) (now : ℤ) :
    (G.checkCredentials s p now).1.refreshTokens = s.refreshTokens := by
  unfold checkCredentials
  split_ifs
  · split
    · rfl
    · rfl
    · split
      · rfl
      · simp only
        split_ifs
        · exact refreshTokens_recordFailure ..
        · rw [refreshTokens_settle, refreshTokens_checkSecondFactor]
  · rfl

theorem tokens_map_recordFailure {outcome : LoginOutcome} {username : Str} {ip : String} {now : ℤ}
    {reason : RefusalReason}
    (h : (G.recordFailure s username ip now reason).2.map some = .ok (some outcome)) :
    outcome.tokens = none := by
  rcases hfail : G.recordFailure s username ip now reason with ⟨s', e | o⟩ <;> rw [hfail] at h
  · cases h
  · obtain rfl : o = outcome := by simpa [Except.map] using h
    exact tokens_recordFailure hfail

/-- What is refused has no tokens; what is not has the right credentials. -/
theorem checkCredentials_spec (G : TextGate) (s : LoginStore) (a : LoginCall) :
    (∀ outcome, (G.checkCredentials s a.presented a.now).2 = .ok (some outcome) →
        outcome.tokens = none)
      ∧ ((G.checkCredentials s a.presented a.now).2 = .ok none → Api.Right G s a) := by
  have hfail : ∀ username ip reason, (G.recordFailure s username ip a.now reason).2.map some
      ≠ .ok none := by
    intro username ip reason h
    rcases hr : (G.recordFailure s username ip a.now reason).2 with e | o <;> rw [hr] at h <;>
      cases h
  unfold checkCredentials
  by_cases hconfigured : G.IsConfigured
  · rw [if_neg (not_not.2 hconfigured)]
    rcases hlock : G.lockedUntil s a.presented.ip a.now with e | _ | lockedUntil
    · exact ⟨fun _ h => (by cases h), fun h => (by cases h)⟩
    · simp only
      rcases hname : compareDigest a.presented.username G.adminUsername with e | usernameOk
      · exact ⟨fun _ h => (by cases h), fun h => (by cases h)⟩
      · simp only
        by_cases hwrong : ¬ usernameOk = true
            ∨ ¬ G.crypto.verifyPassword a.presented.password G.passwordHash = true
        · rw [if_pos hwrong]
          exact ⟨fun _ h => tokens_map_recordFailure h, fun h => (hfail _ _ _ h).elim⟩
        · rw [if_neg hwrong]
          rw [not_or, not_not, not_not] at hwrong
          have hnames : a.NamesAdmin G := by
            refine ⟨?_, hwrong.2⟩
            unfold compareDigest at hname
            split_ifs at hname
            rw [hwrong.1] at hname
            simpa using hname
          rcases LoginCall.secondFactor_cases G s a with ⟨s', hsecond, -, hholds⟩
            | ⟨reason, hsecond, -⟩ | ⟨e, hsecond, -⟩
          · rw [hsecond]
            exact ⟨fun _ h => (by cases h),
              fun _ => ⟨hlock, hnames, fun secret h => (hholds secret h).imp_right And.left⟩⟩
          · rw [hsecond]
            exact ⟨fun _ h => tokens_map_recordFailure h, fun h => (hfail _ _ _ h).elim⟩
          · rcases hc : G.checkSecondFactor s a.presented a.now with ⟨s', r⟩
            rw [hc] at hsecond
            obtain rfl : r = .error e := hsecond
            exact ⟨fun _ h => (by cases h), fun h => (by cases h)⟩
    · refine ⟨fun outcome h => ?_, fun h => (by cases h)⟩
      obtain rfl := Option.some.inj (Except.ok.inj h)
      rfl
  · rw [if_pos hconfigured]
    refine ⟨fun outcome h => ?_, fun h => (by cases h)⟩
    obtain rfl := Option.some.inj (Except.ok.inj h)
    rfl

/-- A login leaves the tokens as they are, or has the right credentials and is given a row. -/
theorem logIn_cases (G : TextGate) (s : LoginStore) (a : LoginCall) :
    ((a.result G s).1.refreshTokens = s.refreshTokens
        ∧ ∀ outcome, (a.result G s).2 = .ok outcome → outcome.tokens = none)
      ∨ ∃ label tokens id,
        s.refreshTokens.issueRefresh (G.crypto.sha256Hex a.refresh) label a.scope a.now
            G.refreshTtlSeconds = .ok (tokens, id)
          ∧ (a.result G s).1.refreshTokens = tokens
          ∧ (a.result G s).2
            = .ok ⟨some (G.service.tokens a.refresh id a.scope a.now), none, none⟩
          ∧ Api.Right G s a := by
  obtain ⟨hrefused, hright⟩ := checkCredentials_spec G s a
  have hsame := refreshTokens_checkCredentials G s a.presented a.now
  unfold LoginCall.result logIn
  rcases hcheck : G.checkCredentials s a.presented a.now with ⟨s', e | _ | outcome⟩
  all_goals
    rw [hcheck] at hrefused hright hsame
    simp only at hsame ⊢
  · exact .inl ⟨hsame, fun _ h => by cases h⟩
  · unfold letIn
    rcases encode a.presented.username with e | name
    · exact .inl ⟨hsame, fun _ h => by cases h⟩
    rcases encode G.adminUsername with e | admin
    · exact .inl ⟨hsame, fun _ h => by cases h⟩
    rcases encode a.deviceLabel with e | label
    · exact .inl ⟨hsame, fun _ h => by cases h⟩
    simp only [refreshTokens_clearLock, refreshTokens_recordAttempt, hsame]
    rcases hissue : s.refreshTokens.issueRefresh (G.crypto.sha256Hex a.refresh) label a.scope a.now
        G.refreshTtlSeconds with e | ⟨tokens, id⟩
    · exact .inl ⟨hsame, fun _ h => by cases h⟩
    · exact .inr ⟨label, tokens, id, hissue, rfl, rfl, hright rfl⟩
  · refine .inl ⟨hsame, fun _ h => ?_⟩
    rw [← Except.ok.inj h]
    exact hrefused outcome rfl

end TextGate

namespace Api

open AuthStore (Chained FamilyOver)
open Handler (Preserves)

variable {κ σ : Type} {A : Service κ σ}

/-! ## The rows that are granted -/

section Rows

variable {s s' : AuthStore} {now ttl : ℤ}

theorem grants_update (s : AuthStore) (a : Assignment) (p : RefreshRow → Prop) [DecidablePred p]
    (h : ∀ r, grantOf (a.apply r) = grantOf r) : grants (s.update a p) = grants s := by
  show (s.rows.map (AuthStore.assign a p)).map grantOf = s.rows.map grantOf
  rw [List.map_map]
  refine List.map_congr_left fun r _ => ?_
  show grantOf (AuthStore.assign a p r) = grantOf r
  unfold AuthStore.assign
  split_ifs
  · exact h r
  · rfl

theorem grants_revoked (s : AuthStore) (t : ℤ) (p : RefreshRow → Prop) [DecidablePred p] :
    grants (s.update (.revokedAt t) p) = grants s := grants_update s _ p fun _ => rfl

theorem grants_seen (s : AuthStore) (t : ℤ) (p : RefreshRow → Prop) [DecidablePred p] :
    grants (s.update (.lastSeen t) p) = grants s := grants_update s _ p fun _ => rfl

theorem grants_insert {tokenHash deviceLabel scope : String} {familyId : Option ℕ} {id : ℕ}
    (h : s.insert tokenHash deviceLabel scope now ttl familyId = .ok (s', id)) :
    grants s' = grants s ++ [⟨id, familyId.getD id, scope, now⟩] := by
  obtain ⟨hrows, rfl, -⟩ := AuthStore.insert_eq_ok h
  rw [grants, hrows, List.map_append]
  rfl

theorem grants_resolve (s : AuthStore) (tokenHash : String) (now : ℤ) :
    grants (s.resolveRefresh tokenHash now).1 = grants s := by
  unfold AuthStore.resolveRefresh
  split
  · rfl
  · exact grants_seen ..

theorem live_of_touch {r : RefreshRow} {id : ℕ} (hr : r ∈ (s.touch id now).rows)
    (hlive : r.Live now) : ∃ r₀ ∈ s.rows, r₀.Live now ∧ r₀.tokenHash = r.tokenHash
      ∧ r₀.family = r.family ∧ r₀.scope = r.scope := by
  obtain ⟨r₀, hr₀, rfl⟩ := AuthStore.mem_update.1 hr
  have hgrant :
      grantOf (AuthStore.assign (.lastSeen now) (fun r => r.id = id) r₀) = grantOf r₀ := by
    unfold AuthStore.assign
    split_ifs <;> rfl
  exact ⟨r₀, hr₀, AuthStore.live_of_assign hlive, (AuthStore.tokenHash_assign ..).symm,
    (congrArg Grant.family hgrant).symm, (congrArg Grant.scope hgrant).symm⟩

/-- A row that takes the place of a live one is of its login and its scope. -/
theorem grants_rotate (hC : Chained s) {oldHash newHash : String} {id : Option ℕ}
    (h : s.rotateRefresh oldHash newHash now ttl = .ok (s', id)) :
    grants s' = grants s ∧ id = none
      ∨ ∃ i, id = some i ∧ ∃ r ∈ s.rows, r.Live now
        ∧ s.selectLive oldHash now = some r
        ∧ grants s' = grants s ++ [⟨i, r.family, r.scope, now⟩] := by
  rcases AuthStore.rotateRefresh_eq_ok h with ⟨-, rfl, rfl⟩ | ⟨row, i, hrow, hins, rfl⟩
  · exact .inl ⟨rfl, rfl⟩
  · obtain ⟨hr, -, hlive⟩ := AuthStore.selectLive_eq_some.1 hrow
    refine .inr ⟨i, rfl, row, hr, hlive, hrow, ?_⟩
    rw [grants_insert hins, Option.getD_some, RefreshRow.familyOrId_eq (hC.family_pos row hr)]
    exact congrArg (· ++ _) (grants_revoked s now _)

/-- The calls of the store at one time lead from one table to the other. -/
def Evolves (now : ℤ) (s s' : AuthStore) : Prop :=
  ∃ ops : List AuthStore.Op, Run.final (fun s op => s.call now op) s ops = s'

theorem evolves_refl (now : ℤ) (s : AuthStore) : Evolves now s s := ⟨[], rfl⟩

theorem Evolves.chained (h : Evolves now s s') (hC : Chained s) : Chained s' := by
  obtain ⟨ops, rfl⟩ := h
  exact Run.final_of_invariant (fun s op hC => hC.call now op) ops hC

/-- A renewal leaves what is granted as it is, or adds a row to the login of a live one, which its
tokens are for. -/
theorem grants_renew (L : LoginService) (hC : Chained s) (refreshToken replacement : String)
    (now : ℤ) :
    (grants (L.refresh s refreshToken replacement now).1 = grants s
        ∧ ∀ tokens, (L.refresh s refreshToken replacement now).2 ≠ .ok (.ok tokens))
      ∨ ∃ r ∈ s.rows, r.Live now ∧ ∃ id,
        grants (L.refresh s refreshToken replacement now).1
          = grants s ++ [⟨id, r.family, r.scope, now⟩]
        ∧ (L.refresh s refreshToken replacement now).2
          = .ok (.ok (L.tokens replacement id r.scope now)) := by
  have hseen := grants_resolve s (L.hashToken refreshToken) now
  have hCt := hC.resolve (L.hashToken refreshToken) now
  unfold LoginService.refresh
  rcases hrow : s.selectLive (L.hashToken refreshToken) now with _ | row
  · have hresolve : s.resolveRefresh (L.hashToken refreshToken) now = (s, none) := by
      rw [AuthStore.resolveRefresh, hrow]
    simp only [hresolve]
    exact .inl ⟨trivial, fun _ h => by cases h⟩
  · have hresolve : s.resolveRefresh (L.hashToken refreshToken) now
        = (s.touch row.id now, some { row.toRefreshToken with lastSeen := now }) := by
      rw [AuthStore.resolveRefresh, hrow]
    rw [hresolve] at hseen hCt
    simp only [hresolve]
    rcases hrotate : (s.touch row.id now).rotateRefresh (L.hashToken refreshToken)
      (L.hashToken replacement) now L.refreshTtlSeconds with e | ⟨t, id⟩
    · exact .inl ⟨hseen, fun _ h => by cases h⟩
    · rcases grants_rotate hCt hrotate with ⟨hgrants, rfl⟩
        | ⟨i, rfl, r, hr, hlive, hselect, hgrants⟩
      · exact .inl ⟨hgrants.trans hseen, fun _ h => by cases h⟩
      · obtain ⟨r₀, hr₀, hlive₀, hhash, hfamily, hscope⟩ := live_of_touch hr hlive
        -- the row that was looked up is the one that is replaced
        obtain ⟨hmem, hrowhash, -⟩ := AuthStore.selectLive_eq_some.1 hrow
        obtain ⟨-, hrhash, -⟩ := AuthStore.selectLive_eq_some.1 hselect
        obtain rfl : r₀ = row :=
          AuthStore.eq_of_tokenHash hr₀ hmem (hhash.trans (hrhash.trans hrowhash.symm))
        refine .inr ⟨r₀, hr₀, hlive₀, i, ?_, rfl⟩
        rw [hgrants, hfamily, hscope]
        exact congrArg (· ++ _) hseen

end Rows

section Login

variable {G : TextGate} {s : LoginStore} {now : ℤ}

theorem evolves_logIn (G : TextGate) (s : LoginStore) (a : LoginCall) :
    Evolves a.now s.refreshTokens (a.result G s).1.refreshTokens := by
  rcases TextGate.logIn_cases G s a with ⟨h, -⟩ | ⟨label, tokens, id, hissue, h, -⟩ <;> rw [h]
  · exact evolves_refl _ _
  · refine ⟨[.issueRefresh (G.crypto.sha256Hex a.refresh) label a.scope G.refreshTtlSeconds], ?_⟩
    rw [Run.final_cons, Run.final_nil, AuthStore.call]
    simp only [hissue]

/-- The table that a renewal leaves is the one of its two calls. -/
theorem refreshTokens_fst (G : TextGate) (refreshToken replacement : String) (now : ℤ)
    (s : LoginStore) :
    (refreshTokens G refreshToken replacement now s).1.refreshTokens
      = (G.service.refresh s.refreshTokens refreshToken replacement now).1 := by
  unfold refreshTokens
  rcases G.service.refresh s.refreshTokens refreshToken replacement now
    with ⟨t, e | reason | tokens⟩
  · rfl
  · rfl
  · rcases encode G.adminUsername with e | admin <;> rfl

theorem evolves_refresh (G : TextGate) (refreshToken replacement : String) (now : ℤ)
    (s : LoginStore) : Evolves now s.refreshTokens
      (refreshTokens G refreshToken replacement now s).1.refreshTokens := by
  rw [refreshTokens_fst]
  unfold LoginService.refresh
  rcases hresolve : s.refreshTokens.resolveRefresh (G.service.hashToken refreshToken) now
    with ⟨t, _ | session⟩
  · simp only [hresolve]
    exact ⟨[.resolveRefresh (G.service.hashToken refreshToken)], congrArg Prod.fst hresolve⟩
  · refine ⟨[.resolveRefresh (G.service.hashToken refreshToken),
      .rotateRefresh (G.service.hashToken refreshToken) (G.service.hashToken replacement)
        G.service.refreshTtlSeconds], ?_⟩
    rw [Run.final_cons, Run.final_cons, Run.final_nil]
    simp only [AuthStore.call, hresolve]
    rcases t.rotateRefresh _ _ now _ with e | ⟨t', _ | id⟩ <;> rfl

theorem evolves_logOut (G : TextGate) (refreshToken : String) (now : ℤ) (s : LoginStore) :
    Evolves now s.refreshTokens (logOutTokens G refreshToken now s).1.refreshTokens := by
  have hfst : (logOutTokens G refreshToken now s).1.refreshTokens
      = (G.service.logOut s.refreshTokens refreshToken now).1 := by
    unfold logOutTokens
    rcases encode G.adminUsername with e | admin <;> rfl
  rw [hfst]
  unfold LoginService.logOut
  rcases hresolve : s.refreshTokens.resolveRefresh (G.service.hashToken refreshToken) now
    with ⟨t, _ | session⟩
  · exact ⟨[.resolveRefresh (G.service.hashToken refreshToken)], congrArg Prod.fst hresolve⟩
  · refine ⟨[.resolveRefresh (G.service.hashToken refreshToken), .revokeRefresh session.id], ?_⟩
    rw [Run.final_cons, Run.final_cons, Run.final_nil]
    simp only [AuthStore.call, hresolve]

theorem grants_logOut (G : TextGate) (refreshToken : String) (now : ℤ) (s : LoginStore) :
    grants (logOutTokens G refreshToken now s).1.refreshTokens = grants s.refreshTokens := by
  have hfst : (logOutTokens G refreshToken now s).1.refreshTokens
      = (G.service.logOut s.refreshTokens refreshToken now).1 := by
    unfold logOutTokens
    rcases encode G.adminUsername with e | admin <;> rfl
  rw [hfst]
  rcases LoginService.logOut_cases G.service s.refreshTokens refreshToken now
    with ⟨-, h⟩ | ⟨row, -, h⟩ <;> rw [h]
  exact (grants_revoked _ _ _).trans (grants_seen _ _ _)

/-- A renewal leaves what is granted as it is, or adds a row to the login of a live one; the access
token is the row's. -/
theorem grants_refresh (hC : Chained s.refreshTokens) (refreshToken replacement : String)
    (now : ℤ) :
    (grants (refreshTokens G refreshToken replacement now s).1.refreshTokens
          = grants s.refreshTokens
        ∧ ∀ tokens, (refreshTokens G refreshToken replacement now s).2 ≠ .ok (.ok tokens))
      ∨ ∃ g, g.issuedAt = now ∧ (∃ r ∈ s.refreshTokens.rows, r.Live now ∧ r.family = g.family
          ∧ r.scope = g.scope)
        ∧ grants (refreshTokens G refreshToken replacement now s).1.refreshTokens
          = grants s.refreshTokens ++ [g]
        ∧ ∀ tokens, (refreshTokens G refreshToken replacement now s).2 = .ok (.ok tokens) →
          tokens.access = g.claims G.accessTtlSeconds := by
  rw [refreshTokens_fst]
  have hrenew := grants_renew G.service hC refreshToken replacement now
  unfold refreshTokens
  rcases hr : G.service.refresh s.refreshTokens refreshToken replacement now
    with ⟨t, e | reason | tokens⟩
  all_goals rw [hr] at hrenew
  · rcases hrenew with ⟨hgrants, -⟩ | ⟨r, -, -, id, -, h⟩
    · exact .inl ⟨hgrants, fun _ h => by cases h⟩
    · cases h
  · rcases hrenew with ⟨hgrants, -⟩ | ⟨r, -, -, id, -, h⟩
    · exact .inl ⟨hgrants, fun _ h => by cases h⟩
    · cases h
  · rcases hrenew with ⟨-, h⟩ | ⟨r, hmem, hlive, id, hgrants, h⟩
    · exact absurd rfl (h tokens)
    · refine .inr ⟨_, rfl, ⟨r, hmem, hlive, rfl, rfl⟩, hgrants, fun tokens' htokens' => ?_⟩
      obtain rfl := Except.ok.inj (Except.ok.inj h)
      rcases hadmin : encode G.adminUsername with e | admin <;> rw [hadmin] at htokens'
      · cases htokens'
      · rw [← Except.ok.inj (Except.ok.inj htokens')]
        rfl

end Login

/-! ## One request -/

def HasTokens (tokens : AuthStore) (signed : List AccessClaims) (s : State σ) : Prop :=
  s.store.refreshTokens = tokens ∧ s.signed = signed

section Step

variable {s : State σ} {v : Visit κ} {tokens : AuthStore} {signed : List AccessClaims}

theorem frame_hasTokens (A : Service κ σ) (tokens : AuthStore) (signed : List AccessClaims) :
    Frame A (HasTokens tokens signed) where
  sessions _ _ h := h
  voices _ _ h := h
  audit _ _ _ h := h
  rack _ _ _ h := h
  credentials _ _ _ h := ⟨(TextGate.refreshTokens_checkCredentials ..).trans h.1, h.2⟩
  totp _ _ _ h := h

theorem preserves_sendMessage (c : Chance κ) (authorization : Str)
    (unit destination body : String) (sim : Option ℤ) :
    Preserves (HasTokens tokens signed) (requireScope A c authorization .control >>= fun _ =>
      sendMessage A c unit destination body sim : Handling σ Body) := by
  have haudit : Preserves (HasTokens tokens signed)
      (recordAudit c.afterwards "send_sms" "" unit ("to=" ++ destination) : Handling σ Unit) :=
    fun s hs => hs
  exact (preserves_requireScope _ _).bind fun _ => (preserves_requireEither unit [.sms]).bind
    fun _ => (preserves_withUnit fun s hs => hs).bind fun answer => haudit.bind fun _ =>
      (preserves_addSent (fun s _ hs => hs) unit destination body answer).bind fun _ =>
        Handler.preserves_pure _

/-- A request that neither logs in nor out nor renews has no effect on the tokens. -/
theorem hasTokens_step (s : State σ) (v : Visit κ)
    (h : v.1.endpoint.IsFramed ∨ ∃ unit destination body sim,
      v.1.endpoint = .sendMessage unit destination body sim) :
    HasTokens s.store.refreshTokens s.signed (step A s v) := by
  obtain ⟨⟨authorization, peer, forwardedFor, endpoint⟩, c⟩ := v
  rcases h with h | ⟨unit, destination, body, sim, rfl⟩
  · exact (frame_hasTokens A _ _).preserves_handle h s ⟨rfl, rfl⟩
  · exact preserves_sendMessage c authorization unit destination body sim s ⟨rfl, rfl⟩

/-- An administrator's endpoint that is turned away leaves the state, and else comes to its
body. -/
theorem requireScope_bind {α : Type} (A : Service κ σ) (c : Chance κ) (authorization : Str)
    (scope : Scope) (x : Handling σ α) (s : State σ) :
    ((requireScope A c authorization scope >>= fun _ => x) s).1 = s
      ∨ ((requireScope A c authorization scope >>= fun _ => x) s).1 = (x s).1 := by
  rcases requireScope_cases A c authorization scope s with ⟨h, -⟩ | ⟨e, -, h⟩
  · exact .inr (congrArg Prod.fst (Handler.bind_of_ok h))
  · exact .inl (congrArg Prod.fst (Handler.bind_of_error h))

/-- What becomes of the tokens in a login, by what `log_in` comes to. -/
theorem logIn_step (A : Service κ σ) (c : Chance κ) (r : Request) (body : LoginBody)
    (s : State σ) :
    HasTokens s.store.refreshTokens s.signed (logIn A c r body s).1
      ∨ (logIn A c r body s).1.store = (LoginCall.result A.gate s.store (loginCall A c r body)).1
        ∧ ((∃ outcome, (LoginCall.result A.gate s.store (loginCall A c r body)).2 = .ok outcome
            ∧ ∃ tokens access, outcome.tokens = some tokens
              ∧ (logIn A c r body s).2 = .ok (.tokens tokens access)
              ∧ (logIn A c r body s).1.signed = s.signed ++ [tokens.access])
          ∨ (logIn A c r body s).1.signed = s.signed
            ∧ ∀ outcome, (LoginCall.result A.gate s.store (loginCall A c r body)).2 = .ok outcome →
              outcome.tokens = none) := by
  unfold logIn
  split_ifs
  · exact .inl ⟨rfl, rfl⟩
  · refine .inr ?_
    rcases hresult : LoginCall.result A.gate s.store (loginCall A c r body)
      with ⟨store, e | outcome⟩
    · have hstore :=
        withStore_of_error (f := (LoginCall.result A.gate · (loginCall A c r body))) hresult
      rw [Handler.bind_of_error hstore]
      exact ⟨rfl, .inr ⟨rfl, fun _ h => by cases h⟩⟩
    · have hstore :=
        withStore_of_ok (f := (LoginCall.result A.gate · (loginCall A c r body))) hresult
      rw [Handler.bind_of_ok hstore]
      rcases htokens : outcome.tokens with _ | tokens
      · have hrefuse := preserves_refuseLogin (α := Body)
          (P := fun s' : State σ => s'.store = store ∧ s'.signed = s.signed) loginStatus c.inside
          outcome { s with store } ⟨rfl, rfl⟩
        exact ⟨hrefuse.1, .inr ⟨hrefuse.2, fun _ h => Except.ok.inj h ▸ htokens⟩⟩
      · exact ⟨rfl, .inl ⟨outcome, rfl, tokens, _, htokens, rfl, rfl⟩⟩

/-- What becomes of the tokens in a renewal. -/
theorem refresh_step (A : Service κ σ) (c : Chance κ) (refreshToken : String) (s : State σ) :
    (refresh A c refreshToken s).1.store
        = (refreshTokens A.gate refreshToken c.token c.now s.store).1
      ∧ ((refresh A c refreshToken s).1.signed = s.signed
        ∨ ∃ tokens, (refreshTokens A.gate refreshToken c.token c.now s.store).2 = .ok (.ok tokens)
          ∧ (refresh A c refreshToken s).1.signed = s.signed ++ [tokens.access]) := by
  unfold refresh
  rcases hresult : refreshTokens A.gate refreshToken c.token c.now s.store
    with ⟨store, e | reason | tokens⟩
  · rw [Handler.bind_of_error (withStore_of_error hresult)]
    exact ⟨rfl, .inl rfl⟩
  · rw [Handler.bind_of_ok (withStore_of_ok hresult)]
    exact ⟨rfl, .inl rfl⟩
  · rw [Handler.bind_of_ok (withStore_of_ok hresult)]
    exact ⟨rfl, .inr ⟨tokens, rfl, rfl⟩⟩

theorem logOut_step (A : Service κ σ) (c : Chance κ) (refreshToken : String) (s : State σ) :
    (logOut A c refreshToken s).1.store = (logOutTokens A.gate refreshToken c.now s.store).1
      ∧ (logOut A c refreshToken s).1.signed = s.signed := by
  unfold logOut
  rcases hresult : logOutTokens A.gate refreshToken c.now s.store with ⟨store, e | _⟩
  · rw [Handler.bind_of_error (withStore_of_error hresult)]
    exact ⟨rfl, rfl⟩
  · rw [Handler.bind_of_ok (withStore_of_ok hresult)]
    exact ⟨rfl, rfl⟩

/-- The calls that a request makes on the table of the tokens. -/
theorem evolves_step (A : Service κ σ) (s : State σ) (v : Visit κ) :
    ∃ t, v.2.now ≤ t ∧ t ≤ v.2.afterwards
      ∧ Evolves t s.store.refreshTokens (step A s v).store.refreshTokens := by
  have hinside : v.2.now ≤ v.2.inside := by simp [Chance.inside]
  have hafterwards : v.2.inside ≤ v.2.afterwards := by simp [Chance.inside, Chance.afterwards]
  have hnow := hinside.trans hafterwards
  obtain ⟨⟨authorization, peer, forwardedFor, endpoint⟩, c⟩ := v
  have hsame {s' : State σ} (h : HasTokens s.store.refreshTokens s.signed s') :
      ∃ t, c.now ≤ t ∧ t ≤ c.afterwards ∧ Evolves t s.store.refreshTokens s'.store.refreshTokens :=
    ⟨c.now, le_rfl, hnow, h.1 ▸ evolves_refl _ _⟩
  cases endpoint with
  | logIn body =>
    let r : Request := ⟨authorization, peer, forwardedFor, .logIn body⟩
    rcases logIn_step A c r body s with h | ⟨h, -⟩
    · exact hsame h
    · exact ⟨c.now, le_rfl, hnow, congrArg LoginStore.refreshTokens h ▸
        evolves_logIn A.gate s.store (loginCall A c r body)⟩
  | refresh refreshToken =>
    exact ⟨c.now, le_rfl, hnow,
      congrArg LoginStore.refreshTokens (refresh_step A c refreshToken s).1 ▸
        evolves_refresh A.gate refreshToken c.token c.now s.store⟩
  | logOut refreshToken =>
    exact ⟨c.now, le_rfl, hnow,
      congrArg LoginStore.refreshTokens (logOut_step A c refreshToken s).1 ▸
        evolves_logOut A.gate refreshToken c.now s.store⟩
  | revokeSession tokenId =>
    refine ⟨c.inside, hinside, hafterwards, ?_⟩
    rcases requireScope_bind A c authorization .admin (revokeSession c tokenId) s with h | h <;>
      rw [step, handle, h]
    · exact evolves_refl _ _
    · exact ⟨[.revokeRefresh tokenId.toNat], rfl⟩
  | revokeAllSessions =>
    refine ⟨c.inside, hinside, hafterwards, ?_⟩
    rcases requireScope_bind A c authorization .admin (revokeAllSessions c) s with h | h <;>
      rw [step, handle, h]
    · exact evolves_refl _ _
    · exact ⟨[.revokeAll], rfl⟩
  | sendMessage unit destination body sim =>
    exact hsame (hasTokens_step s _ (.inr ⟨unit, destination, body, sim, rfl⟩))
  | _ => exact hsame (hasTokens_step s _ (.inl trivial))

/-- A request grants nothing, or one row: to a login with the right credentials, or to the login of
a live row. No token is signed but for the row. -/
theorem grants_step (A : Service κ σ) {s : State σ} (hC : Chained s.store.refreshTokens)
    (v : Visit κ) :
    (grants (step A s v).store.refreshTokens = grants s.store.refreshTokens
        ∧ (step A s v).signed = s.signed)
      ∨ ∃ g, g.issuedAt = v.2.now
        ∧ (LetIn A s v g ∨ ∃ r ∈ s.store.refreshTokens.rows, r.Live v.2.now
          ∧ r.family = g.family ∧ r.scope = g.scope)
        ∧ grants (step A s v).store.refreshTokens = grants s.store.refreshTokens ++ [g]
        ∧ ((step A s v).signed = s.signed
          ∨ (step A s v).signed = s.signed ++ [g.claims A.gate.accessTtlSeconds]) := by
  obtain ⟨⟨authorization, peer, forwardedFor, endpoint⟩, c⟩ := v
  have hsame {s' : State σ} (h : HasTokens s.store.refreshTokens s.signed s') :
      grants s'.store.refreshTokens = grants s.store.refreshTokens ∧ s'.signed = s.signed :=
    ⟨congrArg grants h.1, h.2⟩
  cases endpoint with
  | logIn body =>
    rcases logIn_step A c ⟨authorization, peer, forwardedFor, .logIn body⟩ body s
      with h | ⟨hstore, h⟩
    · exact .inl (hsame h)
    rcases TextGate.logIn_cases A.gate s.store
        (loginCall A c ⟨authorization, peer, forwardedFor, .logIn body⟩ body)
      with ⟨htable, hnone⟩ | ⟨label, tokens, id, hissue, htable, hanswer, hright⟩
    · rcases h with ⟨outcome, houtcome, tokens, access, htokens, -⟩ | ⟨hsigned, -⟩
      · rw [hnone outcome houtcome] at htokens
        cases htokens
      · exact .inl ⟨congrArg grants ((congrArg LoginStore.refreshTokens hstore).trans htable),
          hsigned⟩
    · rcases h with ⟨outcome, houtcome, tokens', access, htokens, hbody, hsigned⟩ | ⟨-, hnone⟩
      · obtain rfl := Except.ok.inj (hanswer.symm.trans houtcome)
        obtain rfl := Option.some.inj htokens
        refine .inr ⟨⟨id, id, body.scope, c.now⟩, rfl,
          .inl ⟨rfl, rfl, ⟨body, rfl, rfl, hright⟩, _, access, hbody, rfl⟩, ?_, .inr hsigned⟩
        have htable' := (congrArg LoginStore.refreshTokens hstore).trans htable
        exact (congrArg grants htable').trans (grants_insert hissue)
      · cases hnone _ hanswer
  | refresh refreshToken =>
    obtain ⟨hstore, hsigned⟩ := refresh_step A c refreshToken s
    have htable := congrArg (fun store => grants store.refreshTokens) hstore
    rcases grants_refresh (G := A.gate) hC refreshToken c.token c.now
      with ⟨hgrants, hnone⟩ | ⟨g, hissued, hlive, hgrants, haccess⟩
    · refine .inl ⟨htable.trans hgrants, hsigned.resolve_right ?_⟩
      rintro ⟨tokens, h, -⟩
      exact hnone tokens h
    · refine .inr ⟨g, hissued, .inr hlive, htable.trans hgrants, hsigned.imp_right ?_⟩
      rintro ⟨tokens, h, hsigned⟩
      rw [← haccess tokens h]
      exact hsigned
  | logOut refreshToken =>
    obtain ⟨hstore, hsigned⟩ := logOut_step A c refreshToken s
    exact .inl ⟨(congrArg (fun store => grants store.refreshTokens) hstore).trans
      (grants_logOut ..), hsigned⟩
  | revokeSession tokenId =>
    left
    rcases requireScope_bind A c authorization .admin (revokeSession c tokenId) s with h | h <;>
      rw [step, handle, h]
    · exact ⟨rfl, rfl⟩
    · exact ⟨grants_revoked _ _ _, rfl⟩
  | revokeAllSessions =>
    left
    rcases requireScope_bind A c authorization .admin (revokeAllSessions c) s with h | h <;>
      rw [step, handle, h]
    · exact ⟨rfl, rfl⟩
    · exact ⟨grants_revoked _ _ _, rfl⟩
  | sendMessage unit destination body sim =>
    exact .inl (hsame (hasTokens_step s _ (.inr ⟨unit, destination, body, sim, rfl⟩)))
  | _ => exact .inl (hsame (hasTokens_step s _ (.inl trivial)))

end Step

/-! ## Runs -/

/-- What the tokens are in a state that requests have led to: each one that is signed is a row's. -/
structure Inv (A : Service κ σ) (s : State σ) : Prop where
  chained : Chained s.store.refreshTokens
  signed : ∀ claims ∈ s.signed, ∃ g ∈ grants s.store.refreshTokens,
    claims = g.claims A.gate.accessTtlSeconds

/-- Nobody has logged in yet. -/
def State.Fresh (s : State σ) : Prop := s.store.refreshTokens = .empty ∧ s.signed = []

section Run

variable {s s₀ : State σ}

theorem State.Fresh.grants (h : s₀.Fresh) : grants s₀.store.refreshTokens = [] := by
  rw [h.1]
  rfl

theorem inv_fresh (h : s₀.Fresh) : Inv A s₀ where
  chained := by
    rw [h.1]
    exact AuthStore.chained_empty
  signed claims hclaims := by
    rw [h.2] at hclaims
    cases hclaims

theorem inv_step (v : Visit κ) (h : Inv A s) : Inv A (step A s v) where
  chained := by
    obtain ⟨t, -, -, hevolves⟩ := evolves_step A s v
    exact hevolves.chained h.chained
  signed claims hclaims := by
    rcases grants_step A h.chained v with ⟨hgrants, hsigned⟩ | ⟨g, -, -, hgrants, hsigned⟩
    · rw [hsigned] at hclaims
      rw [hgrants]
      exact h.signed claims hclaims
    · rw [hgrants]
      have hold : claims ∈ s.signed → ∃ g' ∈ grants s.store.refreshTokens ++ [g],
          claims = g'.claims A.gate.accessTtlSeconds := fun hclaims => by
        obtain ⟨g', hg', heq⟩ := h.signed claims hclaims
        exact ⟨g', List.mem_append_left _ hg', heq⟩
      rcases hsigned with hsigned | hsigned <;> rw [hsigned] at hclaims
      · exact hold hclaims
      · rcases List.mem_append.1 hclaims with hclaims | hclaims
        · exact hold hclaims
        · exact ⟨g, by simp, List.mem_singleton.1 hclaims⟩

theorem inv_final (h : s₀.Fresh) (as : List (Visit κ)) : Inv A (Run.final (step A) s₀ as) :=
  Run.final_of_invariant (I := Inv A) (fun _ v h => inv_step v h) as (inv_fresh h)

/-- Every row goes back to a login of the run, of its scope. -/
theorem exists_login (h : s₀.Fresh) (as : List (Visit κ)) {g : Grant}
    (hg : g ∈ grants (Run.final (step A) s₀ as).store.refreshTokens) :
    ∃ pre v post, as = pre ++ v :: post
      ∧ ∃ g₀, LetIn A (Run.final (step A) s₀ pre) v g₀ ∧ g₀.family = g.family
        ∧ g₀.scope = g.scope := by
  let P (s : State σ) := ∃ g' ∈ grants s.store.refreshTokens,
    g'.family = g.family ∧ g'.scope = g.scope
  refine Run.exists_origin P
    (fun s v => ∃ g₀, LetIn A s v g₀ ∧ g₀.family = g.family ∧ g₀.scope = g.scope)
    (fun _ v h => inv_step (A := A) v h) (fun s v hInv hs hstep => ?_) as (inv_fresh h) ?_
    ⟨g, hg, rfl, rfl⟩
  · obtain ⟨g', hg', hfamily, hscope⟩ := hstep
    rcases grants_step A hInv.chained v with ⟨hgrants, -⟩ | ⟨new, -, horigin, hgrants, -⟩
    · rw [hgrants] at hg'
      exact absurd ⟨g', hg', hfamily, hscope⟩ hs
    · rw [hgrants] at hg'
      rcases List.mem_append.1 hg' with hg' | hg'
      · exact absurd ⟨g', hg', hfamily, hscope⟩ hs
      · obtain rfl := List.mem_singleton.1 hg'
        rcases horigin with hlogin | ⟨r, hr, -, hrf, hrs⟩
        · exact ⟨g', hlogin, hfamily, hscope⟩
        · exact absurd ⟨grantOf r, List.mem_map_of_mem hr, hrf.trans hfamily, hrs.trans hscope⟩ hs
  · rintro ⟨g', hg', -⟩
    rw [h.grants] at hg'
    cases hg'

end Run

end Api

end Rackphone
