import Rackphone.LoginText
import Rackphone.Proofs.Lockout

/-!
# When a refused login is counted

Nothing that a verifier raises leaves it, so a call raises only where it compares the names, hashes
the recovery code or binds a text. A failure is recorded under a name that is ASCII by then, and
neither lock it may set touches the attempts or the audit log.
-/

namespace Rackphone

open Json (codes IsText)

theorem encode_of_isText {s : Str} (h : IsText s) : ∃ t, encode s = .ok t := by
  obtain ⟨t, ht⟩ := Option.isSome_iff_exists.1 (Json.isSome_text.2 h)
  exact ⟨String.ofList t, by rw [encode, ht]⟩

theorem encode_of_not_isText {s : Str} (h : ¬ IsText s) : encode s = .error .encode := by
  have hnone : Json.text s = none := Option.not_isSome_iff_eq_none.1 fun hs =>
    h (Json.isSome_text.1 hs)
  rw [encode, hnone]

theorem IsAscii.isText {s : Str} (h : IsAscii s) : IsText s := fun u hu => by
  have := h u hu
  exact .inl (by omega)

theorem compareDigest_ascii {a b : Str} (ha : IsAscii a) (hb : IsAscii b) :
    compareDigest a b = .ok (decide (a = b)) := if_pos ⟨ha, hb⟩

namespace TextGate

variable {G : TextGate} {s : LoginStore}

theorem lockAt_tables (s : LoginStore) (subject : String) (failures threshold : ℕ) (now : ℤ)
    (ladder : List ℤ) :
    (Gate.lockAt s subject failures threshold now ladder).1.attempts = s.attempts
      ∧ (Gate.lockAt s subject failures threshold now ladder).1.audit = s.audit := by
  unfold Gate.lockAt
  split_ifs
  · exact ⟨rfl, rfl⟩
  · exact ⟨rfl, rfl⟩

theorem account_ok (ha : IsAscii G.adminUsername) (named : Bool) (byIp : LoginStore × List String)
    (now : ℤ) :
    ∃ byAccount, (if named then
          (encode G.adminUsername).map fun admin => accountLock byIp.1 admin now
        else .ok (byIp.1, [])) = .ok byAccount
      ∧ byAccount.1.attempts = byIp.1.attempts ∧ byAccount.1.audit = byIp.1.audit := by
  obtain ⟨admin, hadmin⟩ := encode_of_isText ha.isText
  rw [hadmin]
  cases named with
  | false => exact ⟨_, rfl, rfl, rfl⟩
  | true => exact ⟨_, rfl, lockAt_tables byIp.1 (accountSubject admin) _ _ now LOCKOUT_LADDER⟩

/-- A failure under an ASCII name is one row in each table. -/
theorem recordFailure_ascii {username : Str} (hu : IsAscii username)
    (ha : IsAscii G.adminUsername) (ip : String) (now : ℤ) (reason : RefusalReason) :
    ∃ s' attempt entry, G.recordFailure s username ip now reason = (s', .ok (refuse reason none))
      ∧ s'.attempts = s.attempts ++ [attempt] ∧ s'.audit = s.audit ++ [entry]
      ∧ attempt.ok = false ∧ entry.action = "login_failed" := by
  obtain ⟨name, hname⟩ := encode_of_isText hu.isText
  let byIp := addressLock (s.recordAttempt ip name false now) ip now
  have hip : byIp.1.attempts = s.attempts ++ [⟨now, ip, name, false⟩] ∧ byIp.1.audit = s.audit :=
    lockAt_tables (s.recordAttempt ip name false now) (ipSubject ip) _ _ now IP_LADDER
  obtain ⟨byAccount, haccount, hattempts, haudit⟩ :=
    account_ok ha (decide (username = G.adminUsername)) byIp now
  let entry := failedEntry name ip now reason (byIp.2 ++ byAccount.2)
  refine ⟨byAccount.1.recordAudit entry, ⟨now, ip, name, false⟩, entry, ?_, hattempts.trans hip.1,
    congrArg (· ++ [entry]) (haudit.trans hip.2), rfl, rfl⟩
  simp only [recordFailure, hname, compareDigest_ascii hu ha]
  rw [haccount]

theorem hashToken_of_encode {code : Str} {t : String} (h : encode code = .ok t) :
    G.crypto.hashToken code = .ok (G.crypto.sha256Hex t) := by
  rw [Crypto.hashToken, h]
  rfl

theorem hashToken_of_not_isText {code : Str} (h : ¬ IsText code) :
    G.crypto.hashToken code = .error .encode := by
  rw [Crypto.hashToken, encode_of_not_isText h]
  rfl

theorem consumeRecoveryCode_snd {codeHash : String} {now : ℤ} :
    (s.consumeRecoveryCode codeHash now).2 = true ↔ s.recoveryCodes.get codeHash = some none := by
  unfold LoginStore.consumeRecoveryCode
  rcases s.recoveryCodes.get codeHash with _ | _ | _ <;> simp

theorem refreshTokens_consumeRecoveryCode (s : LoginStore) (codeHash : String) (now : ℤ) :
    (s.consumeRecoveryCode codeHash now).1.refreshTokens = s.refreshTokens := by
  unfold LoginStore.consumeRecoveryCode
  rcases s.recoveryCodes.get codeHash with _ | _ | _ <;> rfl

@[simp] theorem refreshTokens_recordAttempt (s : LoginStore) (ip username : String) (ok : Bool)
    (now : ℤ) : (s.recordAttempt ip username ok now).refreshTokens = s.refreshTokens := rfl

@[simp] theorem refreshTokens_clearLock (s : LoginStore) (subject : String) :
    (s.clearLock subject).refreshTokens = s.refreshTokens := rfl

/-- A device is let in, with its tokens, where its label can be bound and its token is new. -/
theorem letIn_ok {username : Str} (hu : IsAscii username) (ha : IsAscii G.adminUsername)
    (ip : String) {label : Str} (hlabel : IsText label) (scope : String) {refresh : String}
    (hnew : G.crypto.sha256Hex refresh ∉ s.refreshTokens.hashes) (now : ℤ) :
    ∃ outcome, (G.letIn s username ip label scope refresh now).2 = .ok outcome
      ∧ outcome.tokens ≠ none := by
  obtain ⟨name, hname⟩ := encode_of_isText hu.isText
  obtain ⟨admin, hadmin⟩ := encode_of_isText ha.isText
  obtain ⟨l, hl⟩ := encode_of_isText hlabel
  have hissue : ∃ out, s.refreshTokens.issueRefresh (G.crypto.sha256Hex refresh) l scope now
      G.refreshTtlSeconds = .ok out := ⟨_, dif_neg hnew⟩
  obtain ⟨⟨refreshTokens, refreshId⟩, hissue⟩ := hissue
  refine ⟨⟨some (G.service.tokens refresh refreshId scope now), none, none⟩, ?_, by simp⟩
  simp only [letIn, hname, hadmin, hl, refreshTokens_clearLock, refreshTokens_recordAttempt, hissue]

theorem letIn_error {username : Str} (hu : IsAscii username) (ha : IsAscii G.adminUsername)
    (ip : String) {label : Str} (scope : String) {refresh : String}
    (h : ¬ (IsText label ∧ G.crypto.sha256Hex refresh ∉ s.refreshTokens.hashes)) (now : ℤ) :
    ∃ e, (G.letIn s username ip label scope refresh now).2 = .error e := by
  obtain ⟨name, hname⟩ := encode_of_isText hu.isText
  obtain ⟨admin, hadmin⟩ := encode_of_isText ha.isText
  unfold letIn
  by_cases hlabel : IsText label
  · obtain ⟨l, hl⟩ := encode_of_isText hlabel
    have htaken : G.crypto.sha256Hex refresh ∈ s.refreshTokens.hashes :=
      not_not.1 fun hn => h ⟨hlabel, hn⟩
    have hissue : s.refreshTokens.issueRefresh (G.crypto.sha256Hex refresh) l scope now
        G.refreshTtlSeconds = .error .unique := dif_pos htaken
    simp only [hname, hadmin, hl, refreshTokens_clearLock, refreshTokens_recordAttempt, hissue]
    exact ⟨_, rfl⟩
  · simp only [hname, hadmin, encode_of_not_isText hlabel]
    exact ⟨_, rfl⟩

/-! ## Credentials that are text -/

theorem encode_codes (t : String) : encode (codes t.toList) = .ok t := by
  rw [encode, Json.text_codes]
  simp

theorem codes_inj {t t' : String} : codes t.toList = codes t'.toList ↔ t = t' :=
  Json.codes_toList_injective.eq_iff

theorem checkSecondFactor_gate (admin : String) (c : Credentials) (now : ℤ) :
    G.checkSecondFactor s c.presented now = (((G.gate admin).checkSecondFactor s c now).1,
      .ok ((G.gate admin).checkSecondFactor s c now).2) := by
  have hhash : ∀ code : String, G.crypto.hashToken (codes code.toList)
      = .ok (G.crypto.sha256Hex code) := fun code => hashToken_of_encode (encode_codes code)
  obtain ⟨username, password, ip, totpCode, recoveryCode⟩ := c
  unfold checkSecondFactor Gate.checkSecondFactor
  rcases s.totpSecret with _ | secret
  · rfl
  rcases totpCode with _ | code
  · rcases recoveryCode with _ | recovery
    · rfl
    · simp only [Credentials.presented, Option.map_none, Option.map_some, useRecoveryCode, hhash]
      rfl
  · rcases hverify : G.crypto.verifyTotp secret (codes code.toList) now with _ | _
    · have hgate : (G.gate admin).verifyTotp secret code now = false := hverify
      rcases recoveryCode with _ | recovery
      · simp [Credentials.presented, hverify, hgate]
      · simp only [Credentials.presented, Option.map_some, Option.any_some, hverify, hgate,
          useRecoveryCode, hhash]
        rfl
    · have hgate : (G.gate admin).verifyTotp secret code now = true := hverify
      rcases recoveryCode with _ | recovery <;> simp [Credentials.presented, hverify, hgate]

section Gate

variable {admin : String} (hadmin : G.adminUsername = codes admin.toList)
  (ha : IsAscii (codes admin.toList))

include hadmin

theorem lockedUntil_gate (ip : String) (now : ℤ) :
    G.lockedUntil s ip now = .ok ((G.gate admin).lockedUntil s ip now) := by
  rw [TextGate.lockedUntil, hadmin, encode_codes]
  rfl

include ha

theorem recordFailure_gate {username : String} (hu : IsAscii (codes username.toList)) (ip : String)
    (now : ℤ) (reason : RefusalReason) :
    G.recordFailure s (codes username.toList) ip now reason
      = ((G.gate admin).recordFailure s username ip now reason, .ok (refuse reason none)) := by
  unfold recordFailure Gate.recordFailure
  rw [hadmin]
  simp only [encode_codes, compareDigest_ascii hu ha, codes_inj, decide_eq_true_eq]
  have hgate : (G.gate admin).adminUsername = admin := rfl
  by_cases hname : username = admin
  · subst hname
    simp only [hgate, if_true, Except.map]
    rfl
  · simp only [hgate, if_neg hname]
    rfl

theorem checkCredentials_gate {c : Credentials} (hu : IsAscii (codes c.username.toList)) (now : ℤ) :
    G.checkCredentials s c.presented now = (((G.gate admin).checkCredentials s c now).1,
      .ok ((G.gate admin).checkCredentials s c now).2) := by
  have hconfigured : (G.gate admin).isConfigured = decide G.IsConfigured := rfl
  unfold checkCredentials Gate.checkCredentials
  by_cases hG : G.IsConfigured
  swap
  · simp [hconfigured, hG]
  have hlock : G.lockedUntil s c.presented.ip now = .ok ((G.gate admin).lockedUntil s c.ip now) :=
    lockedUntil_gate hadmin c.ip now
  simp only [hG, hconfigured, not_true_eq_false, if_false, hlock, decide_true, Bool.not_true,
    Bool.false_eq_true]
  rcases (G.gate admin).lockedUntil s c.ip now with _ | u
  swap
  · rfl
  have hcompare : compareDigest c.presented.username G.adminUsername
      = .ok (decide (c.username = admin)) := by
    rw [hadmin, ← decide_eq_decide.2 codes_inj]
    exact compareDigest_ascii hu ha
  have hgate : (G.gate admin).adminUsername = admin := rfl
  have hverify : (G.gate admin).verifyPassword c.password
      = G.crypto.verifyPassword c.presented.password G.passwordHash := rfl
  simp only [hcompare, decide_eq_true_eq, hgate, hverify, Bool.not_eq_true]
  split_ifs with hwrong
  · have hfail := recordFailure_gate (s := s) hadmin ha hu c.ip now .badCredentials
    simp only [Credentials.presented, hfail]
    rfl
  · rw [checkSecondFactor_gate admin c now]
    rcases (G.gate admin).checkSecondFactor s c now with ⟨s', _ | reason⟩
    · rfl
    · have hfail := recordFailure_gate (s := s') hadmin ha hu c.ip now reason
      simp only [settle, Credentials.presented, hfail]
      rfl

/-- Where the names are ASCII and the credentials text, nothing raises but the token's insert, and
the gate is the one of `Lockout`. -/
theorem logIn_gate {c : Credentials} (hu : IsAscii (codes c.username.toList)) (label scope : String)
    (refresh : String) (now : ℤ) :
    G.logIn s c.presented (codes label.toList) scope refresh now
      = (((G.gate admin).logIn s c label scope refresh now).1,
        ((G.gate admin).logIn s c label scope refresh now).2.mapError .integrity) := by
  unfold logIn Gate.logIn
  rw [checkCredentials_gate hadmin ha hu]
  rcases (G.gate admin).checkCredentials s c now with ⟨s', _ | refusal⟩
  swap
  · rfl
  have hencode : encode c.presented.username = .ok c.username := encode_codes c.username
  have hsuccess : ((s'.recordAttempt c.presented.ip c.username true now).clearLock
      (ipSubject c.presented.ip)).clearLock (accountSubject admin)
        = (G.gate admin).recordSuccess s' c.username c.ip now := rfl
  have hissue : ∀ t : AuthStore, t.issueRefresh ((G.gate admin).hashToken refresh) label scope now
      (G.gate admin).refreshTtlSeconds
        = t.issueRefresh (G.crypto.sha256Hex refresh) label scope now G.refreshTtlSeconds :=
    fun _ => rfl
  simp only [letIn, hencode, hadmin, encode_codes, hsuccess, hissue]
  rcases ((G.gate admin).recordSuccess s' c.username c.ip now).refreshTokens.issueRefresh
    (G.crypto.sha256Hex refresh) label scope now G.refreshTtlSeconds with e | ⟨t, refreshId⟩
  · rfl
  · rfl

end Gate

end TextGate

namespace LoginCall

open TextGate

variable {G : TextGate} {s : LoginStore} {a : LoginCall}

/-- The recovery code that is looked up, if the call gets so far. -/
theorem checkSecondFactor_recovery {secret : String} {code : Str}
    (hsecret : s.totpSecret = some secret) (htotp : ¬ a.TotpHolds G secret)
    (hrecovery : a.presented.recoveryCode = some code) :
    G.checkSecondFactor s a.presented a.now = G.useRecoveryCode s code a.now := by
  have hany : (a.presented.totpCode.any fun code => G.crypto.verifyTotp secret code a.now)
      = false := by
    rw [← Bool.not_eq_true, Option.any_eq_true]
    exact htotp
  unfold checkSecondFactor
  rw [hsecret]
  rcases htotpCode : a.presented.totpCode with _ | totpCode
  · simp [hrecovery]
  · rw [htotpCode] at hany
    simp [hrecovery, hany]

/-- What becomes of the second factor, with what each outcome says of the codes presented. -/
theorem secondFactor_cases (G : TextGate) (s : LoginStore) (a : LoginCall) :
    (∃ s', G.checkSecondFactor s a.presented a.now = (s', .ok none)
        ∧ s'.refreshTokens = s.refreshTokens
        ∧ ∀ secret, s.totpSecret = some secret → a.TotpHolds G secret ∨ a.RecoveryHolds G s
          ∧ ∀ code, a.presented.recoveryCode = some code → IsText code)
      ∨ (∃ reason, G.checkSecondFactor s a.presented a.now = (s, .ok (some reason))
        ∧ (∃ secret, s.totpSecret = some secret ∧ ¬ a.TotpHolds G secret ∧ ¬ a.RecoveryHolds G s)
        ∧ ∀ code, a.presented.recoveryCode = some code → IsText code)
      ∨ ∃ e, (G.checkSecondFactor s a.presented a.now).2 = .error e
        ∧ ∃ secret code, s.totpSecret = some secret ∧ ¬ a.TotpHolds G secret
          ∧ a.presented.recoveryCode = some code ∧ ¬ IsText code := by
  rcases hsecret : s.totpSecret with _ | secret
  · exact .inl ⟨s, by rw [checkSecondFactor, hsecret], rfl, by simp⟩
  by_cases htotp : a.TotpHolds G secret
  · refine .inl ⟨s, ?_, rfl, fun secret' hs => .inl (Option.some.inj hs ▸ htotp)⟩
    obtain ⟨code, hcode, hverified⟩ := htotp
    unfold checkSecondFactor
    rw [hsecret, show a.presented.totpCode = some code from hcode]
    simp [hverified]
  rcases hrecovery : a.presented.recoveryCode with _ | code
  · have hnone : ¬ a.RecoveryHolds G s := by
      rintro ⟨code, hcode, -⟩
      rw [hrecovery] at hcode
      cases hcode
    have hreason : ∃ reason, G.checkSecondFactor s a.presented a.now = (s, .ok (some reason)) := by
      unfold checkSecondFactor
      rw [hsecret, hrecovery]
      rcases htotpCode : a.presented.totpCode with _ | totpCode
      · exact ⟨.totpRequired, rfl⟩
      · have hfails : G.crypto.verifyTotp secret totpCode a.now = false :=
          Bool.eq_false_iff.2 fun h => htotp ⟨totpCode, htotpCode, h⟩
        exact ⟨.badTotp, by simp [hfails]⟩
    obtain ⟨reason, hreason⟩ := hreason
    exact .inr (.inl ⟨reason, hreason, ⟨secret, rfl, htotp, hnone⟩, by simp⟩)
  by_cases htext : IsText code
  · obtain ⟨text, hencode⟩ := encode_of_isText htext
    have hcheck := checkSecondFactor_recovery hsecret htotp hrecovery
    simp only [useRecoveryCode, hashToken_of_encode hencode] at hcheck
    have hcodes : ∀ code', some code = some code' → IsText code' := by
      rintro _ ⟨⟩
      exact htext
    have hholds : (s.consumeRecoveryCode (G.crypto.sha256Hex text) a.now).2 = true
        ↔ a.RecoveryHolds G s := by
      rw [consumeRecoveryCode_snd]
      constructor
      · exact fun h => ⟨code, hrecovery, text, hencode, h⟩
      · rintro ⟨code', hcode', text', hencode', h⟩
        obtain rfl := Option.some.inj (hrecovery.symm.trans hcode')
        obtain rfl := Except.ok.inj (hencode.symm.trans hencode')
        exact h
    rcases hconsumed : (s.consumeRecoveryCode (G.crypto.sha256Hex text) a.now).2 with _ | _
    · refine .inr (.inl ⟨.badTotp, ?_, ⟨secret, rfl, htotp, ?_⟩, hcodes⟩)
      · rw [hcheck]
        simp only [hconsumed, LoginStore.consumeRecoveryCode_false hconsumed]
        rfl
      · rw [← hholds, hconsumed]
        simp
    · refine .inl ⟨_, ?_, refreshTokens_consumeRecoveryCode s (G.crypto.sha256Hex text) a.now,
        fun _ _ => .inr ⟨hholds.1 hconsumed, hcodes⟩⟩
      rw [hcheck]
      simp only [hconsumed]
      rfl
  · refine .inr (.inr ⟨.text .encode, ?_, secret, code, rfl, htotp, rfl, htext⟩)
    simp only [checkSecondFactor_recovery hsecret htotp hrecovery, useRecoveryCode,
      hashToken_of_not_isText htext]

theorem not_counted {e : LoginError} (h : (a.result G s).2 = .error e) : ¬ a.Counted G s := by
  rintro ⟨outcome, hok, -⟩
  rw [h] at hok
  cases hok

/-- A refusal that was recorded is counted. -/
theorem counted_of_recorded {username : Str} (hu : IsAscii username)
    (ha : IsAscii G.adminUsername) {ip : String} {now : ℤ} {reason : RefusalReason}
    (h : a.result G s = G.recordFailure s username ip now reason) : a.Counted G s := by
  obtain ⟨s', attempt, entry, hfail, hattempts, haudit, hok, haction⟩ :=
    recordFailure_ascii (s := s) hu ha ip now reason
  have hresult := h.trans hfail
  refine ⟨refuse reason none, by rw [hresult], fun _ _ => ⟨attempt, entry, ?_, ?_, hok, haction⟩⟩
  · rw [step, hresult, hattempts]
  · rw [step, hresult, haudit]

theorem unlocked_cases (hadmin : IsText G.adminUsername) :
    (∃ u, G.lockedUntil s a.presented.ip a.now = .ok (some u)) ∨ a.Unlocked G s := by
  obtain ⟨admin, hencode⟩ := encode_of_isText hadmin
  have hlock : ∃ l, G.lockedUntil s a.presented.ip a.now = .ok l := by
    rw [TextGate.lockedUntil, hencode]
    exact ⟨_, rfl⟩
  obtain ⟨_ | u, hl⟩ := hlock
  · exact .inr hl
  · exact .inl ⟨u, hl⟩

section Configured

variable (hG : G.IsConfigured)

include hG

theorem result_admin (hadmin : ¬ IsText G.adminUsername) :
    (a.result G s).2 = .error (.text .encode) := by
  have hlock : G.lockedUntil s a.presented.ip a.now = .error .encode := by
    rw [TextGate.lockedUntil, encode_of_not_isText hadmin]
    rfl
  simp only [result, logIn, checkCredentials, hG, not_true_eq_false, if_false, hlock]

theorem result_locked {u : ℤ} (h : G.lockedUntil s a.presented.ip a.now = .ok (some u)) :
    a.result G s = (s, .ok (refuse .locked (some u))) := by
  simp only [result, logIn, checkCredentials, hG, not_true_eq_false, if_false, h]

theorem result_names (hunlocked : a.Unlocked G s)
    (h : ¬ (IsAscii a.presented.username ∧ IsAscii G.adminUsername)) :
    (a.result G s).2 = .error (.text .typeError) := by
  simp only [result, logIn, checkCredentials, hG, not_true_eq_false, if_false,
    show G.lockedUntil s a.presented.ip a.now = .ok none from hunlocked, compareDigest, if_neg h]

section Compared

variable (hunlocked : a.Unlocked G s) (hu : IsAscii a.presented.username)
  (ha : IsAscii G.adminUsername)

include hunlocked hu ha

theorem result_wrong (h : ¬ a.NamesAdmin G) :
    a.result G s = G.recordFailure s a.presented.username a.presented.ip a.now .badCredentials := by
  have hlock : G.lockedUntil s a.presented.ip a.now = .ok none := hunlocked
  obtain ⟨s', -, -, hfail, -⟩ :=
    recordFailure_ascii (s := s) hu ha a.presented.ip a.now .badCredentials
  have hwrong : ¬ decide (a.presented.username = G.adminUsername) = true
      ∨ ¬ G.crypto.verifyPassword a.presented.password G.passwordHash = true := by
    rw [decide_eq_true_iff]
    exact not_and_or.1 h
  simp only [result, logIn, checkCredentials, hG, not_true_eq_false, if_false, hlock,
    compareDigest_ascii hu ha, if_pos hwrong, hfail, Except.map]

theorem checkCredentials_right (h : a.NamesAdmin G) :
    G.checkCredentials s a.presented a.now
      = G.settle a.presented a.now (G.checkSecondFactor s a.presented a.now) := by
  have hlock : G.lockedUntil s a.presented.ip a.now = .ok none := hunlocked
  have hright : ¬ (¬ decide (a.presented.username = G.adminUsername) = true
      ∨ ¬ G.crypto.verifyPassword a.presented.password G.passwordHash = true) := by
    rw [decide_eq_true_iff, not_or, not_not, not_not]
    exact h
  simp only [checkCredentials, hG, not_true_eq_false, if_false, hlock,
    compareDigest_ascii hu ha, if_neg hright]

theorem result_admitted (h : a.NamesAdmin G) {s' : LoginStore}
    (hsecond : G.checkSecondFactor s a.presented a.now = (s', .ok none)) :
    a.result G s
      = G.letIn s' a.presented.username a.presented.ip a.deviceLabel a.scope a.refresh a.now := by
  rw [result, logIn, checkCredentials_right hG hunlocked hu ha h, hsecond, settle]

theorem result_refused (h : a.NamesAdmin G) {reason : RefusalReason}
    (hsecond : G.checkSecondFactor s a.presented a.now = (s, .ok (some reason))) :
    a.result G s = G.recordFailure s a.presented.username a.presented.ip a.now reason := by
  obtain ⟨s', -, -, hfail, -⟩ := recordFailure_ascii (s := s) hu ha a.presented.ip a.now reason
  rw [result, logIn, checkCredentials_right hG hunlocked hu ha h, hsecond]
  simp only [settle, hfail, Except.map]

theorem result_raised (h : a.NamesAdmin G) {e : LoginError}
    (hsecond : (G.checkSecondFactor s a.presented a.now).2 = .error e) :
    (a.result G s).2 = .error e := by
  rw [result, logIn, checkCredentials_right hG hunlocked hu ha h]
  rcases hc : G.checkSecondFactor s a.presented a.now with ⟨s', r⟩
  rw [hc] at hsecond
  obtain rfl : r = .error e := hsecond
  rfl

/-- A call with the administrator's name and password, by what becomes of the second factor. -/
theorem counted_iff_second (h : a.NamesAdmin G) : a.Counted G s ↔ a.Plain G s := by
  rcases secondFactor_cases G s a with ⟨s', hsecond, hrefresh, hcodes⟩
    | ⟨reason, hsecond, ⟨secret, hsecret, htotp, hrecovery⟩, hcodes⟩
    | ⟨e, hsecond, secret, code, hsecret, htotp, hcode, htext⟩
  · -- every factor holds: the call raises where the device cannot be let in
    have hresult := result_admitted hG hunlocked hu ha h hsecond
    by_cases hdevice : IsText a.deviceLabel
        ∧ G.crypto.sha256Hex a.refresh ∉ s.refreshTokens.hashes
    · obtain ⟨outcome, hok, htokens⟩ := letIn_ok (s := s') hu ha a.presented.ip hdevice.1
        a.scope (by rw [hrefresh]; exact hdevice.2) a.now
      refine iff_of_true ⟨outcome, by rw [hresult, hok], fun hn => absurd hn htokens⟩ ?_
      refine ⟨ha.isText, fun _ => ⟨hu, ha⟩, fun _ _ secret hs htotp => ?_, fun _ _ _ => hdevice⟩
      exact ((hcodes secret hs).resolve_left htotp).2
    · have hraises := hdevice
      rw [← hrefresh] at hraises
      obtain ⟨e, he⟩ := letIn_error hu ha a.presented.ip a.scope hraises a.now
      refine iff_of_false (not_counted (hresult ▸ he)) fun hplain => hdevice ?_
      exact hplain.device hunlocked h fun secret hs => (hcodes secret hs).imp_right And.left
  · -- the failure is recorded
    refine iff_of_true (counted_of_recorded hu ha
      (result_refused hG hunlocked hu ha h hsecond)) ?_
    refine ⟨ha.isText, fun _ => ⟨hu, ha⟩, fun _ _ _ _ _ => hcodes, fun _ _ hholds => ?_⟩
    exact absurd (hholds secret hsecret) (not_or.2 ⟨htotp, hrecovery⟩)
  · refine iff_of_false (not_counted (result_raised hG hunlocked hu ha h hsecond)) fun hplain => ?_
    exact htext (hplain.recovery hunlocked h secret hsecret htotp code hcode)

end Compared

/-- A call is counted exactly when every text it comes to is one it can take. -/
theorem counted_iff_plain : a.Counted G s ↔ a.Plain G s := by
  by_cases hadmin : IsText G.adminUsername
  swap
  · exact iff_of_false (not_counted (result_admin hG hadmin)) fun h => hadmin h.admin
  rcases unlocked_cases hadmin with ⟨u, hlocked⟩ | hunlocked
  · have hno : ¬ a.Unlocked G s := by
      intro h
      rw [Unlocked, hlocked] at h
      cases h
    refine iff_of_true ⟨_, by rw [result_locked hG hlocked], fun _ h => absurd rfl h⟩ ?_
    exact ⟨hadmin, fun h => absurd h hno, fun h => absurd h hno, fun h => absurd h hno⟩
  by_cases hnames : IsAscii a.presented.username ∧ IsAscii G.adminUsername
  swap
  · exact iff_of_false (not_counted (result_names hG hunlocked hnames)) fun h =>
      hnames (h.names hunlocked)
  obtain ⟨hu, ha⟩ := hnames
  by_cases hright : a.NamesAdmin G
  · exact counted_iff_second hG hunlocked hu ha hright
  · refine iff_of_true (counted_of_recorded hu ha (result_wrong hG hunlocked hu ha hright)) ?_
    exact ⟨hadmin, fun _ => ⟨hu, ha⟩, fun _ h => absurd h hright, fun _ h => absurd h hright⟩

/-- The runs in which every call is counted: those whose calls are all plain. -/
theorem always_counted_iff (s : LoginStore) (as : List LoginCall) :
    Run.Meets (step G) (fun s a => a.Counted G s) s as
      ↔ Run.Meets (step G) (fun s a => a.Plain G s) s as :=
  Run.meets_congr (I := fun _ => True) (fun _ _ _ => trivial)
    (fun _ _ _ => counted_iff_plain hG) as trivial

end Configured

/-- An administrator whose password nobody has. -/
def lockedOutAdmin : TextGate where
  crypto := ⟨fun _ => none, fun _ => none, fun _ => none, fun _ _ _ _ _ _ => none, fun _ _ => [],
    id⟩
  adminUsername := codes "admin".toList
  passwordHash := codes "unset".toList
  accessTtlSeconds := 600
  refreshTtlSeconds := 86400

def emptyStore : LoginStore := ⟨[], .empty, none, .empty, .empty, []⟩

/-- A guess under a name. -/
def guessAs (username : Str) (now : ℤ) : LoginCall where
  presented := ⟨username, codes "hunter2".toList, "203.0.113.9", none, none⟩
  deviceLabel := codes "phone".toList
  scope := "control"
  refresh := "token"
  now := now

theorem guesses_counted : Run.Meets (step lockedOutAdmin) (fun s a => a.Counted lockedOutAdmin s)
    emptyStore [guessAs (codes "admin".toList) 1700000000] := by
  have hwrong : ¬ (guessAs (codes "admin".toList) 1700000000).NamesAdmin lockedOutAdmin := by
    intro h
    exact absurd h.2 (by decide +kernel)
  refine (always_counted_iff (by decide) emptyStore _).2 ⟨?_, trivial⟩
  exact ⟨by decide +kernel, fun _ => ⟨by decide +kernel, by decide +kernel⟩,
    fun _ h => absurd h hwrong, fun _ h => absurd h hwrong⟩

/-- A name that is not ASCII. -/
theorem accented_name_raises : ¬ ∀ G : TextGate, G.IsConfigured → ∀ (s : LoginStore)
    (as : List LoginCall), Run.Meets (step G) (fun s a => a.Counted G s) s as := by
  intro h
  have hcounted := (h lockedOutAdmin (by decide) emptyStore [guessAs [0xe9] 1700000000]).1
  have hunlocked : (guessAs [0xe9] 1700000000).Unlocked lockedOutAdmin emptyStore := rfl
  refine not_counted (result_names (by decide) hunlocked fun hnames => ?_) hcounted
  exact absurd hnames.1 (by decide)

end LoginCall

end Rackphone
