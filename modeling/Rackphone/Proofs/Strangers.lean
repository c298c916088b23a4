import Rackphone.Proofs.Lockout

/-!
# Strangers cannot lock the administrator out

What decides an attempt is the lock of its address and of the account, the second factor and the
tokens there are. A login under another name fails, so all it can touch of these is the lock of
its own address.
-/

namespace Rackphone

/-- A login under a name that is not the administrator's, from another address. -/
def Stranger (G : Gate) (ip : String) (a : Attempt) : Prop :=
  ∃ c deviceLabel scope refresh, a = .logIn c deviceLabel scope refresh
    ∧ c.username ≠ G.adminUsername ∧ c.ip ≠ ip

/-- The store after some attempts, each at its own time. -/
def afterAttempts (G : Gate) (s : LoginStore) (as : List (ℤ × Attempt)) : LoginStore :=
  Run.final (fun s a => a.2.store G s a.1) s as

namespace LoginStore

/-- Two stores that decide an attempt from an address alike. -/
structure Alike (G : Gate) (ip : String) (s s' : LoginStore) : Prop where
  ipLock : s'.lockouts.get (ipSubject ip) = s.lockouts.get (ipSubject ip)
  accountLock : s'.lockouts.get (accountSubject G.adminUsername)
    = s.lockouts.get (accountSubject G.adminUsername)
  totpSecret : s'.totpSecret = s.totpSecret
  recoveryCodes : s'.recoveryCodes = s.recoveryCodes
  refreshTokens : s'.refreshTokens = s.refreshTokens

namespace Alike

variable {G : Gate} {ip : String} {s s' s'' : LoginStore} {c : Credentials} {now : ℤ}

theorem refl (G : Gate) (ip : String) (s : LoginStore) : Alike G ip s s := ⟨rfl, rfl, rfl, rfl, rfl⟩

theorem trans (h : Alike G ip s s') (h' : Alike G ip s' s'') : Alike G ip s s'' :=
  ⟨h'.ipLock.trans h.ipLock, h'.accountLock.trans h.accountLock, h'.totpSecret.trans h.totpSecret,
    h'.recoveryCodes.trans h.recoveryCodes, h'.refreshTokens.trans h.refreshTokens⟩

theorem recordFailure (s : LoginStore) {username ip' : String} (hname : username ≠ G.adminUsername)
    (hip : ip' ≠ ip) (now : ℤ) (reason : RefusalReason) :
    Alike G ip s (G.recordFailure s username ip' now reason) where
  ipLock := by
    rw [Gate.get_ipSubject_recordFailure, if_neg fun h => hip h.1.symm]
  accountLock := by
    rw [Gate.get_accountSubject_recordFailure, if_neg fun h => hname h.1]
  totpSecret := (Gate.rest_recordFailure G s username ip' now reason).1
  recoveryCodes := (Gate.rest_recordFailure G s username ip' now reason).2.1
  refreshTokens := (Gate.rest_recordFailure G s username ip' now reason).2.2

/-- A stranger's login fails: it leaves the store, or records a failure of its own. -/
theorem stranger {a : Attempt} (h : Stranger G ip a) (s : LoginStore) (now : ℤ) :
    Alike G ip s (a.store G s now) := by
  obtain ⟨c, deviceLabel, scope, refresh, rfl, hname, hip⟩ := h
  have hrefused : ∃ outcome, (G.checkCredentials s c now).2 = some outcome := by
    simp only [Gate.checkCredentials, hname, ne_eq, not_false_eq_true, true_or, if_true]
    cases G.isConfigured with
    | false => exact ⟨_, rfl⟩
    | true => cases G.lockedUntil s c.ip now <;> exact ⟨_, rfl⟩
  obtain ⟨outcome, ho⟩ := hrefused
  rw [Attempt.store_of_refusal (a := .logIn c deviceLabel scope refresh) ho, Attempt.credentials]
  rcases Gate.checkCredentials_some ho with ⟨-, hs⟩ | ⟨-, -, hs⟩ | ⟨reason, -, -, hs, -⟩
  · rw [hs]
    exact refl G ip s
  · rw [hs]
    exact refl G ip s
  · rw [hs]
    exact recordFailure s hname hip now reason

theorem afterAttempts : ∀ {s : LoginStore} {as : List (ℤ × Attempt)},
    (∀ a ∈ as, Stranger G ip a.2) → Alike G ip s (Rackphone.afterAttempts G s as)
  | s, [], _ => refl G ip s
  | s, a :: _, h =>
    (stranger (h a List.mem_cons_self) s a.1).trans
      (afterAttempts fun b hb => h b (List.mem_cons_of_mem a hb))

theorem lockedUntil (h : Alike G ip s s') :
    G.lockedUntil s' ip now = G.lockedUntil s ip now := by
  simp only [Gate.lockedUntil, LoginStore.activeLock, h.ipLock, h.accountLock]

theorem checkSecondFactor (h : Alike G ip s s') (c : Credentials) (now : ℤ) :
    (G.checkSecondFactor s' c now).2 = (G.checkSecondFactor s c now).2 := by
  have hconsume : ∀ code, (s'.consumeRecoveryCode code now).2
      = (s.consumeRecoveryCode code now).2 := by
    intro code
    unfold consumeRecoveryCode
    rw [h.recoveryCodes]
    rcases s.recoveryCodes.get code with _ | _ | _ <;> rfl
  unfold Gate.checkSecondFactor
  rw [h.totpSecret]
  rcases s.totpSecret with _ | secret
  · rfl
  simp only []
  split
  · rfl
  · split_ifs
    · rfl
    · cases c.recoveryCode with
      | none => rfl
      | some code => simp only [hconsume]

theorem checkCredentials (h : Alike G c.ip s s') (now : ℤ) :
    (G.checkCredentials s' c now).2 = (G.checkCredentials s c now).2 := by
  simp only [Gate.checkCredentials, h.lockedUntil]
  cases G.isConfigured with
  | false => rfl
  | true =>
    cases G.lockedUntil s c.ip now with
    | some lockedUntil => rfl
    | none =>
      simp only [Bool.not_true, Bool.false_eq_true, if_false]
      by_cases hbad : c.username ≠ G.adminUsername ∨ G.verifyPassword c.password = false
      · simp only [if_pos hbad]
      · have hsec := h.checkSecondFactor c now
        simp only [if_neg hbad]
        rcases hs : G.checkSecondFactor s c now with ⟨s₁, _ | reason⟩ <;>
          rcases hs' : G.checkSecondFactor s' c now with ⟨s₂, _ | reason'⟩ <;>
          simp_all

end Alike

end LoginStore

namespace Gate

variable {G : Gate} {s s' : LoginStore} {c : Credentials} {now : ℤ}

theorem refreshTokens_checkCredentials (G : Gate) (s : LoginStore) (c : Credentials) (now : ℤ) :
    (G.checkCredentials s c now).1.refreshTokens = s.refreshTokens := by
  have hsec : (G.checkSecondFactor s c now).1.refreshTokens = s.refreshTokens := by
    unfold checkSecondFactor LoginStore.consumeRecoveryCode
    repeat' split
    all_goals rfl
  simp only [checkCredentials]
  cases G.isConfigured with
  | false => rfl
  | true =>
    cases G.lockedUntil s c.ip now with
    | some lockedUntil => rfl
    | none =>
      simp only [Bool.not_true, Bool.false_eq_true, if_false]
      split_ifs
      · exact (rest_recordFailure G s _ _ _ _).2.2
      · rcases hs : G.checkSecondFactor s c now with ⟨s₁, _ | reason⟩
        · rwa [hs] at hsec
        · rw [hs] at hsec
          exact (rest_recordFailure G s₁ _ _ _ _).2.2.trans hsec

/-- What a login answers, told by the check and the tokens there are. -/
theorem snd_logIn (deviceLabel scope refresh : String) :
    (G.logIn s c deviceLabel scope refresh now).2 = match (G.checkCredentials s c now).2 with
      | some refusal => .ok refusal
      | none => (s.refreshTokens.issueRefresh (G.hashToken refresh) deviceLabel scope now
          G.refreshTtlSeconds).map fun issued =>
        ⟨some (G.tokens refresh issued.2 scope now), none, none⟩ := by
  have hr := G.refreshTokens_checkCredentials s c now
  unfold logIn
  rcases hc : G.checkCredentials s c now with ⟨s₁, _ | refusal⟩
  · rw [hc] at hr
    simp only [recordSuccess, LoginStore.clearLock, LoginStore.recordAttempt] at hr ⊢
    rw [hr]
    rcases s.refreshTokens.issueRefresh (G.hashToken refresh) deviceLabel scope now
      G.refreshTtlSeconds with e | issued <;> rfl
  · rfl

end Gate

/-- Strangers cannot lock the administrator out: whatever logins under other names come from other
addresses, an attempt ends as it would have without them. -/
theorem strangers_unseen {G : Gate} {ip : String} {as : List (ℤ × Attempt)}
    (has : ∀ a ∈ as, Stranger G ip a.2) (s : LoginStore) (now : ℤ) :
    (∀ c : Credentials, c.ip = ip → ∀ deviceLabel scope refresh,
        (G.logIn (afterAttempts G s as) c deviceLabel scope refresh now).2
          = (G.logIn s c deviceLabel scope refresh now).2)
      ∧ ∀ password totpCode recoveryCode,
        (G.reauthenticate (afterAttempts G s as) password ip totpCode recoveryCode now).2
          = (G.reauthenticate s password ip totpCode recoveryCode now).2 := by
  have h : LoginStore.Alike G ip s (afterAttempts G s as) := .afterAttempts has
  refine ⟨fun c hc deviceLabel scope refresh => ?_, fun password totpCode recoveryCode => ?_⟩
  · subst hc
    rw [Gate.snd_logIn, Gate.snd_logIn, h.checkCredentials, h.refreshTokens]
  · exact LoginStore.Alike.checkCredentials
      (c := ⟨G.adminUsername, password, ip, totpCode, recoveryCode⟩) h now

/-- Twenty logins as root from one address. -/
def flood : List (ℤ × Attempt) :=
  (List.range 20).map fun n => (1700000000 + 10 * n, Guessing.guess "root" "203.0.113.9")

theorem stranger_of_mem_flood : ∀ a ∈ flood, Stranger Guessing.gate "198.51.100.7" a.2 := by
  intro a ha
  obtain ⟨n, -, rfl⟩ := List.mem_map.1 ha
  exact ⟨_, _, _, _, rfl, by decide, by decide⟩

theorem flood_unseen :
    (∀ c : Credentials, c.ip = "198.51.100.7" → ∀ deviceLabel scope refresh,
        (Guessing.gate.logIn (afterAttempts Guessing.gate Guessing.emptyLogins flood) c deviceLabel
            scope refresh 1700000200).2
          = (Guessing.gate.logIn Guessing.emptyLogins c deviceLabel scope refresh 1700000200).2)
      ∧ ∀ password totpCode recoveryCode,
        (Guessing.gate.reauthenticate (afterAttempts Guessing.gate Guessing.emptyLogins flood)
            password "198.51.100.7" totpCode recoveryCode 1700000200).2
          = (Guessing.gate.reauthenticate Guessing.emptyLogins password "198.51.100.7" totpCode
            recoveryCode 1700000200).2 :=
  strangers_unseen stranger_of_mem_flood Guessing.emptyLogins 1700000200

end Rackphone
