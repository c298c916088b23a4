import Rackphone.Lib.Run
import Rackphone.Lockout

/-!
# The ladder bounds guessing from one address

A refused attempt leaves the store as it was or is recorded with the locks its failures reach. The
failures of one address in a window force its locks up the ladder, whose first four rungs last the
window, so that the seventh attempt finds a lock still active.
-/

namespace Rackphone

def ipLadder : Ladder := ⟨IP_LADDER, by decide, by decide, by decide⟩

def accountLadder : Ladder := ⟨LOCKOUT_LADDER, by decide, by decide, by decide⟩

theorem nextLockout_eq (L : Ladder) (subject : String) (l : Option Ladder.Lock) (now : ℤ) :
    nextLockout subject (Ladder.level l) now L.rungs = ⟨L.next l now, subject⟩ := by
  have hpos := L.length_pos
  have hrung : ((L.rung (Ladder.level l) : ℕ) : ℤ)
      = min (max (Ladder.level l) 0) (L.rungs.length - 1) := by
    unfold Ladder.rung
    omega
  unfold nextLockout Ladder.next
  simp only [hrung]
  rfl

theorem ipSubject_inj {ip ip' : String} : ipSubject ip = ipSubject ip' ↔ ip = ip' := by
  unfold ipSubject
  rw [← String.toList_inj, String.toList_append, String.toList_append, List.append_right_inj,
    String.toList_inj]

theorem ipSubject_ne_accountSubject (ip username : String) :
    ipSubject ip ≠ accountSubject username := by
  intro h
  have := congrArg String.toList h
  simp [ipSubject, accountSubject] at this

namespace LoginStore

variable {s : LoginStore} {subject : String} {now : ℤ}

theorem activeLock_eq_none :
    s.activeLock subject now = none ↔ Ladder.Open (s.lockouts.get subject) now := by
  unfold activeLock Ladder.Open
  rw [Option.filter_eq_none_iff]
  simp

@[simp] theorem lastLevel_eq : s.lastLevel subject = Ladder.level (s.lockouts.get subject) := rfl

theorem consumeRecoveryCode_false {codeHash : String}
    (h : (s.consumeRecoveryCode codeHash now).2 = false) :
    (s.consumeRecoveryCode codeHash now).1 = s := by
  unfold consumeRecoveryCode at h ⊢
  rcases hcode : s.recoveryCodes.get codeHash with _ | _ | _
  · rfl
  · simp [hcode] at h
  · rfl

end LoginStore

namespace Gate

variable {G : Gate} {s s' : LoginStore} {c : Credentials} {now : ℤ}

/-- The subjects a failure may lock, each with its ladder. -/
inductive Locks (G : Gate) : String → Ladder → Prop where
  | ip (ip : String) : Locks G (ipSubject ip) ipLadder
  | account : Locks G (accountSubject G.adminUsername) accountLadder

theorem Locks.unique {subject : String} {L L' : Ladder} (h : G.Locks subject L)
    (h' : G.Locks subject L') : L = L' := by
  generalize hs : subject = subject' at h'
  cases h with
  | ip ip =>
    cases h' with
    | ip => rfl
    | account => exact absurd hs (ipSubject_ne_accountSubject _ _)
  | account =>
    cases h' with
    | ip => exact absurd hs.symm (ipSubject_ne_accountSubject _ _)
    | account => rfl

theorem get_lockAt (L : Ladder) (s : LoginStore) (subject subject' : String)
    (failures threshold : ℕ) (now : ℤ) :
    (lockAt s subject failures threshold now L.rungs).1.lockouts.get subject'
      = if subject' = subject ∧ threshold ≤ failures
        then some (L.next (s.lockouts.get subject) now) else s.lockouts.get subject' := by
  unfold lockAt
  by_cases hf : threshold ≤ failures
  · rw [if_pos hf, LoginStore.lastLevel_eq, nextLockout_eq, LoginStore.lock, Dict.get_set]
    simp [hf]
  · simp [hf]

theorem attempts_lockAt (s : LoginStore) (subject : String) (failures threshold : ℕ) (now : ℤ)
    (ladder : List ℤ) :
    (lockAt s subject failures threshold now ladder).1.attempts = s.attempts := by
  unfold lockAt
  split_ifs <;> rfl

section RecordFailure

variable (G : Gate) (s : LoginStore) (username ip : String) (now : ℤ) (reason : RefusalReason)

theorem attempts_recordFailure :
    (G.recordFailure s username ip now reason).attempts
      = s.attempts ++ [⟨now, ip, username, false⟩] := by
  unfold recordFailure
  simp only [LoginStore.recordAudit]
  split_ifs <;> simp [attempts_lockAt, LoginStore.recordAttempt]

/-- The tables a failure does not write. -/
theorem rest_recordFailure :
    (G.recordFailure s username ip now reason).totpSecret = s.totpSecret
      ∧ (G.recordFailure s username ip now reason).recoveryCodes = s.recoveryCodes
      ∧ (G.recordFailure s username ip now reason).refreshTokens = s.refreshTokens := by
  have hlockAt : ∀ (s : LoginStore) subject failures threshold ladder,
      (lockAt s subject failures threshold now ladder).1.totpSecret = s.totpSecret
        ∧ (lockAt s subject failures threshold now ladder).1.recoveryCodes = s.recoveryCodes
        ∧ (lockAt s subject failures threshold now ladder).1.refreshTokens = s.refreshTokens := by
    intro s subject failures threshold ladder
    unfold lockAt
    split_ifs <;> exact ⟨rfl, rfl, rfl⟩
  unfold recordFailure
  simp only [LoginStore.recordAudit]
  split_ifs <;> simp [hlockAt, LoginStore.recordAttempt]

/-- How many failures the window of a new one holds, itself included. -/
def failures (s : LoginStore) (new : LoginAttempt) (window : ℤ) (p : LoginAttempt → Prop)
    [DecidablePred p] : ℕ :=
  (s.attempts ++ [new]).countP fun a => a.ok = false ∧ new.time - window ≤ a.time ∧ p a

theorem get_ipSubject_recordFailure (ip' : String) :
    (G.recordFailure s username ip now reason).lockouts.get (ipSubject ip')
      = if ip' = ip ∧ IP_FAILURE_THRESHOLD ≤ failures s ⟨now, ip, username, false⟩
          IP_FAILURE_WINDOW_SECONDS fun a => a.ip = ip
        then some (ipLadder.next (s.lockouts.get (ipSubject ip)) now)
        else s.lockouts.get (ipSubject ip') := by
  have hlock := get_lockAt ipLadder (s.recordAttempt ip username false now) (ipSubject ip)
    (ipSubject ip') ((s.recordAttempt ip username false now).failuresSince
      (now - IP_FAILURE_WINDOW_SECONDS) fun a => a.ip = ip) IP_FAILURE_THRESHOLD now
  simp only [ipSubject_inj] at hlock
  refine Eq.trans ?_ hlock
  unfold recordFailure
  simp only [LoginStore.recordAudit]
  split_ifs
  · rw [show LOCKOUT_LADDER = accountLadder.rungs from rfl, get_lockAt,
      if_neg fun h => ipSubject_ne_accountSubject _ _ h.1]
    rfl
  · rfl

theorem get_accountSubject_recordFailure :
    (G.recordFailure s username ip now reason).lockouts.get (accountSubject G.adminUsername)
      = if username = G.adminUsername ∧ ACCOUNT_FAILURE_THRESHOLD ≤
          failures s ⟨now, ip, username, false⟩ ACCOUNT_FAILURE_WINDOW_SECONDS
            fun a => a.username = G.adminUsername
        then some (accountLadder.next (s.lockouts.get (accountSubject G.adminUsername)) now)
        else s.lockouts.get (accountSubject G.adminUsername) := by
  have hip : ∀ failures, (lockAt (s.recordAttempt ip username false now) (ipSubject ip) failures
      IP_FAILURE_THRESHOLD now IP_LADDER).1.lockouts.get (accountSubject G.adminUsername)
        = s.lockouts.get (accountSubject G.adminUsername) := by
    intro failures
    rw [show IP_LADDER = ipLadder.rungs from rfl, get_lockAt,
      if_neg fun h => ipSubject_ne_accountSubject _ _ h.1.symm]
    rfl
  unfold recordFailure
  simp only [LoginStore.recordAudit]
  by_cases hu : username = G.adminUsername
  · simp only [if_pos hu]
    rw [show LOCKOUT_LADDER = accountLadder.rungs from rfl, get_lockAt, hip]
    simp only [LoginStore.failuresSince, attempts_lockAt, hu, true_and]
    rfl
  · simp only [hip, hu, false_and, if_false]

theorem get_recordFailure_of_ne {subject : String} (hip : subject ≠ ipSubject ip)
    (hacc : subject ≠ accountSubject G.adminUsername) :
    (G.recordFailure s username ip now reason).lockouts.get subject = s.lockouts.get subject := by
  have hne : ∀ failures, (lockAt (s.recordAttempt ip username false now) (ipSubject ip) failures
      IP_FAILURE_THRESHOLD now IP_LADDER).1.lockouts.get subject = s.lockouts.get subject := by
    intro failures
    rw [show IP_LADDER = ipLadder.rungs from rfl, get_lockAt, if_neg fun h => hip h.1]
    rfl
  unfold recordFailure
  simp only [LoginStore.recordAudit]
  split_ifs
  · rw [show LOCKOUT_LADDER = accountLadder.rungs from rfl, get_lockAt, if_neg fun h => hacc h.1,
      hne]
  · exact hne _

/-- A failure sets the next lock of a subject's ladder or leaves the subject alone. -/
theorem get_recordFailure (subject : String) :
    (G.recordFailure s username ip now reason).lockouts.get subject = s.lockouts.get subject ∨
      ∃ L, G.Locks subject L ∧ (G.recordFailure s username ip now reason).lockouts.get subject
        = some (L.next (s.lockouts.get subject) now) := by
  by_cases hip : subject = ipSubject ip
  · rw [hip, get_ipSubject_recordFailure]
    split_ifs
    · exact .inr ⟨_, .ip ip, rfl⟩
    · exact .inl rfl
  by_cases hacc : subject = accountSubject G.adminUsername
  · rw [hacc, get_accountSubject_recordFailure]
    split_ifs
    · exact .inr ⟨_, .account, rfl⟩
    · exact .inl rfl
  · exact .inl (get_recordFailure_of_ne G s username ip now reason hip hacc)

end RecordFailure

theorem lockedUntil_eq_none {ip : String} : G.lockedUntil s ip now = none ↔
    Ladder.Open (s.lockouts.get (ipSubject ip)) now
      ∧ Ladder.Open (s.lockouts.get (accountSubject G.adminUsername)) now := by
  rw [← LoginStore.activeLock_eq_none, ← LoginStore.activeLock_eq_none]
  unfold lockedUntil latest
  cases s.activeLock (ipSubject ip) now <;>
    cases s.activeLock (accountSubject G.adminUsername) now <;> simp

/-- A second factor that fails leaves the store: no recovery code was consumed. -/
theorem checkSecondFactor_some {reason : RefusalReason}
    (h : (G.checkSecondFactor s c now).2 = some reason) :
    (G.checkSecondFactor s c now).1 = s ∧ reason ≠ .locked := by
  unfold checkSecondFactor at h ⊢
  rcases hsecret : s.totpSecret with _ | secret
  · simp [hsecret] at h
  simp only [hsecret] at h ⊢
  split at h
  · exact ⟨rfl, fun hr => nomatch hr ▸ h⟩
  · split_ifs at h ⊢
    rcases hcode : c.recoveryCode with _ | code
    · simp only [hcode] at h ⊢
      exact ⟨trivial, fun hr => nomatch hr ▸ h⟩
    · simp only [hcode] at h ⊢
      split_ifs at h with hused
      rw [Option.some.injEq] at h
      exact ⟨LoginStore.consumeRecoveryCode_false (by simpa using hused), fun hr => nomatch hr ▸ h⟩

/-- A refused attempt: no administrator is configured, a lock is active, or the credentials were
checked and their failure recorded. -/
theorem checkCredentials_some {outcome : LoginOutcome}
    (h : (G.checkCredentials s c now).2 = some outcome) :
    (G.isConfigured = false ∧ (G.checkCredentials s c now).1 = s) ∨
      (G.isConfigured = true ∧ G.lockedUntil s c.ip now ≠ none
        ∧ (G.checkCredentials s c now).1 = s) ∨
      ∃ reason, G.isConfigured = true ∧ G.lockedUntil s c.ip now = none
        ∧ (G.checkCredentials s c now).1 = G.recordFailure s c.username c.ip now reason
        ∧ outcome = refuse reason none ∧ reason ≠ .locked := by
  unfold checkCredentials at h ⊢
  rcases hconf : G.isConfigured with _ | _
  · exact .inl ⟨rfl, rfl⟩
  simp only [hconf, Bool.not_true, Bool.false_eq_true, if_false] at h ⊢
  rcases hlock : G.lockedUntil s c.ip now with _ | until_
  · refine .inr (.inr ?_)
    simp only [hlock] at h ⊢
    split_ifs at h ⊢ with hbad
    · exact ⟨.badCredentials, trivial, trivial, rfl, (Option.some.inj h).symm, by simp⟩
    · rcases hsec : G.checkSecondFactor s c now with ⟨s', _ | reason⟩
      · simp [hsec] at h
      · obtain ⟨hs, hne⟩ := checkSecondFactor_some (congrArg Prod.snd hsec)
        rw [hsec] at hs
        simp only [hsec, Option.some.injEq] at h hs ⊢
        exact ⟨reason, trivial, trivial, by rw [hs], h.symm, hne⟩
  · exact .inr (.inl ⟨trivial, by simp, rfl⟩)

end Gate

namespace Attempt

variable {G : Gate} {s : LoginStore} {now : ℤ}

theorem store_of_refusal {a : Attempt} {outcome : LoginOutcome}
    (h : a.refusal G s now = some outcome) :
    a.store G s now = (G.checkCredentials s (a.credentials G) now).1 := by
  cases a with
  | logIn c deviceLabel scope refresh =>
    simp only [refusal, store, Gate.logIn, credentials] at h ⊢
    rcases hc : G.checkCredentials s c now with ⟨s', _ | o⟩
    · simp [hc] at h
    · simp only
  | reauthenticate password ip totpCode recoveryCode => rfl

end Attempt

namespace Guessing

open Gate

variable {G : Gate} {s : Guessing} {a : ℕ × Attempt}

/-- What a refused attempt does to the store and to the history: it leaves both, or it is recorded
and counted as checked. -/
theorem step_cases (h : s.Fails G a) :
    ((step G s a).store = s.store ∧ (step G s a).checked = s.checked) ∨
      ∃ username reason, ∃ ip : String,
        (step G s a).store = G.recordFailure s.store username ip (s.now + a.1) reason
          ∧ (step G s a).checked = (ip, s.now + a.1) :: s.checked
          ∧ G.lockedUntil s.store ip (s.now + a.1) = none := by
  obtain ⟨outcome, ho⟩ := Option.isSome_iff_exists.1 h
  have hstore := Attempt.store_of_refusal ho
  rcases checkCredentials_some ho with ⟨hconf, hs⟩ | ⟨-, hlock, hs⟩ | ⟨reason, hconf, hlock, hs, -⟩
  · refine .inl ⟨hstore.trans hs, ?_⟩
    simp [step, hconf]
  · refine .inl ⟨hstore.trans hs, ?_⟩
    simp [step, hlock]
  · refine .inr ⟨_, reason, _, hstore.trans hs, ?_, hlock⟩
    simp [step, hconf, hlock]

/-- A failure recorded from an address in a window. -/
def inWindow (ip : String) (w : ℤ) (a : LoginAttempt) : Bool :=
  a.ok = false ∧ a.ip = ip ∧ w ≤ a.time ∧ a.time < w + IP_FAILURE_WINDOW_SECONDS

section Window

variable {store : LoginStore} (username : String) {ip : String} (reason : RefusalReason) {t w : ℤ}
  {n : ℕ}

/-- The failures of the window are all counted when one more is recorded in it. -/
theorem lt_failures (hn : n ≤ store.attempts.countP (inWindow ip w))
    (ht : t < w + IP_FAILURE_WINDOW_SECONDS) :
    n < failures store ⟨t, ip, username, false⟩ IP_FAILURE_WINDOW_SECONDS fun a => a.ip = ip := by
  unfold failures
  rw [List.countP_append, List.countP_singleton, if_pos (by
    simp only [true_and, decide_eq_true_eq, and_true]
    unfold IP_FAILURE_WINDOW_SECONDS
    omega)]
  refine Nat.lt_succ_of_le (hn.trans (List.countP_mono_left fun a _ ha => ?_))
  simp only [inWindow, decide_eq_true_eq] at ha ⊢
  exact ⟨ha.1, by omega, ha.2.1⟩

theorem forced_inside (hopen : Ladder.Open (store.lockouts.get (ipSubject ip)) t)
    (hrec : n ≤ store.attempts.countP (inWindow ip w))
    (hforced : ipLadder.Forced IP_FAILURE_THRESHOLD w n (store.lockouts.get (ipSubject ip)))
    (hw : w ≤ t) (ht : t < w + IP_FAILURE_WINDOW_SECONDS) :
    n + 1 ≤ 6 ∧ ipLadder.Forced IP_FAILURE_THRESHOLD w (n + 1)
      ((G.recordFailure store username ip t reason).lockouts.get (ipSubject ip)) := by
  have hk : n + 1 - IP_FAILURE_THRESHOLD < 4 := hforced.lt_of_open hopen hw ht (by decide)
  have hlen : ipLadder.rungs.length = 5 := rfl
  have hthree : IP_FAILURE_THRESHOLD = 3 := rfl
  refine ⟨by omega, ?_⟩
  rw [get_ipSubject_recordFailure]
  split_ifs with hlock
  · exact hforced.succ hopen hw (by omega)
  · have hlt := lt_failures username hrec ht
    have hfew : ¬ IP_FAILURE_THRESHOLD ≤ n + 1 := fun h => hlock ⟨rfl, h.trans hlt⟩
    exact fun h => absurd h hfew

theorem forced_outside {ip' : String}
    (hopen : Ladder.Open (store.lockouts.get (ipSubject ip)) t) (hn : n ≤ 6)
    (hforced : ipLadder.Forced IP_FAILURE_THRESHOLD w n (store.lockouts.get (ipSubject ip'))) :
    ipLadder.Forced IP_FAILURE_THRESHOLD w n
      ((G.recordFailure store username ip t reason).lockouts.get (ipSubject ip')) := by
  have hlen : ipLadder.rungs.length = 5 := rfl
  have hthree : IP_FAILURE_THRESHOLD = 3 := rfl
  rw [get_ipSubject_recordFailure]
  split_ifs with hlock
  · obtain ⟨rfl, -⟩ := hlock
    exact hforced.lock hopen (by omega)
  · exact hforced

end Window

/-- The attempts checked in a window are on record, and have forced the address's locks. -/
structure Bounded (s : Guessing) (ip : String) (w : ℤ) : Prop where
  recorded : s.checkedIn ip w ≤ s.store.attempts.countP (inWindow ip w)
  forced : ipLadder.Forced IP_FAILURE_THRESHOLD w (s.checkedIn ip w)
    (s.store.lockouts.get (ipSubject ip))
  le_six : s.checkedIn ip w ≤ 6

theorem bounded_start (store : LoginStore) (t : ℤ) (ip : String) (w : ℤ) :
    (start store t).Bounded ip w :=
  ⟨Nat.zero_le _, Ladder.forced_zero (by decide) _ _, Nat.zero_le _⟩

theorem Bounded.step {ip : String} {w : ℤ} (h : s.Bounded ip w) (hfail : s.Fails G a) :
    (Guessing.step G s a).Bounded ip w := by
  rcases step_cases hfail with ⟨hs, hc⟩ | ⟨username, reason, ip', hs, hc, hlock⟩
  · have hcount : (Guessing.step G s a).checkedIn ip w = s.checkedIn ip w := by
      simp only [checkedIn, hc]
    refine ⟨?_, ?_, ?_⟩
    · rw [hcount, hs]
      exact h.recorded
    · rw [hcount, hs]
      exact h.forced
    · rw [hcount]
      exact h.le_six
  obtain ⟨hopen, -⟩ := lockedUntil_eq_none.1 hlock
  by_cases hin : ip' = ip ∧ w ≤ s.now + a.1 ∧ s.now + a.1 < w + IP_FAILURE_WINDOW_SECONDS
  · -- one more attempt of the window is checked
    have hcount : (Guessing.step G s a).checkedIn ip w = s.checkedIn ip w + 1 := by
      unfold checkedIn
      rw [hc, List.countP_cons_of_pos (by simpa using hin)]
    obtain ⟨rfl, hw, ht⟩ := hin
    obtain ⟨hle, hforced⟩ := forced_inside (G := G) username reason hopen h.recorded h.forced hw ht
    refine ⟨?_, ?_, hcount ▸ hle⟩
    · rw [hcount, hs, attempts_recordFailure, List.countP_append, List.countP_singleton, if_pos (by
        simp only [inWindow, decide_eq_true_eq]
        exact ⟨trivial, trivial, hw, ht⟩)]
      exact Nat.succ_le_succ h.recorded
    · rw [hcount, hs]
      exact hforced
  · have hcount : (Guessing.step G s a).checkedIn ip w = s.checkedIn ip w := by
      unfold checkedIn
      rw [hc, List.countP_cons_of_neg (by simpa using hin)]
    refine ⟨?_, ?_, hcount ▸ h.le_six⟩
    · rw [hcount, hs, attempts_recordFailure, List.countP_append]
      exact h.recorded.trans (Nat.le_add_right _ _)
    · rw [hcount, hs]
      exact forced_outside username reason hopen h.le_six h.forced

/-- Every lock a subject was given is no longer than the one that comes next. -/
structure Climbing (G : Gate) (s : Guessing) : Prop where
  escalates : s.Escalates
  le_next : ∀ subject L, G.Locks subject L → ∀ d ∈ s.durations subject,
    d ≤ L.duration (Ladder.level (s.store.lockouts.get subject))

theorem climbing_start (G : Gate) (store : LoginStore) (t : ℤ) : (start store t).Climbing G :=
  ⟨fun _ => List.Pairwise.nil, fun _ _ _ _ hd => nomatch hd⟩

/-- A refused attempt leaves a subject's lock, or sets the next of the subject's ladder. -/
theorem lock_cases (hfail : s.Fails G a) (subject : String) :
    ((step G s a).store.lockouts.get subject = s.store.lockouts.get subject
        ∧ (step G s a).durations subject = s.durations subject) ∨
      ∃ L, G.Locks subject L
        ∧ (step G s a).store.lockouts.get subject
          = some (L.next (s.store.lockouts.get subject) (s.now + a.1))
        ∧ ((step G s a).durations subject = s.durations subject
          ∨ (step G s a).durations subject
            = L.duration (Ladder.level (s.store.lockouts.get subject)) :: s.durations subject) := by
  have hget : (step G s a).store.lockouts.get subject = s.store.lockouts.get subject ∨
      ∃ L, G.Locks subject L ∧ (step G s a).store.lockouts.get subject
        = some (L.next (s.store.lockouts.get subject) (s.now + a.1)) := by
    rcases step_cases hfail with ⟨hs, -⟩ | ⟨username, reason, ip, hs, -, -⟩
    · exact .inl (hs ▸ rfl)
    · rw [hs]
      exact get_recordFailure G s.store username ip _ reason subject
  have hd : (step G s a).durations subject
      = locked s.store (step G s a).store (s.now + a.1) s.durations subject := rfl
  rw [hd]
  unfold locked
  rcases hget with hget | ⟨L, hL, hget⟩
  · refine .inl ⟨hget, ?_⟩
    rw [hget]
    rcases s.store.lockouts.get subject with _ | lock
    · rfl
    · exact if_pos rfl
  · refine .inr ⟨L, hL, hget, ?_⟩
    rw [hget]
    simp only [Ladder.next, add_sub_cancel_left]
    split_ifs
    · exact .inl rfl
    · exact .inr rfl

theorem Climbing.step (h : s.Climbing G) (hfail : s.Fails G a) :
    (Guessing.step G s a).Climbing G := by
  refine ⟨fun subject => ?_, fun subject L hL d hd => ?_⟩
  · rcases lock_cases hfail subject with ⟨-, he⟩ | ⟨L, hL, -, he | he⟩
    · exact he ▸ h.escalates subject
    · exact he ▸ h.escalates subject
    · exact he ▸ List.pairwise_cons.2 ⟨h.le_next subject L hL, h.escalates subject⟩
  · rcases lock_cases hfail subject with ⟨hget, he⟩ | ⟨L', hL', hget, he⟩
    · rw [hget]
      exact h.le_next subject L hL d (he ▸ hd)
    · obtain rfl := hL.unique hL'
      rw [hget]
      refine le_trans ?_ (L.duration_le_next (s.store.lockouts.get subject) (s.now + a.1))
      rcases he with he | he
      · exact h.le_next subject L hL d (he ▸ hd)
      · rw [he] at hd
        rcases List.mem_cons.1 hd with rfl | hd
        · exact le_rfl
        · exact h.le_next subject L hL d hd

theorem leavesLocks (s : Guessing) (a : ℕ × Attempt) : s.LeavesLocks G a := by
  intro outcome ho hlocked
  have hstore := Attempt.store_of_refusal ho
  rcases checkCredentials_some ho with ⟨-, hs⟩ | ⟨-, -, hs⟩ | ⟨reason, -, -, -, rfl, hne⟩
  · exact hstore.trans hs
  · exact hstore.trans hs
  · exact absurd (Option.some.inj hlocked) hne

/-- The ladder bounds guessing, in every run of attempts that fail: at most six from one address
are checked in any 900 seconds, locks only get longer, and a locked attempt changes nothing. -/
theorem ladder_bounds (G : Gate) (store : LoginStore) (t : ℤ) (as : List (ℕ × Attempt))
    (hfail : Run.Meets (step G) (Fails G) (start store t) as) :
    Run.Always (step G) (fun s => (∀ ip w, s.checkedIn ip w ≤ 6) ∧ s.Escalates) (start store t) as
      ∧ Run.Meets (step G) (LeavesLocks G) (start store t) as := by
  refine ⟨?_, Run.meets_of_invariant (I := fun _ => True) (fun s a _ => s.leavesLocks a)
    (fun _ _ _ => trivial) as trivial⟩
  exact Run.always_of_meets (I := fun s => (∀ ip w, s.Bounded ip w) ∧ s.Climbing G)
    (fun s h => ⟨fun ip w => (h.1 ip w).le_six, h.2.escalates⟩)
    (fun s a h hf => ⟨fun ip w => (h.1 ip w).step hf, h.2.step hf⟩) as
    ⟨bounded_start store t, climbing_start G store t⟩ hfail

def emptyLogins : LoginStore := ⟨[], .empty, none, .empty, .empty, []⟩

/-- A service whose administrator has a password no attempt below gives. -/
def gate : Gate where
  hashToken t := t
  accessTtlSeconds := 900
  refreshTtlSeconds := 3600
  adminUsername := "admin"
  isConfigured := true
  verifyPassword p := p = "correct horse"
  verifyTotp _ _ _ := false

/-- A login with a name and a password and nothing else. -/
def guess (username ip : String) : Attempt :=
  .logIn ⟨username, "guess", ip, none, none⟩ "phone" "control" "refresh"

/-- Three failures a second apart lock an address for a minute; then it may fail once more. -/
def fourGuesses : List (ℕ × Attempt) :=
  [(0, guess "admin" "198.51.100.7"), (1, guess "root" "198.51.100.7"),
    (1, guess "root" "198.51.100.7"), (1, guess "admin" "198.51.100.7"),
    (60, .reauthenticate "guess" "198.51.100.7" none none)]

theorem ladder_bounds_four :
    Run.Always (step gate) (fun s => (∀ ip w, s.checkedIn ip w ≤ 6) ∧ s.Escalates)
        (start emptyLogins 1700000000) fourGuesses
      ∧ Run.Meets (step gate) (LeavesLocks gate) (start emptyLogins 1700000000) fourGuesses :=
  ladder_bounds gate emptyLogins 1700000000 fourGuesses (by decide +kernel)

end Guessing

end Rackphone
