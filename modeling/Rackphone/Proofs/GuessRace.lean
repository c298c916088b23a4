import Rackphone.GuessRace
import Rackphone.Proofs.Lockout

/-!
# When the account lock bounds guesses made at one time

Of the attempts of an hour that have counted, the last to count saw the failures of all, so five
of them leave the account locked for the rest of that hour. An attempt that reads the locks before
that is past them whatever the count.
-/

namespace Rackphone

namespace GuessRace

variable {n : ℕ} {R : GuessRace n} {s : State n} {i j : Fin n} {k : ℕ} {w : ℤ}

@[simp] theorem store_goto (s : State n) (i : Fin n) (p : GuessPhase) :
    (s.goto i p).store = s.store := rfl

@[simp] theorem phases_goto_self (s : State n) (i : Fin n) (p : GuessPhase) :
    (s.goto i p).phases i = p := Function.update_self ..

theorem phases_goto_of_ne (h : j ≠ i) (s : State n) (p : GuessPhase) :
    (s.goto i p).phases j = s.phases j := Function.update_of_ne h ..

theorem phases_step_of_ne (h : j ≠ i) (s : State n) : (R.step s i).phases j = s.phases j := by
  unfold step
  repeat' split
  all_goals first | rfl | exact phases_goto_of_ne h _ _

theorem mem_reached : j ∈ R.reached s k w ↔ k ≤ (s.phases j).rank ∧ w ≤ R.now j
    ∧ R.now j < w + ACCOUNT_FAILURE_WINDOW_SECONDS := by
  simp [reached]

theorem reached_anti {k' : ℕ} (h : k ≤ k') : R.reached s k' w ⊆ R.reached s k w := by
  intro j hj
  rw [mem_reached] at hj ⊢
  exact ⟨h.trans hj.1, hj.2⟩

/-- Where the attempt that moved does not newly come so far, no attempt does. -/
theorem reached_step_subset
    (h : k ≤ ((R.step s i).phases i).rank → k ≤ (s.phases i).rank) :
    R.reached (R.step s i) k w ⊆ R.reached s k w := by
  intro j hj
  rw [mem_reached] at hj ⊢
  refine ⟨?_, hj.2⟩
  by_cases hji : j = i
  · subst hji
    exact h hj.1
  · rw [← phases_step_of_ne (R := R) hji s]
    exact hj.1

theorem reached_step_subset_insert :
    R.reached (R.step s i) k w ⊆ insert i (R.reached s k w) := by
  intro j hj
  rw [mem_reached] at hj
  by_cases hji : j = i
  · exact Finset.mem_insert.2 (.inl hji)
  · rw [phases_step_of_ne hji] at hj
    exact Finset.mem_insert_of_mem (mem_reached.2 hj)

/-- An attempt moves one statement on; with a count below the threshold it skips the lock. -/
theorem rank_step_le (s : State n) (i : Fin n) :
    ((R.step s i).phases i).rank ≤ (s.phases i).rank + 1
      ∨ (s.phases i).rank = 4 ∧ ((R.step s i).phases i).rank = 6
      ∨ (s.phases i).rank = 7 ∧ ((R.step s i).phases i).rank = 9 := by
  rcases hp : s.phases i <;> simp only [step, hp] <;> try split_ifs
  all_goals simp [GuessPhase.rank, lock]

theorem eq_verified_of_rank {p : GuessPhase} (h : p.rank = 2) : p = .verified := by
  cases p <;> simp_all [GuessPhase.rank]

theorem eq_ipDone_of_rank {p : GuessPhase} (h : p.rank = 6) : p = .ipDone := by
  cases p <;> simp_all [GuessPhase.rank]

theorem recorded_of_step (h : 3 ≤ ((R.step s i).phases i).rank) :
    3 ≤ (s.phases i).rank ∨ s.phases i = .verified := by
  have hle := R.rank_step_le s i
  by_cases hr : 3 ≤ (s.phases i).rank
  · exact .inl hr
  · exact .inr (eq_verified_of_rank (by omega))

theorem counted_of_step (h : 7 ≤ ((R.step s i).phases i).rank) :
    7 ≤ (s.phases i).rank ∨ s.phases i = .ipDone := by
  have hle := R.rank_step_le s i
  by_cases hr : 7 ≤ (s.phases i).rank
  · exact .inl hr
  · exact .inr (eq_ipDone_of_rank (by omega))

/-- Only an attempt that finds the locks open is newly past them. -/
theorem passed_of_step (h : 1 ≤ ((R.step s i).phases i).rank) :
    1 ≤ (s.phases i).rank ∨ s.phases i = .started
      ∧ R.gate.lockedUntil s.store (R.ip i) (R.now i) = none := by
  rcases hp : s.phases i
  case started =>
    refine .inr ⟨rfl, ?_⟩
    simp only [step, hp] at h
    split_ifs at h with hopen
    · exact hopen.2
    · simp [GuessPhase.rank] at h
  case refused => simp [step, hp, GuessPhase.rank] at h
  all_goals exact .inl (by simp [GuessPhase.rank])

/-! ### What the store holds -/

/-- A failure recorded against the administrator in an hour. -/
def inHour (R : GuessRace n) (w : ℤ) (a : LoginAttempt) : Bool :=
  a.ok = false ∧ a.username = R.gate.adminUsername ∧ w ≤ a.time
    ∧ a.time < w + ACCOUNT_FAILURE_WINDOW_SECONDS

/-- The attempts that got so far have their failures on record. -/
def Recorded (R : GuessRace n) (s : State n) : Prop :=
  ∀ w, (R.reached s 3 w).card ≤ s.store.attempts.countP (R.inHour w)

theorem attempts_step (s : State n) (i : Fin n) : (R.step s i).store.attempts =
    if s.phases i = .verified then
      s.store.attempts ++ [⟨R.now i, R.ip i, R.gate.adminUsername, false⟩]
    else s.store.attempts := by
  rcases hp : s.phases i <;> simp only [step, hp] <;> try split_ifs
  all_goals simp_all [lock, LoginStore.lock, LoginStore.recordAttempt]

theorem Recorded.step (h : R.Recorded s) (i : Fin n) : R.Recorded (R.step s i) := by
  intro w
  rw [attempts_step]
  by_cases hin : w ≤ R.now i ∧ R.now i < w + ACCOUNT_FAILURE_WINDOW_SECONDS
  · by_cases hv : s.phases i = .verified
    · have hnew : R.inHour w ⟨R.now i, R.ip i, R.gate.adminUsername, false⟩ = true := by
        simpa [inHour] using hin
      rw [if_pos hv, List.countP_append, List.countP_singleton, if_pos hnew]
      refine (Finset.card_le_card reached_step_subset_insert).trans ?_
      exact (Finset.card_insert_le _ _).trans (Nat.succ_le_succ (h w))
    · rw [if_neg hv]
      refine (Finset.card_le_card (reached_step_subset fun hr => ?_)).trans (h w)
      exact (recorded_of_step hr).resolve_right hv
  · have hsub : R.reached (R.step s i) 3 w ⊆ R.reached s 3 w := by
      intro j hj
      refine (Finset.mem_insert.1 (reached_step_subset_insert hj)).resolve_left ?_
      rintro rfl
      exact hin (mem_reached.1 hj).2
    refine (Finset.card_le_card hsub).trans ((h w).trans ?_)
    split_ifs
    · rw [List.countP_append]
      exact Nat.le_add_right _ _
    · exact le_rfl

/-! ### The last to count -/

/-- An attempt that counted to the threshold: it is about to lock the account or has. -/
def Heavy : GuessPhase → Prop
  | .accountCounted failures => ACCOUNT_FAILURE_THRESHOLD ≤ failures
  | .accountLeveled _ | .locked => True
  | _ => False

/-- Where five attempts of an hour have counted, one of them counted five. -/
def Counted (R : GuessRace n) (s : State n) : Prop :=
  ∀ w, ACCOUNT_FAILURE_THRESHOLD ≤ (R.reached s 7 w).card →
    ∃ j ∈ R.reached s 7 w, Heavy (s.phases j)

theorem Heavy.rank_le {p : GuessPhase} (h : Heavy p) : 7 ≤ p.rank := by
  cases p <;> simp_all [Heavy, GuessPhase.rank]

theorem Heavy.step (h : Heavy (s.phases j)) (i : Fin n) : Heavy ((R.step s i).phases j) := by
  by_cases hji : j = i
  · subst hji
    rcases hp : s.phases j <;> rw [hp] at h <;> try exact h.elim
    case accountCounted failures =>
      have hf : ACCOUNT_FAILURE_THRESHOLD ≤ failures := h
      simp [GuessRace.step, hp, hf, Heavy]
    case accountLeveled level => simp [GuessRace.step, hp, Heavy]
    case locked => simp [GuessRace.step, hp, Heavy]
  · rw [phases_step_of_ne hji]
    exact h

/-- What an attempt counts takes in the failures of the hour it is in. -/
theorem card_le_failures (h : R.Recorded s) (hlt : R.now i < w + ACCOUNT_FAILURE_WINDOW_SECONDS) :
    (R.reached s 3 w).card ≤ s.store.failuresSince (R.now i - ACCOUNT_FAILURE_WINDOW_SECONDS)
      fun a => a.username = R.gate.adminUsername := by
  refine (h w).trans (List.countP_mono_left fun a _ ha => ?_)
  simp only [inHour, decide_eq_true_eq] at ha ⊢
  exact ⟨ha.1, by omega, ha.2.1⟩

theorem Counted.step (h : R.Counted s) (hrec : R.Recorded s) (i : Fin n) :
    R.Counted (R.step s i) := by
  intro w hfive
  by_cases hnew : s.phases i = .ipDone ∧ i ∈ R.reached (R.step s i) 7 w
  · -- the last to count: it sees every failure of the hour that was counted before, and its own
    obtain ⟨hp, hi⟩ := hnew
    refine ⟨i, hi, ?_⟩
    have hsub : R.reached (R.step s i) 7 w ⊆ R.reached s 3 w := by
      intro j hj
      rcases Finset.mem_insert.1 (reached_step_subset_insert hj) with rfl | hj
      · refine mem_reached.2 ⟨?_, (mem_reached.1 hi).2⟩
        simp [hp, GuessPhase.rank]
      · exact reached_anti (by decide) hj
    have hcount := card_le_failures hrec (mem_reached.1 hi).2.2
    have hle := hfive.trans ((Finset.card_le_card hsub).trans hcount)
    simpa [GuessRace.step, hp, Heavy] using hle
  · have hsub : R.reached (R.step s i) 7 w ⊆ R.reached s 7 w := by
      intro j hj
      by_cases hji : j = i
      · subst hji
        refine mem_reached.2 ⟨?_, (mem_reached.1 hj).2⟩
        exact (counted_of_step (mem_reached.1 hj).1).resolve_right fun hp => hnew ⟨hp, hj⟩
      · exact (Finset.mem_insert.1 (reached_step_subset_insert hj)).resolve_left hji
    obtain ⟨j, hj, hheavy⟩ := h w (hfive.trans (Finset.card_le_card hsub))
    have hstep := hheavy.step (R := R) i
    exact ⟨j, mem_reached.2 ⟨hstep.rank_le, (mem_reached.1 hj).2⟩, hstep⟩

/-! ### The lock -/

/-- A lock an attempt set on the account lasts an hour from its time on. -/
def Lasts (R : GuessRace n) (s : State n) : Prop :=
  ∀ j, s.phases j = .locked → ∃ lock, s.store.lockouts.get R.account = some lock
    ∧ R.now j + ACCOUNT_FAILURE_WINDOW_SECONDS ≤ lock.lockedUntil

theorem hour_le_duration (level : ℤ) :
    ACCOUNT_FAILURE_WINDOW_SECONDS ≤ accountLadder.duration level := by
  refine le_trans ?_ (Ladder.getElem_le_duration (L := accountLadder) (k := 0) (by decide)
    (by simp))
  decide

theorem lock_account {level : ℤ} (hp : s.phases i = .accountLeveled level) :
    ∃ lock, (R.step s i).store.lockouts.get R.account = some lock
      ∧ R.now i + ACCOUNT_FAILURE_WINDOW_SECONDS ≤ lock.lockedUntil := by
  have hladder := nextLockout_eq accountLadder R.account (some ⟨level, 0⟩) (R.now i)
  have hnext : nextLockout R.account level (R.now i) LOCKOUT_LADDER = _ := hladder
  refine ⟨accountLadder.next (some ⟨level, 0⟩) (R.now i), ?_, ?_⟩
  · simp only [step, hp, lock, LoginStore.lock, store_goto, Dict.get_set, hnext, if_true]
  · exact Int.add_le_add_left (hour_le_duration level) _

theorem keep_account (hp : ∀ level, s.phases i ≠ .accountLeveled level) :
    (R.step s i).store.lockouts.get R.account = s.store.lockouts.get R.account := by
  rcases hq : s.phases i
  case accountLeveled level => exact absurd hq (hp level)
  case ipLeveled level =>
    have hne := ipSubject_ne_accountSubject (R.ip i) R.gate.adminUsername
    simp only [step, hq, lock, LoginStore.lock, store_goto, Dict.get_set]
    exact if_neg hne.symm
  all_goals
    simp only [step, hq]
    try split_ifs
    all_goals rfl

theorem locked_of_step (h : (R.step s i).phases j = .locked) :
    s.phases j = .locked ∨ j = i ∧ ∃ level, s.phases i = .accountLeveled level := by
  by_cases hji : j = i
  · subst hji
    rcases hp : s.phases j <;> simp only [step, hp] at h <;> try split_ifs at h
    all_goals simp_all
  · rw [phases_step_of_ne hji] at h
    exact .inl h

theorem Lasts.step (h : R.Lasts s) (hord : R.LocksInOrder s i) : R.Lasts (R.step s i) := by
  intro j hj
  by_cases hp : ∃ level, s.phases i = .accountLeveled level
  · obtain ⟨level, hp⟩ := hp
    obtain ⟨lock, hget, hlast⟩ := R.lock_account hp
    refine ⟨lock, hget, ?_⟩
    rcases locked_of_step hj with hj | ⟨rfl, -⟩
    · have := hord level hp j hj
      omega
    · exact hlast
  · rw [keep_account (not_exists.1 hp)]
    exact h j ((locked_of_step hj).resolve_right fun hj' => hp hj'.2)

/-! ### An attempt that nothing interrupts -/

@[simp] theorem goto_goto (s : State n) (i : Fin n) (p q : GuessPhase) :
    (s.goto i p).goto i q = s.goto i q := by
  unfold State.goto
  rw [Function.update_idem]

@[simp] theorem lock_goto (s : State n) (i : Fin n) (p : GuessPhase) (lockout : Lockout) :
    lock (s.goto i p) lockout = (lock s lockout).goto i p := rfl

def State.withStore (s : State n) (store : LoginStore) : State n := { s with store }

/-- The count of an address's failures and the lock that may follow. -/
theorem alone_ip (s : State n) (i : Fin n) : ∃ m, Run.final R.step (s.goto i .recorded)
    (List.replicate m i) = (s.withStore (Gate.lockAt s.store (ipSubject (R.ip i))
      (s.store.failuresSince (R.now i - IP_FAILURE_WINDOW_SECONDS) fun a => a.ip = R.ip i)
      IP_FAILURE_THRESHOLD (R.now i) IP_LADDER).1).goto i .ipDone := by
  unfold Gate.lockAt
  by_cases hf : IP_FAILURE_THRESHOLD
      ≤ s.store.failuresSince (R.now i - IP_FAILURE_WINDOW_SECONDS) fun a => a.ip = R.ip i
  · refine ⟨3, ?_⟩
    simp only [List.replicate, Run.final, step, phases_goto_self, goto_goto, store_goto, lock_goto,
      if_pos hf]
    rfl
  · refine ⟨2, ?_⟩
    simp only [List.replicate, Run.final, step, phases_goto_self, goto_goto, store_goto, if_neg hf]
    rfl

theorem alone_account (s : State n) (i : Fin n) : ∃ m p, GuessPhase.rank p = 9 ∧
    Run.final R.step (s.goto i .ipDone) (List.replicate m i)
      = (s.withStore (Gate.lockAt s.store R.account
          (s.store.failuresSince (R.now i - ACCOUNT_FAILURE_WINDOW_SECONDS)
            fun a => a.username = R.gate.adminUsername)
          ACCOUNT_FAILURE_THRESHOLD (R.now i) LOCKOUT_LADDER).1).goto i p := by
  unfold Gate.lockAt
  by_cases hf : ACCOUNT_FAILURE_THRESHOLD
      ≤ s.store.failuresSince (R.now i - ACCOUNT_FAILURE_WINDOW_SECONDS)
        fun a => a.username = R.gate.adminUsername
  · refine ⟨3, .locked, rfl, ?_⟩
    simp only [List.replicate, Run.final, step, phases_goto_self, goto_goto, store_goto, lock_goto,
      if_pos hf]
    rfl
  · refine ⟨2, .finished, rfl, ?_⟩
    simp only [List.replicate, Run.final, step, phases_goto_self, goto_goto, store_goto, if_neg hf]
    rfl

/-- Left alone, an attempt records its failure and sets its locks as a sequential one does. -/
theorem alone_recordFailure (hp : s.phases i = .verified) (reason : RefusalReason) :
    ∃ m p, GuessPhase.rank p = 9 ∧ Run.final R.step s (List.replicate m i)
      = (s.withStore { R.gate.recordFailure s.store R.gate.adminUsername (R.ip i) (R.now i) reason
          with audit := s.store.audit }).goto i p := by
  have hrecord : R.step s i = (s.withStore (s.store.recordAttempt (R.ip i) R.gate.adminUsername
      false (R.now i))).goto i .recorded := by
    simp only [step, hp]
    rfl
  obtain ⟨m, hip⟩ := R.alone_ip (s.withStore (s.store.recordAttempt (R.ip i) R.gate.adminUsername
    false (R.now i))) i
  obtain ⟨m', p, hrank, hacc⟩ := R.alone_account _ i
  refine ⟨1 + m + m', p, hrank, ?_⟩
  rw [List.replicate_add, List.replicate_add, Run.final_append, Run.final_append]
  simp only [List.replicate_one, Run.final, hrecord]
  rw [hip, hacc]
  refine congrArg (fun store => (s.withStore store).goto i p) ?_
  have haudit : ∀ (s : LoginStore) subject failures threshold now ladder,
      (Gate.lockAt s subject failures threshold now ladder).1.audit = s.audit := by
    intro s subject failures threshold now ladder
    unfold Gate.lockAt
    split_ifs <;> rfl
  have hkeep : ∀ (s s' : LoginStore) (e : AuditEntry), s.audit = s'.audit →
      s = { s.recordAudit e with audit := s'.audit } := by
    intro s s' e h
    rw [← h]
    rfl
  unfold Gate.recordFailure
  simp only [if_true]
  exact hkeep _ _ _ ((haudit ..).trans ((haudit ..).trans rfl))

/-! ### The bound -/

structure Inv (R : GuessRace n) (s : State n) : Prop where
  recorded : R.Recorded s
  counted : R.Counted s
  lasts : R.Lasts s
  bound : ∀ w, (R.reached s 1 w).card ≤ ACCOUNT_FAILURE_THRESHOLD

theorem inv_init (R : GuessRace n) : R.Inv R.init := by
  have hempty : ∀ k w, 0 < k → R.reached R.init k w = ∅ := by
    intro k w hk
    refine Finset.filter_eq_empty_iff.2 fun j _ hj => ?_
    exact absurd hj.1 (not_le.2 hk)
  refine ⟨fun w => ?_, fun w hw => ?_, (fun j hj => nomatch hj), fun w => ?_⟩
  · rw [hempty 3 w (by decide)]
    exact Nat.zero_le _
  · rw [hempty 7 w (by decide), Finset.card_empty] at hw
    exact absurd hw (by decide)
  · rw [hempty 1 w (by decide)]
    exact Nat.zero_le _

/-- Where five attempts of an hour are over, the account is locked for the rest of it. -/
theorem Inv.locked_of_over (h : R.Inv s)
    (hfive : ACCOUNT_FAILURE_THRESHOLD ≤ (R.reached s 1 w).card)
    (hover : ∀ j ∈ R.reached s 1 w, 9 ≤ (s.phases j).rank) :
    ∃ lock, s.store.lockouts.get R.account = some lock
      ∧ w + ACCOUNT_FAILURE_WINDOW_SECONDS ≤ lock.lockedUntil := by
  have hsub : R.reached s 1 w ⊆ R.reached s 7 w := by
    intro j hj
    exact mem_reached.2 ⟨(by decide : 7 ≤ 9).trans (hover j hj), (mem_reached.1 hj).2⟩
  obtain ⟨j, hj, hheavy⟩ := h.counted w (hfive.trans (Finset.card_le_card hsub))
  have hrank := hover j (reached_anti (by decide) hj)
  have hlocked : s.phases j = .locked := by
    rcases hp : s.phases j <;> simp_all [Heavy, GuessPhase.rank]
  obtain ⟨lock, hget, hlast⟩ := h.lasts j hlocked
  have hw := (mem_reached.1 hj).2.1
  exact ⟨lock, hget, by omega⟩

theorem Inv.step (h : R.Inv s) (hc : R.Clear s i) : R.Inv (R.step s i) := by
  refine ⟨h.recorded.step i, h.counted.step h.recorded i, h.lasts.step hc.2, fun w => ?_⟩
  by_cases hnew : (s.phases i = .started ∧ R.gate.lockedUntil s.store (R.ip i) (R.now i) = none)
      ∧ i ∈ R.reached (R.step s i) 1 w
  · obtain ⟨⟨hp, hopen⟩, hi⟩ := hnew
    obtain ⟨-, hw, ht⟩ := mem_reached.1 hi
    by_cases hfew : (R.reached s 1 w).card < ACCOUNT_FAILURE_THRESHOLD
    · refine (Finset.card_le_card reached_step_subset_insert).trans ?_
      exact (Finset.card_insert_le _ _).trans hfew
    · -- five are past the locks and over: the account is locked, so this one is not let past
      have hover := (hc.1 hp w hw ht).resolve_left hfew
      obtain ⟨lock, hget, hlast⟩ := h.locked_of_over (not_lt.1 hfew) hover
      have huntil := (Gate.lockedUntil_eq_none.1 hopen).2 lock hget
      omega
  · refine (Finset.card_le_card fun j hj => ?_).trans (h.bound w)
    by_cases hji : j = i
    · subst hji
      refine mem_reached.2 ⟨?_, (mem_reached.1 hj).2⟩
      exact (passed_of_step (mem_reached.1 hj).1).resolve_right fun hp => hnew ⟨hp, hj⟩
    · exact (Finset.mem_insert.1 (reached_step_subset_insert hj)).resolve_left hji

/-- The account lock bounds guessing in every run whose attempts read the locks clear of others
and lock the account in the order of their times. -/
theorem bounded_of_clear (R : GuessRace n) (as : List (Fin n))
    (hclear : Run.Meets R.step R.Clear R.init as) : Run.Always R.step R.Bounded R.init as :=
  Run.always_of_meets (I := R.Inv)
    (fun _ h w => (Finset.card_le_card (reached_anti (by decide))).trans (h.bound w))
    (fun _ _ h hc => h.step hc) as R.inv_init hclear

/-- Attempts at one moment, each from an address of its own. -/
def atOnce (n : ℕ) : GuessRace n := ⟨Guessing.gate, Guessing.emptyLogins, fun _ => 1700000000,
  fun i => "10.0.0." ++ toString i.val⟩

/-- No more than four of them are ever in each other's way. -/
theorem clear_atOnce (hn : n < ACCOUNT_FAILURE_THRESHOLD) (s : State n) (i : Fin n) :
    (atOnce n).Clear s i := by
  refine ⟨fun _ w _ _ => .inl ?_, fun _ _ _ _ => le_rfl⟩
  calc ((atOnce n).reached s 1 w).card ≤ Fintype.card (Fin n) := Finset.card_le_univ _
    _ = n := Fintype.card_fin n
    _ < ACCOUNT_FAILURE_THRESHOLD := hn

/-- Two of them are verified side by side. -/
theorem bounded_twoAtOnce :
    Run.Always (atOnce 2).step (atOnce 2).Bounded (atOnce 2).init [0, 1, 0, 1]
      ∧ ((atOnce 2).reached (Run.final (atOnce 2).step (atOnce 2).init [0, 1, 0, 1]) 2
        1700000000).card = 2 := by
  have hclear : Run.Meets (atOnce 2).step (atOnce 2).Clear (atOnce 2).init [0, 1, 0, 1] :=
    Run.meets_of_invariant (I := fun _ => True) (fun s i _ => clear_atOnce (by decide) s i)
      (fun _ _ _ => trivial) [0, 1, 0, 1] trivial
  exact ⟨bounded_of_clear (atOnce 2) [0, 1, 0, 1] hclear, by decide +kernel⟩

/-- Six attempts read the locks before any of them has failed. -/
theorem sixAtOnce_unbounded : ¬ ∀ (n : ℕ) (R : GuessRace n) (as : List (Fin n)),
    Run.Always R.step R.Bounded R.init as := by
  intro h
  have hbound := (h 6 (atOnce 6) [0, 1, 2, 3, 4, 5, 0, 1, 2, 3, 4, 5]).final _ 1700000000
  exact absurd hbound (by decide +kernel)

end GuessRace

end Rackphone
