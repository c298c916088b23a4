import Rackphone.Keepalive
import Rackphone.Lib.Run

/-!
# An alarm that fires sends, unless the SIM has never sent

A subscription with a success on record has a run time that no clock moves, so an alarm armed for
it finds it due. Without one the run time is an interval away from whenever it is computed, and
every unforced pass skips the subscription.
-/

namespace Rackphone

theorem KeepaliveConfig.hour_le_interval (config : KeepaliveConfig) :
    HOUR_MS ≤ config.keepaliveIntervalMs := by
  have h := config.interval_mem.1
  unfold KeepaliveConfig.keepaliveIntervalMs HOUR_MS
  unfold MIN_INTERVAL_HOURS at h
  omega

namespace Keepalive

variable {phone : Phone} {config : KeepaliveConfig} {force : Bool} {sub now : ℤ}

theorem runAtFor_of_success (h : 0 < config.lastSuccessMs sub) (now t : ℤ) :
    runAtFor config sub now = runAtFor config sub t := by
  have hnle : ¬ config.lastSuccessMs sub ≤ 0 := not_le.2 h
  simp only [runAtFor, nextRunAt, nextDueAt, if_neg hnle]

theorem slack_lt_runAtFor (h : config.lastSuccessMs sub ≤ 0) (now : ℤ) :
    now + SLACK_MS < runAtFor config sub now := by
  refine lt_of_lt_of_le ?_ (le_max_left _ _)
  have hour := config.hour_le_interval
  unfold nextDueAt
  rw [if_pos h]
  unfold HOUR_MS at hour
  unfold SLACK_MS
  omega

theorem runAtFor_recordAttempt {s : ℤ} (hne : sub ≠ s) (atMs : ℤ) :
    runAtFor (config.recordAttempt s atMs) sub now = runAtFor config sub now := by
  simp only [runAtFor, KeepaliveConfig.recordAttempt, KeepaliveConfig.keepaliveIntervalMs,
    Function.update_of_ne hne]

@[simp] theorem subId_sendFor (phone : Phone) (config : KeepaliveConfig) (sub : ℤ) :
    (sendFor phone config sub).request.subId = sub := by
  unfold sendFor
  simp only []
  split_ifs <;> rfl

/-- The loop attempts what is due when it starts: an attempt on one subscription changes no
other's run time. -/
theorem mem_fireAll : ∀ {config : KeepaliveConfig} {subs : List ℤ},
    (∃ a ∈ (fireAll phone force now config subs).2, a.request.subId = sub) ↔
      sub ∈ subs ∧ (force = true ∨ runAtFor config sub now ≤ now + SLACK_MS)
  | config, [] => by simp [fireAll]
  | config, s :: subs => by
    unfold fireAll
    split_ifs with hskip
    · simp only [Bool.and_eq_true, Bool.not_eq_true', decide_eq_true_eq] at hskip
      rw [mem_fireAll, List.mem_cons]
      refine ⟨fun h => ⟨.inr h.1, h.2⟩, fun ⟨hmem, hdue⟩ => ⟨hmem.resolve_left ?_, hdue⟩⟩
      rintro rfl
      rcases hdue with hf | hdue
      · rw [hskip.1] at hf
        cases hf
      · exact absurd hskip.2 (not_lt.2 hdue)
    · have hdue : force = true ∨ runAtFor config s now ≤ now + SLACK_MS := by
        rcases hf : force with _ | _
        · simpa [hf] using hskip
        · exact .inl rfl
      simp only [List.mem_cons, exists_eq_or_imp, subId_sendFor]
      by_cases hs : sub = s
      · simp [hs, hdue]
      · rw [mem_fireAll, runAtFor_recordAttempt hs]
        simp [hs, Ne.symm hs]

theorem schedule_eq_some {a : ℤ} (h : schedule phone config now = some a) (hsub : sub ∈ phone.subs)
    (hmin : ∀ s ∈ phone.subs, runAtFor config sub now ≤ runAtFor config s now) :
    config.keepaliveEnabled = true ∧ runAtFor config sub now ≤ a := by
  have hleast : (phone.subs.map fun s => runAtFor config s now).min?
      = some (runAtFor config sub now) := by
    rw [List.min?_eq_some_iff]
    refine ⟨List.mem_map_of_mem hsub, fun r hr => ?_⟩
    obtain ⟨s, hs, rfl⟩ := List.mem_map.1 hr
    exact hmin s hs
  unfold schedule at h
  split_ifs at h with hen
  simp only [hleast, Option.getD_some, Option.some.injEq] at h
  exact ⟨by simpa using hen, h ▸ le_max_left _ _⟩

theorem attempted_fire (hen : config.keepaliveEnabled = true) {later : ℤ} :
    (fire phone config force now later).Attempted sub ↔
      sub ∈ phone.subs ∧ (force = true ∨ runAtFor config sub now ≤ now + SLACK_MS) := by
  unfold fire
  rw [hen, Bool.not_true, Bool.and_false]
  exact mem_fireAll

/-- A SIM with no success on record is attempted by no unforced pass, at any time. -/
theorem not_attempted_of_no_success (h : config.lastSuccessMs sub ≤ 0) (now later : ℤ) :
    ¬ (fire phone config false now later).Attempted sub := by
  by_cases hen : config.keepaliveEnabled = true
  · rw [attempted_fire hen]
    rintro ⟨-, hf | hdue⟩
    · cases hf
    · exact absurd (slack_lt_runAtFor h now) (not_lt.2 hdue)
  · simp [fire, hen, Fired.Attempted]

theorem lastSuccessMs_fireAll : ∀ (config : KeepaliveConfig) (subs : List ℤ),
    (fireAll phone force now config subs).1.lastSuccessMs = config.lastSuccessMs
  | config, [] => rfl
  | config, s :: subs => by
    unfold fireAll
    split_ifs
    · exact lastSuccessMs_fireAll config subs
    · exact lastSuccessMs_fireAll (config.recordAttempt s now) subs

theorem lastSuccessMs_fire (phone : Phone) (config : KeepaliveConfig) (force : Bool)
    (now later : ℤ) :
    (fire phone config force now later).config.lastSuccessMs = config.lastSuccessMs := by
  unfold fire
  split_ifs
  · rfl
  · exact lastSuccessMs_fireAll config phone.subs

theorem lastAttemptMs_fireAll : ∀ (config : KeepaliveConfig) (subs : List ℤ),
    (fireAll phone force now config subs).1.lastAttemptMs sub
      = if ∃ a ∈ (fireAll phone force now config subs).2, a.request.subId = sub then now
        else config.lastAttemptMs sub
  | config, [] => by simp [fireAll]
  | config, s :: subs => by
    by_cases hskip : (!force && decide (now + SLACK_MS < runAtFor config s now)) = true
    · rw [fireAll, if_pos hskip]
      exact lastAttemptMs_fireAll config subs
    · rw [fireAll, if_neg hskip]
      simp only [List.mem_cons, exists_eq_or_imp, subId_sendFor]
      rw [lastAttemptMs_fireAll (config.recordAttempt s now) subs]
      by_cases hs : s = sub
      · simp [KeepaliveConfig.recordAttempt, hs]
      · simp [KeepaliveConfig.recordAttempt, hs, Function.update_of_ne (Ne.symm hs)]

/-- A pass records its time for the subscriptions it attempts and for no others. -/
theorem lastAttemptMs_fire (phone : Phone) (config : KeepaliveConfig) (force : Bool)
    (now later sub : ℤ) :
    (fire phone config force now later).config.lastAttemptMs sub
      = if (fire phone config force now later).Attempted sub then now
        else config.lastAttemptMs sub := by
  by_cases hoff : (!force && !config.keepaliveEnabled) = true
  · rw [fire, if_pos hoff]
    simp [Fired.Attempted]
  · rw [fire, if_neg hoff]
    exact lastAttemptMs_fireAll config phone.subs

theorem intervalHours_fireAll : ∀ (config : KeepaliveConfig) (subs : List ℤ),
    (fireAll phone force now config subs).1.keepaliveIntervalHours = config.keepaliveIntervalHours
  | config, [] => rfl
  | config, s :: subs => by
    unfold fireAll
    split_ifs
    · exact intervalHours_fireAll config subs
    · exact intervalHours_fireAll (config.recordAttempt s now) subs

theorem intervalHours_fire (phone : Phone) (config : KeepaliveConfig) (force : Bool)
    (now later : ℤ) :
    (fire phone config force now later).config.keepaliveIntervalHours
      = config.keepaliveIntervalHours := by
  unfold fire
  split_ifs
  · rfl
  · exact intervalHours_fireAll config phone.subs

/-- In every run, a SIM for which no success comes in is attempted by no unforced pass. -/
theorem not_attempted_in_run (config : KeepaliveConfig) (sub : ℤ) (events : List Event)
    (hnone : config.lastSuccessMs sub ≤ 0)
    (hruns : Run.Meets step (fun _ e => ∀ atMs, e ≠ .success sub atMs) config events) :
    Run.Meets step (fun config e => ∀ phone now later, e = .fire phone false now later →
      ¬ (fire phone config false now later).Attempted sub) config events := by
  refine Run.meets_of_meets (I := fun config => config.lastSuccessMs sub ≤ 0)
    (fun config e h hne => ?_) (fun config e h phone now later _ => ?_) events hnone hruns
  · cases e with
    | fire phone force now later =>
      change (fire phone config force now later).config.lastSuccessMs sub ≤ 0
      rwa [lastSuccessMs_fire]
    | success s atMs =>
      have hs : sub ≠ s := by
        rintro rfl
        exact hne atMs rfl
      change Function.update config.lastSuccessMs s atMs sub ≤ 0
      rwa [Function.update_of_ne hs]
    | setIntervalHours hours => exact h
  · exact not_attempted_of_no_success h now later

/-- An alarm armed for the subscription due first attempts it, at any time from then on, exactly
where a success is on record for it. -/
theorem alarm_attempts_first {a t later : ℤ} (harm : schedule phone config now = some a)
    (hsub : sub ∈ phone.subs)
    (hfirst : ∀ s ∈ phone.subs, runAtFor config sub now ≤ runAtFor config s now) (ht : a ≤ t) :
    (fire phone config false t later).Attempted sub ↔ 0 < config.lastSuccessMs sub := by
  obtain ⟨hen, hle⟩ := schedule_eq_some harm hsub hfirst
  constructor
  · intro hatt
    by_contra hno
    exact not_attempted_of_no_success (not_lt.1 hno) t later hatt
  · intro hsucc
    refine (attempted_fire hen).2 ⟨hsub, .inr ?_⟩
    rw [runAtFor_of_success hsucc t now]
    unfold SLACK_MS
    omega

def twoSims : Phone := ⟨[1, 2], fun _ => some "900", fun _ => "ka-0"⟩

/-- A monthly keepalive, with what the first SIM last sent. -/
def monthly (lastSuccessMs : ℤ) : KeepaliveConfig where
  keepaliveEnabled := true
  keepaliveIntervalHours := 720
  keepaliveBody := "rackphone keepalive"
  lastSuccessMs sub := if sub = 1 then lastSuccessMs else 0
  lastAttemptMs _ := 0
  interval_mem := by constructor <;> decide

theorem alarm_attempts_sent :
    (fire twoSims (monthly 5) false (720 * HOUR_MS + 5) (720 * HOUR_MS + 6)).Attempted 1 ↔
      0 < (monthly 5).lastSuccessMs 1 :=
  @alarm_attempts_first twoSims (monthly 5) 1 10 (720 * HOUR_MS + 5) _ _ (by decide) (by decide)
    (by decide) le_rfl

/-- Two SIMs that have never sent: the alarm fires a month later and sends nothing. -/
theorem alarm_skips_neverSent :
    schedule twoSims (monthly 0) 10 = some (720 * HOUR_MS + 10) ∧
      (∀ s ∈ twoSims.subs, runAtFor (monthly 0) 1 10 ≤ runAtFor (monthly 0) s 10) ∧
      ¬ (fire twoSims (monthly 0) false (720 * HOUR_MS + 10) (720 * HOUR_MS + 11)).Attempted 1 := by
  decide

end Keepalive

end Rackphone
