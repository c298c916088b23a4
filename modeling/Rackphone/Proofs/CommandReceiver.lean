import Rackphone.CommandReceiver
import Rackphone.Proofs.Settings

/-!
# Who the companion obeys

A broadcast is admitted or counted, and one that is not admitted leaves no other trace, so a run is
the run of what it admitted. The host is admitted as long as the token can be read back from its
file, and a publication that fails locks it out for good.
-/

namespace Rackphone

namespace CommandReceiver

variable {K : KotlinText} {s : App} {b : Broadcast}

/-! ## One broadcast -/

theorem step_refused (h : s.admits b = false) :
    s.step K b = { s with rejected := s.rejected + if b.action.isSome then 1 else 0 } := by
  rcases haction : b.action with _ | action <;>
    simp only [App.admits, App.step, App.onReceive, haction] at h ⊢
  · exact congrArg (App.mk s.toAppState) (Int32.add_zero _).symm
  · simp only [Bool.or_eq_false_iff, Bool.and_eq_false_iff, decide_eq_false_iff_not] at h
    obtain ⟨hsetup, hauth⟩ := h
    have hno : ¬ (action = ACTION_SETUP ∧ s.token = []) := by tauto
    rw [if_neg hno, if_pos hauth]
    rfl

theorem step_setup (htoken : s.token = []) (hb : b.action = some ACTION_SETUP) :
    s.step K b = s.publishToken b (rotateToken b) := by
  simp only [App.step, App.onReceive, hb]
  rw [if_pos ⟨trivial, htoken⟩]

theorem rotateToken_ne_nil (b : Broadcast) : rotateToken b ≠ [] := by
  intro he
  have hbytes := congrArg Hex.decode he
  rw [rotateToken, Hex.decode_encode] at hbytes
  have hlength := b.random.2
  rw [Option.some.inj hbytes] at hlength
  cases hlength

theorem rejectedSends_of_no_command {action : Text} (hb : b.action = some action)
    (h : b.command K s.settings action = none) : b.rejectedSends = 0 := by
  have hsend : action ≠ ACTION_SEND := by
    rintro rfl
    rw [Broadcast.command, if_pos rfl] at h
    cases h
  have hkeepalive : action ≠ ACTION_KEEPALIVE := by
    rintro rfl
    rw [Broadcast.command, if_neg (by decide), if_pos rfl] at h
    cases h
  rw [Broadcast.rejectedSends, hb, if_neg (by simp [hsend, hkeepalive])]

/-- What an admitted broadcast can do. -/
theorem step_admitted (h : s.admits b = true) :
    (b.action = some ACTION_SETUP ∧ ∃ token ≠ [], s.step K b = s.publishToken b token)
      ∨ (b.action = some ACTION_CONFIG
        ∧ s.step K b = { s with settings := applyConfig K s.settings b.extras })
      ∨ (b.action ≠ some ACTION_CONFIG
        ∧ ∃ commands, s.step K b
          = { s with
              performed := s.performed ++ commands
              rejected := s.rejected + Int32.ofNat b.rejectedSends }) := by
  rcases haction : b.action with _ | action <;>
    simp only [App.admits, App.step, App.onReceive, haction] at h ⊢
  · cases h
  · simp only [Bool.or_eq_true, Bool.and_eq_true, decide_eq_true_eq] at h
    simp only [ne_eq, Option.some.injEq]
    by_cases hfirst : action = ACTION_SETUP ∧ s.token = []
    · rw [if_pos hfirst]
      exact .inl ⟨hfirst.1, _, rotateToken_ne_nil b, rfl⟩
    · have hauth : s.authenticates b = true := h.resolve_left hfirst
      rw [if_neg hfirst, if_neg (by simp [hauth])]
      split_ifs with hsetup hfresh hconfig
      · exact .inl ⟨hsetup, _, rotateToken_ne_nil b, rfl⟩
      · exact .inl ⟨hsetup, _, hfresh, rfl⟩
      · exact .inr (.inl ⟨hconfig, rfl⟩)
      · refine .inr (.inr ⟨hconfig, ?_⟩)
        split
        · exact ⟨_, rfl⟩
        · rename_i hcommand
          refine ⟨[], ?_⟩
          rw [rejectedSends_of_no_command haction hcommand, List.append_nil]
          exact congrArg (App.mk s.toAppState) (Int32.add_zero _).symm

/-! ## Strangers -/

theorem onReceive_command {name : Text} {command : Command} (hb : b.action = some name)
    (hauth : s.authenticates b = true) (hsetup : name ≠ ACTION_SETUP)
    (hconfig : name ≠ ACTION_CONFIG) (hcommand : b.command K s.settings name = some command) :
    s.onReceive K b
      = ({ s with
          performed := s.performed ++ [command]
          rejected := s.rejected + Int32.ofNat b.rejectedSends }, none) := by
  rw [App.onReceive, hb]
  simp only [hsetup, hconfig, hauth, hcommand, false_and, Bool.true_eq_false, if_false]

/-- The counter of rejections decides nothing. -/
theorem state_step_congr (K : KotlinText) (s s' : App) (b : Broadcast)
    (h : s.toAppState = s'.toAppState) :
    (s.step K b).toAppState = (s'.step K b).toAppState := by
  obtain ⟨s, n⟩ := s
  obtain ⟨s', n'⟩ := s'
  obtain rfl : s = s' := h
  have hauth : App.authenticates ⟨s, n'⟩ b = App.authenticates ⟨s, n⟩ b := rfl
  rcases haction : b.action with _ | action <;> simp only [App.step, App.onReceive, haction]
  rw [hauth]
  split_ifs
  · rfl
  · rfl
  · rfl
  · rfl
  · rfl
  · split <;> rfl

theorem admits_congr (s s' : App) (b : Broadcast) (h : s.toAppState = s'.toAppState) :
    s.admits b = s'.admits b := by
  obtain ⟨s, n⟩ := s
  obtain ⟨s', n'⟩ := s'
  obtain rfl : s = s' := h
  rfl

theorem state_refused (K : KotlinText) (s : App) (b : Broadcast) (h : s.admits b = false) :
    (s.step K b).toAppState = s.toAppState := by
  rw [step_refused h]

theorem isSome_of_admits (h : s.admits b = true) : b.action.isSome := by
  unfold App.admits at h
  rcases hb : b.action with _ | action
  · rw [hb] at h
    cases h
  · rfl

/-- An admitted broadcast counts no more than the sends it has rejected. -/
theorem rejected_admitted (K : KotlinText) (h : s.admits b = true) :
    (s.step K b).rejected = s.rejected + Int32.ofNat b.rejectedSends := by
  have hzero : ∀ action, b.action = some action → action ≠ ACTION_SEND →
      action ≠ ACTION_KEEPALIVE → s.rejected = s.rejected + Int32.ofNat b.rejectedSends := by
    intro action hb hsend hkeepalive
    rw [Broadcast.rejectedSends, hb, if_neg (by simp [hsend, hkeepalive])]
    exact (Int32.add_zero _).symm
  rcases step_admitted (K := K) h with ⟨hb, token, -, hs⟩ | ⟨hb, hs⟩ | ⟨-, commands, hs⟩ <;>
    rw [hs]
  · exact hzero _ hb (by decide) (by decide)
  · exact hzero _ hb (by decide) (by decide)

/-- Every broadcast that names an action is admitted or counted. -/
theorem rejected_final (K : KotlinText) : ∀ (s : App) (bs : List Broadcast),
    ∃ counted, counted + (Run.admitted (App.step K) App.admits s bs).length
        = bs.countP (fun b => b.action.isSome)
      ∧ (Run.final (App.step K) s bs).rejected = s.rejected + Int32.ofNat (counted
        + ((Run.admitted (App.step K) App.admits s bs).map Broadcast.rejectedSends).sum)
  | s, [] => ⟨0, rfl, (Int32.add_zero _).symm⟩
  | s, b :: bs => by
    obtain ⟨counted, hcounted, hrejected⟩ := rejected_final K (s.step K b) bs
    rw [Run.final_cons, Run.admitted, List.countP_cons, hrejected]
    rcases h : s.admits b with _ | _
    · have hstep := congrArg App.rejected (step_refused (K := K) h)
      rw [if_neg Bool.false_ne_true, hstep]
      refine ⟨counted + if b.action.isSome then 1 else 0, by omega, ?_⟩
      split_ifs <;> grind [Int32.ofNat_add]
    · rw [if_pos rfl, if_pos (isSome_of_admits h), rejected_admitted K h, List.length_cons,
        List.map_cons, List.sum_cons]
      refine ⟨counted, by omega, ?_⟩
      grind [Int32.ofNat_add]

/-- However the broadcasts of strangers fall between those of the host, the app is left as the
host's alone leave it, and each of them is counted. -/
theorem final_eq_admitted (K : KotlinText) (s : App) (bs : List Broadcast) :
    (Run.final (App.step K) s bs).toAppState
        = (Run.final (App.step K) s (Run.admitted (App.step K) App.admits s bs)).toAppState
      ∧ ∃ counted, counted + (Run.admitted (App.step K) App.admits s bs).length
          = bs.countP (fun b => b.action.isSome)
        ∧ (Run.final (App.step K) s bs).rejected = s.rejected + Int32.ofNat (counted
          + ((Run.admitted (App.step K) App.admits s bs).map Broadcast.rejectedSends).sum) := by
  have hstate := Run.final_admitted (state_step_congr K) admits_congr (state_refused K) s bs
  exact ⟨hstate.symm, rejected_final K s bs⟩

/-! ## Settings -/

theorem getD_read {α : Type*} (f : α → Value) (m : α → α) (g : Text → Option α) (o : Option Text)
    (d : α) : f (((o.bind g).map m).getD d)
      = (o.bind fun t => (g t).map fun v => f (m v)).getD (f d) := by
  rcases o with _ | t
  · rfl
  · rw [Option.bind_some, Option.bind_some]
    cases g t <;> rfl

theorem getD_text (m : Text → Text) (o : Option Text) (d : Text) :
    Value.text ((o.map m).getD d) = (o.bind fun t => some (.text (m t))).getD (.text d) := by
  cases o <;> rfl

/-- One setting after a patch: what was sent for it, where that can be read. -/
theorem get_applyConfig (K : KotlinText) (c : AppSettings) (x : Extras) (key : Key) :
    (applyConfig K c x).get key
      = ((x key.extra).bind fun t => key.read K t).getD (c.get key) := by
  have hbool : ∀ (k : Text) (d : Bool), Value.bool (((x k).bind (readBool K)).getD d)
      = ((x k).bind fun t => (readBool K t).map .bool).getD (.bool d) := fun k d => by
    simpa using getD_read Value.bool id (readBool K) (x k) d
  have hint : ∀ (k : Text) (m : ℤ → ℤ) (d : ℤ),
      Value.int ((((x k).bind (readInt K)).map m).getD d)
        = ((x k).bind fun t => (readInt K t).map fun n => .int (m n)).getD (.int d) :=
    fun k m d => getD_read Value.int m (readInt K) (x k) d
  cases key
  case keepaliveEnabled | collectSms | collectCalls | collectNotifications | includeBody =>
    exact hbool _ _
  case keepaliveIntervalHours | balanceIntervalHours | inboxCap => exact hint _ _ _
  case keepaliveTo | keepaliveSubs | balanceCode => exact getD_text _ _ _
  case subId =>
    have h : Value.int (((x EXTRA_SUB).bind (readInt K)).getD c.subId)
        = ((x EXTRA_SUB).bind fun t => (readInt K t).map .int).getD (.int c.subId) := by
      simpa using hint EXTRA_SUB id c.subId
    exact h
  case keepaliveBody =>
    have h : ∀ (k : Text) (d : Text), Value.text ((x k).getD d)
        = ((x k).bind fun t => some (.text t)).getD (.text d) := fun k d => by
      simpa using getD_text id (x k) d
    exact h _ _

theorem settings_step (K : KotlinText) (h : s.admits b = true) :
    (s.step K b).settings
      = if b.action = some ACTION_CONFIG then applyConfig K s.settings b.extras
        else s.settings := by
  rcases step_admitted (K := K) h with ⟨hb, token, -, hs⟩ | ⟨hb, hs⟩ | ⟨hb, commands, hs⟩ <;>
    rw [hs]
  · rw [hb, if_neg (by decide)]
    rfl
  · rw [if_pos hb]
  · rw [if_neg hb]

/-- The values a setting was sent, in the order they came. -/
def sent (K : KotlinText) (key : Key) (xs : List Extras) : List Value :=
  xs.filterMap fun x => (x key.extra).bind fun t => key.read K t

theorem sent_cons (key : Key) (x : Extras) (xs : List Extras) (v : Value) :
    (sent K key (x :: xs)).getLast?.getD v
      = (sent K key xs).getLast?.getD (((x key.extra).bind fun t => key.read K t).getD v) := by
  rw [sent, List.filterMap_cons]
  rcases (x key.extra).bind fun t => key.read K t with _ | w
  · rfl
  · show (w :: sent K key xs).getLast?.getD v = (sent K key xs).getLast?.getD w
    rw [List.getLast?_cons, Option.getD_some]

theorem configs_cons (b : Broadcast) (bs : List Broadcast) :
    configs (b :: bs)
      = if b.action = some ACTION_CONFIG then b.extras :: configs bs else configs bs := by
  rw [configs, List.filterMap_cons]
  split_ifs <;> rfl

/-- A setting is the last readable value that an admitted `CONFIG` carried for it. -/
theorem get_final (K : KotlinText) (key : Key) : ∀ (s : App) (bs : List Broadcast),
    (Run.final (App.step K) s bs).settings.get key
      = (sent K key (configs (Run.admitted (App.step K) App.admits s bs))).getLast?.getD
          (s.settings.get key)
  | _, [] => rfl
  | s, b :: bs => by
    have ih := get_final K key (s.step K b) bs
    rw [Run.final_cons, ih, Run.admitted]
    rcases h : s.admits b with _ | _
    · rw [step_refused h, if_neg Bool.false_ne_true]
    · rw [if_pos rfl, settings_step K h, configs_cons]
      split_ifs
      · rw [get_applyConfig, sent_cons]
      · rfl

theorem clampInterval_range (n : ℤ) : 1 ≤ clampInterval n ∧ clampInterval n ≤ 8760 := by
  unfold clampInterval
  omega

theorem getD_map_of {α β : Type*} {p : β → Prop} {m : α → β} (hm : ∀ a, p (m a)) {d : β}
    (hd : p d) (o : Option α) : p ((o.map m).getD d) := by
  cases o
  · exact hd
  · exact hm _

theorem inRange_applyConfig (K : KotlinText) {c : AppSettings} (h : c.InRange) (x : Extras) :
    (applyConfig K c x).InRange where
  keepaliveInterval := getD_map_of (p := fun n : ℤ => 1 ≤ n ∧ n ≤ 8760) clampInterval_range
    h.keepaliveInterval _
  balanceInterval := getD_map_of (p := fun n : ℤ => 1 ≤ n ∧ n ≤ 8760) clampInterval_range
    h.balanceInterval _
  inboxCap := getD_map_of (p := fun n : ℤ => 1 ≤ n) (fun n => le_max_left 1 n) h.inboxCap _

theorem inRange_step (K : KotlinText) (s : App) (b : Broadcast) (hs : s.settings.InRange) :
    (s.step K b).settings.InRange := by
  rcases h : s.admits b with _ | _
  · rwa [step_refused h]
  · rw [settings_step K h]
    split_ifs
    · exact inRange_applyConfig K hs b.extras
    · exact hs

theorem inRange_fresh : AppSettings.fresh.InRange := by
  constructor <;> decide

/-- From the installation on, a setting is the last readable value that an admitted `CONFIG` carried
for it, and the numbers are in range. -/
theorem settings_of_run (K : KotlinText) (bs : List Broadcast) :
    (∀ key, (Run.final (App.step K) .fresh bs).settings.get key
      = (sent K key (configs (Run.admitted (App.step K) App.admits .fresh bs))).getLast?.getD
          (AppSettings.fresh.get key))
      ∧ (Run.final (App.step K) .fresh bs).settings.InRange :=
  ⟨fun key => get_final K key .fresh bs,
    Run.final_of_invariant (I := fun s : App => s.settings.InRange) (inRange_step K) bs
      inRange_fresh⟩

/-! ## The host -/

/-- The file mirrors the token. -/
def App.InSync (s : App) : Prop :=
  s.tokenFile = if s.token = [] then none else some (s.token ++ ['\n'])

def isClean (t : Text) : Prop := ∀ c ∈ t, isKept c = true

theorem isClean_rotateToken (b : Broadcast) : isClean (rotateToken b) := by
  intro c hc
  obtain ⟨byte, -, hc⟩ := List.mem_flatMap.1 hc
  have hbyte := byte.toNat_lt
  have hdigit : ∀ d < 16, isKept (Nat.digitChar d) = true := by decide
  rcases List.mem_cons.1 hc with rfl | hc
  · exact hdigit _ (by omega)
  · rw [List.mem_singleton] at hc
    exact hc ▸ hdigit _ (by omega)

theorem inSync_step (K : KotlinText) (s : App) (b : Broadcast) (hs : s.InSync)
    (hb : b.failure = none) : (s.step K b).InSync := by
  rcases h : s.admits b with _ | _
  · rw [step_refused h]
    exact hs
  · rcases step_admitted (K := K) h with ⟨-, token, htoken, hstep⟩ | ⟨-, hstep⟩ | ⟨-, cs, hstep⟩ <;>
      rw [hstep]
    · rw [App.InSync, App.publishToken, hb]
      simp [htoken]
    · exact hs
    · exact hs

theorem inSync_final (K : KotlinText) {bs : List Broadcast} (hbs : ∀ b ∈ bs, b.failure = none) :
    (Run.final (App.step K) .fresh bs).InSync :=
  (Run.always_of_allowed (P := App.InSync) (fun _ h => h)
    (fun s b h hb => inSync_step K s b h hb) bs (show App.fresh.InSync from rfl) hbs).final bs

theorem appToken_of_inSync (hs : s.InSync) :
    s.appToken = s.token.filter isKept := by
  rw [App.appToken, hs]
  split_ifs with h
  · rw [h]
    rfl
  · simp [List.filter_append, isKept]

theorem filter_eq_self_iff_isClean {t : Text} :
    t.filter isKept = t ↔ isClean t :=
  List.filter_eq_self

theorem extrasOf_token {args : List (Text × Text)} (h : ∀ a ∈ args, a.1 ≠ EXTRA_TOKEN) (t : Text) :
    extrasOf ((EXTRA_TOKEN, t) :: args) EXTRA_TOKEN = some t := by
  have hnone : KeyLines.lastValue EXTRA_TOKEN args = none := KeyLines.lastValue_eq_none.2 h
  rw [extrasOf, ← List.singleton_append, KeyLines.lastValue_append, hnone,
    KeyLines.lastValue_singleton]
  rfl

theorem admits_hostBroadcast (s : App) (c : HostCommand) :
    s.admits (s.hostBroadcast c.action c.args c.toChance) = true
      ↔ (s.token = [] ∧ c.action = "SETUP".toList) ∨ (s.token ≠ [] ∧ s.appToken = s.token) := by
  have haction : PKG ++ '.' :: c.action = ACTION_SETUP ↔ c.action = "SETUP".toList := by
    rw [ACTION_SETUP]
    constructor
    · intro h
      have h' := List.append_cancel_left h
      exact (List.cons.inj h').2
    · intro h
      rw [h]
      rfl
  rw [App.admits, App.authenticates]
  simp only [App.hostBroadcast, extrasOf_token c.no_token, Bool.or_eq_true, Bool.and_eq_true,
    decide_eq_true_eq, Option.some.injEq, haction]
  tauto

/-- As long as every publication reaches its file, the host is admitted unless the token it gave has
a line break or a NUL. -/
theorem host_admitted_iff (K : KotlinText) {bs : List Broadcast} (hbs : ∀ b ∈ bs, b.failure = none)
    {s : App} (hs : s = Run.final (App.step K) .fresh bs) (c : HostCommand) :
    s.admits (s.hostBroadcast c.action c.args c.toChance) = true
      ↔ (s.token = [] ∧ c.action = "SETUP".toList) ∨ (s.token ≠ [] ∧ isClean s.token) := by
  have hsync : s.InSync := hs ▸ inSync_final K hbs
  rw [admits_hostBroadcast, appToken_of_inSync hsync, filter_eq_self_iff_isClean]

/-- Kotlin's functions on ASCII. -/
def asciiKotlin : KotlinText where
  toKotlinChars := asciiChars
  lowercase := List.map Char.toLower
  digitOf c := if c.isDigit then some (c.toNat - 48) else none

def zeros : Chance := ⟨⟨List.replicate 24 0, rfl⟩, [], 0, none⟩

def firstSetup : Broadcast := ⟨zeros, some ACTION_SETUP, fun _ => none⟩

def askStatus : HostCommand := ⟨zeros, "STATUS".toList, [], List.forall_mem_nil _⟩

theorem firstSetup_published : ∀ b ∈ [firstSetup], b.failure = none := by
  simp [firstSetup, zeros]

theorem first_setup_admits : (App.step asciiKotlin .fresh firstSetup).admits
    ((App.step asciiKotlin .fresh firstSetup).hostBroadcast askStatus.action askStatus.args
      askStatus.toChance) = true :=
  (host_admitted_iff asciiKotlin firstSetup_published rfl askStatus).2
    (.inr ⟨rotateToken_ne_nil firstSetup, isClean_rotateToken firstSetup⟩)

theorem appCmd_lost (K : KotlinText) {s : App} (htoken : s.token ≠ [])
    (hlost : s.appToken ≠ s.token) (c : HostCommand) :
    s.appCmd K c = { s with rejected := s.rejected + 1 } := by
  have hrefused : s.admits (s.hostBroadcast c.action c.args c.toChance) = false := by
    rw [Bool.eq_false_iff, Ne, admits_hostBroadcast]
    tauto
  rw [App.appCmd, step_refused hrefused]
  rfl

theorem final_lost (K : KotlinText) : ∀ {s : App} (cs : List HostCommand), s.token ≠ [] →
    s.appToken ≠ s.token →
      Run.final (App.appCmd K) s cs = { s with rejected := s.rejected + Int32.ofNat cs.length }
  | s, [], _, _ => congrArg (App.mk s.toAppState) (Int32.add_zero _).symm
  | s, c :: cs, htoken, hlost => by
    rw [Run.final_cons, appCmd_lost K htoken hlost,
      final_lost K (s := { s with rejected := s.rejected + 1 }) cs htoken hlost, List.length_cons]
    have hcount : s.rejected + 1 + Int32.ofNat cs.length
        = s.rejected + Int32.ofNat (cs.length + 1) := by grind [Int32.ofNat_add]
    rw [hcount]

theorem performed_askStatus (K : KotlinText) (htoken : s.token ≠ [])
    (hread : s.appToken = s.token) : (s.appCmd K askStatus).performed = s.performed ++ [.status] := by
  have hauth : s.authenticates
      (s.hostBroadcast askStatus.action askStatus.args askStatus.toChance) = true := by
    have htext := extrasOf_token askStatus.no_token s.token
    simp only [App.authenticates, App.hostBroadcast, hread, htext, htoken, decide_true, ne_eq,
      not_false_eq_true, Bool.and_self]
  have hstatus := onReceive_command (K := K) rfl hauth
    (by decide : ACTION_STATUS ≠ ACTION_SETUP) (by decide) rfl
  rw [App.appCmd, App.step, hstatus]

/-- A token whose publication failed cannot be replaced by the host: nothing it sends is carried out
again. -/
theorem host_locked_out_iff (K : KotlinText) {s : App} (htoken : s.token ≠ []) :
    (∀ cs : List HostCommand, Run.final (App.appCmd K) s cs
        = { s with rejected := s.rejected + Int32.ofNat cs.length })
      ↔ s.appToken ≠ s.token := by
  refine ⟨fun h hread => ?_, fun h cs => final_lost K cs htoken h⟩
  have hperformed := congrArg (fun s : App => s.performed) (h [askStatus])
  rw [Run.final_cons, Run.final_nil, performed_askStatus K htoken hread] at hperformed
  simp at hperformed

/-- A token whose file could not be written. -/
def unpublished : App := { App.fresh with token := ['a'] }

theorem unpublished_lost : unpublished.appToken ≠ unpublished.token
    ∧ ∀ cs : List HostCommand, Run.final (App.appCmd asciiKotlin) unpublished cs
      = { unpublished with rejected := unpublished.rejected + Int32.ofNat cs.length } :=
  ⟨by decide, (host_locked_out_iff asciiKotlin (by decide)).2 (by decide)⟩

end CommandReceiver

end Rackphone
