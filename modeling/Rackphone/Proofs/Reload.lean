import Rackphone.Lib.Numeral
import Rackphone.Proofs.CommandReceiver

/-!
# The settings of the app and of the unit

Whatever is set and unset, the value that is effective for a setting of the companion is one its
declaration accepts, and the app reads an accepted value as what it stands for.
-/

namespace Rackphone

/-! ## Accepted values -/

/-- The values a declaration has in mind. -/
def Setting.Accepts (setting : Setting) (v : List Char) : Prop :=
  match setting.valueType with
  | .bool => ∃ b, v = CommandReceiver.boolText b
  | .int => ∃ n, v = CommandReceiver.intText n ∧ (∀ m ∈ setting.minimum, m ≤ n)
      ∧ ∀ m ∈ setting.maximum, n ≤ m
  | .enum => ∃ u ∈ setting.allowedValues, v = u.toList
  | .string => '\n' ∉ v

theorem accepts_of_validate {P : PythonStr} {setting : Setting} {raw value : String}
    (h : setting.validate P raw = .ok value) (hline : '\n' ∉ value.toList) :
    setting.Accepts value.toList := by
  unfold Setting.validate at h
  unfold Setting.Accepts
  rcases htype : setting.valueType <;> simp only [htype] at h ⊢
  case bool =>
    split_ifs at h
    · obtain rfl := Except.ok.inj h
      exact ⟨true, rfl⟩
    · obtain rfl := Except.ok.inj h
      exact ⟨false, rfl⟩
  case int =>
    split at h
    · cases h
    · rename_i number _
      split at h
      · cases h
      · rename_i hmin
        split at h
        · cases h
        · rename_i hmax
          obtain rfl := Except.ok.inj h
          refine ⟨number, rfl, fun m hm => ?_, fun m hm => ?_⟩
          · simpa using Option.filter_eq_none_iff.1 hmin m hm
          · simpa using Option.filter_eq_none_iff.1 hmax m hm
  case enum =>
    split_ifs at h with hmem
    obtain rfl := Except.ok.inj h
    exact ⟨_, hmem, rfl⟩
  case string => exact hline

theorem Setting.Accepts.line {setting : Setting} {v : List Char} (h : setting.Accepts v) :
    '\n' ∉ v := by
  unfold Setting.Accepts at h
  split at h
  · obtain ⟨b, rfl⟩ := h
    cases b <;> decide
  · obtain ⟨n, rfl, -⟩ := h
    exact Device.newline_not_mem_toString n
  · obtain ⟨u, hu, rfl⟩ := h
    exact setting.one_line u (List.mem_cons_of_mem _ hu)
  · exact h

namespace CommandReceiver

theorem accepts_text (setting : Setting) (h : setting.valueType = .string) :
    setting.Accepts setting.default.toList := by
  unfold Setting.Accepts
  rw [h]
  exact setting.one_line _ List.mem_cons_self

theorem accepts_number {setting : Setting} {low high n : ℤ} (h : setting.valueType = .int)
    (hmin : setting.minimum = some low) (hmax : setting.maximum = some high) (hlow : low ≤ n)
    (hhigh : n ≤ high) : setting.Accepts (intText n) := by
  unfold Setting.Accepts
  rw [h, hmin, hmax]
  exact ⟨n, rfl, fun m hm => Option.some.inj hm ▸ hlow, fun m hm => Option.some.inj hm ▸ hhigh⟩

theorem accepts_default : ∀ setting ∈ pluginSettings, setting.Accepts setting.default.toList := by
  simp only [pluginSettings, List.forall_mem_cons]
  refine ⟨⟨true, rfl⟩, ⟨true, rfl⟩, ⟨false, rfl⟩, ⟨true, rfl⟩, ?_, ⟨false, rfl⟩,
    accepts_text _ rfl, ?_, ⟨"all", List.mem_cons_self, rfl⟩, accepts_text _ rfl,
    accepts_text _ rfl, ?_, by simp⟩
  · exact accepts_number (n := 2000) rfl rfl rfl (by decide) (by decide)
  · exact accepts_number (n := 720) rfl rfl rfl (by decide) (by decide)
  · exact accepts_number (n := 24) rfl rfl rfl (by decide) (by decide)

/-! ## The layers of the unit -/

/-- No layer holds anything else of the companion's. -/
structure Layers (unit : Device) : Prop where
  plugin : unit.plugins "companion" = some plugin
  prop : ∀ setting ∈ pluginSettings, unit.getprop (nameOf setting) = []
    ∨ setting.Accepts (unit.getprop (nameOf setting))
  config : ∀ setting ∈ pluginSettings, unit.configValue (nameOf setting) = []
    ∨ setting.Accepts (unit.configValue (nameOf setting))

variable {unit : Device}

theorem layers_installed {plugins : String → Option Plugin}
    (h : plugins "companion" = some plugin) : Layers (installed plugins) :=
  ⟨h, fun _ _ => .inl rfl, fun _ _ => .inl rfl⟩

theorem accepts_effective (h : Layers unit) {setting : Setting} (hmem : setting ∈ pluginSettings) :
    setting.Accepts (unit.effective (nameOf setting)) := by
  have hdefault : Device.defaultValue plugin (nameOf setting) = setting.default.toList :=
    defaultValue_eq hmem rfl
  rw [unit.effective_eq (nameOf setting) h.plugin, hdefault]
  split_ifs with hprop hconfig
  · exact (h.prop setting hmem).resolve_left hprop
  · exact (h.config setting hmem).resolve_left hconfig
  · exact accepts_default setting hmem

theorem layers_change {P : PythonStr} (c : Change) (h : Layers unit) (hc : Validated P unit c) :
    Layers (change unit c) := by
  cases c with
  | set name value =>
    rcases hset : unit.setValue name value with _ | unit'
    · simpa only [change, hset, Option.getD_none] using h
    · simp only [change, hset, Option.getD_some]
      have hline : '\n' ∉ value.toList := by
        rcases hplugin : unit.plugins name.module with _ | plugin'
        · simp [Device.setValue, hplugin] at hset
        · obtain ⟨-, -, -, -, hline⟩ := hc plugin' hplugin
          exact hline
      obtain ⟨hplugins, hconfig, hother, hself⟩ := Device.setValue_spec hset hline
      -- what is set for a key of the companion's is what its own declaration accepts
      have haccepts : ∀ setting ∈ pluginSettings, nameOf setting = name →
          setting.Accepts value.toList := by
        rintro setting hmem rfl
        obtain ⟨setting', hmem', hkey, ⟨raw, hraw⟩, -⟩ := hc plugin h.plugin
        have hsame : setting' = setting :=
          List.inj_on_of_nodup_map pluginSettings_nodup hmem' hmem hkey
        exact hsame ▸ accepts_of_validate hraw hline
      refine ⟨hplugins ▸ h.plugin, fun setting hmem => ?_, fun setting hmem => ?_⟩
      · by_cases hname : nameOf setting = name
        · rw [hname, hself]
          split_ifs
          · exact .inl rfl
          · exact .inr (haccepts setting hmem hname)
          · exact hname ▸ h.prop setting hmem
        · rw [hother _ hname]
          exact h.prop setting hmem
      · by_cases hname : nameOf setting = name
        · rw [hname, Device.configValue_self hconfig]
          exact .inr (haccepts setting hmem hname)
        · rw [Device.configValue_other hname hconfig
            fun line hline => ⟨value.toList, List.mem_singleton.1 hline⟩]
          exact h.config setting hmem
  | unset name =>
    have hconfig : (unit.unsetValue name).config
        = KeyLines.without isShellSpace name.pattern unit.config ++ [] :=
      (List.append_nil _).symm
    refine ⟨h.plugin, fun setting hmem => ?_, fun setting hmem => ?_⟩
    · by_cases hname : nameOf setting = name
      · exact .inl (hname ▸ Device.getprop_deleteprop)
      · rw [show (change unit (.unset name)).getprop (nameOf setting) = _ from
          Device.deleteprop_other hname]
        exact h.prop setting hmem
    · by_cases hname : nameOf setting = name
      · left
        rw [hname, Device.configValue, KeyLines.last]
        exact congrArg (fun l : List (List Char) => l.getLast?.getD [])
          (KeyLines.values_without name.pattern unit.config)
      · rw [change, Device.configValue_other hname hconfig (by simp)]
        exact h.config setting hmem

theorem layers_final {P : PythonStr} {changes : List Change} (h : Layers unit)
    (hvalid : Run.Meets change (Validated P) unit changes) :
    Layers (Run.final change unit changes) :=
  (Run.always_of_meets (P := Layers) (fun _ h => h) (fun _ c h hc => layers_change c h hc) changes h
    hvalid).final changes

/-! ## Reading -/

variable {K : KotlinText}

theorem trim_digits (hK : K.Lawful) {t : Text} (h : ∀ c ∈ t, ∃ d < 10, c = Nat.digitChar d) :
    trim K t = t := by
  refine Lines.strip_of_forall fun c hc => ?_
  obtain ⟨d, hd, rfl⟩ := h c hc
  exact hK.digit_not_whitespace d hd

theorem readBool_boolText (hK : K.Lawful) (b : Bool) : readBool K (boolText b) = some b := by
  have hdigit : ∀ d < 10, K.lowercase (trim K [Nat.digitChar d]) = [Nat.digitChar d] := by
    intro d hd
    rw [trim_digits hK fun c hc => ⟨d, hd, List.mem_singleton.1 hc⟩, hK.lowercase_digit d hd]
  cases b
  · have h : K.lowercase (trim K (boolText false)) = ['0'] := hdigit 0 (by omega)
    simp [readBool, h]
  · have h : K.lowercase (trim K (boolText true)) = ['1'] := hdigit 1 (by omega)
    simp [readBool, h]

theorem digits_of_forall (hK : K.Lawful) : ∀ {t : Text} (n : ℕ),
    (∀ c ∈ t, ∃ d < 10, c = Nat.digitChar d) → digits K n t = some (Nat.ofDigitChars 10 t n)
  | [], _, _ => rfl
  | c :: t, n, h => by
    obtain ⟨⟨d, hd, rfl⟩, ht⟩ := List.forall_mem_cons.1 h
    have hnext : 10 * n + d = 10 * n + ((Nat.digitChar d).toNat - '0'.toNat) := by
      rw [Nat.toNat_digitChar_of_lt_ten hd]
      show 10 * n + d = 10 * n + (48 + d - 48)
      omega
    rw [digits, hK.digitOf_digitChar d hd, Option.bind_some, digits_of_forall hK _ ht,
      Nat.ofDigitChars_cons, ← hnext]

/-- A number is read back where it fits in 32 bits. -/
theorem readInt_natural (hK : K.Lawful) (n : ℕ) :
    readInt K (intText n) = (some (n : ℤ)).filter fun n => n < 2 ^ 31 := by
  have htext : intText n = Nat.toDigits 10 n := by
    show (toString (Int.ofNat n)).toList = Nat.toDigits 10 n
    simp [toString, Int.repr, Nat.repr]
  have hall : ∀ c ∈ Nat.toDigits 10 n, ∃ d < 10, c = Nat.digitChar d :=
    fun c => Numeral.exists_digitChar
  have hdigits : digits K 0 (Nat.toDigits 10 n) = some n := by
    rw [digits_of_forall hK 0 hall, Nat.ofDigitChars_ten_toDigits]
  rw [readInt, htext, trim_digits hK hall]
  unfold toIntOrNull
  rcases ht : Nat.toDigits 10 n with _ | ⟨c, t⟩
  · exact absurd ht (Nat.toDigits_ne_nil)
  · obtain ⟨d, hd, hc⟩ := hall c (ht ▸ List.mem_cons_self)
    have hzero : '0' ≤ c := hc ▸ (by decide : ∀ d < 10, '0' ≤ Nat.digitChar d) d hd
    rw [ht] at hdigits
    simp only [if_pos hzero, hdigits]
    show (some (n : ℤ)).filter _ = _
    simp [Option.filter]

theorem readInt_intText (hK : K.Lawful) {n : ℕ} (hn : n < 2 ^ 31) :
    readInt K (intText n) = some (n : ℤ) := by
  rw [readInt_natural hK]
  exact Option.filter_some_pos (by simpa using mod_cast hn)

/-! ## The whole way -/

theorem configArgs_nodup (unit : Device) (t : Text) :
    (((EXTRA_TOKEN, t) :: configArgs unit).map Prod.fst).Nodup := by
  have hkeys : ((EXTRA_TOKEN, t) :: configArgs unit).map Prod.fst
      = "token".toList :: (pluginSettings.map Setting.key).map String.toList := by
    rw [List.map_cons, configArgs, List.map_map, List.map_map]
    rfl
  rw [hkeys, List.nodup_cons]
  exact ⟨by decide, pluginSettings_nodup.map fun _ _ h => String.toList_injective h⟩

theorem configArgs_no_token (unit : Device) : ∀ a ∈ configArgs unit, a.1 ≠ EXTRA_TOKEN := by
  intro a ha he
  have hnodup := configArgs_nodup unit []
  rw [List.map_cons, List.nodup_cons] at hnodup
  exact hnodup.1 (List.mem_map.2 ⟨a, ha, he⟩)

/-- What the app is sent for a setting. -/
theorem extrasOf_configArgs {unit : Device} (h : Layers unit) {setting : Setting}
    (hmem : setting ∈ pluginSettings) (t : Text) :
    extrasOf ((EXTRA_TOKEN, t) :: configArgs unit) setting.key.toList
      = some (unit.effective (nameOf setting)) := by
  have hcfg : substitute (unit.cfg plugin (nameOf setting)) = unit.effective (nameOf setting) := by
    rw [unit.cfg_eq_effective h.plugin rfl]
    exact substitute_eq_self (accepts_effective h hmem).line
  refine KeyLines.lastValue_of_nodup (configArgs_nodup unit t) (List.mem_cons_of_mem _ ?_)
  rw [← hcfg]
  exact List.mem_map_of_mem hmem

/-- The extras of the `CONFIG`, the token among them. -/
def configExtras (unit : Device) (t : Text) : Extras :=
  extrasOf ((EXTRA_TOKEN, t) :: configArgs unit)

theorem bool_mirrors (hK : K.Lawful) {unit : Device} (h : Layers unit) (t : Text)
    {setting : Setting} (hmem : setting ∈ pluginSettings) (htype : setting.valueType = .bool)
    (b : Bool) :
    unit.effective (nameOf setting)
      = boolText (((configExtras unit t setting.key.toList).bind (readBool K)).getD b) := by
  have haccepts := accepts_effective h hmem
  unfold Setting.Accepts at haccepts
  rw [htype] at haccepts
  obtain ⟨v, hv⟩ := haccepts
  rw [configExtras, extrasOf_configArgs h hmem, hv, Option.bind_some, readBool_boolText hK,
    Option.getD_some]

/-- The bounds the app puts on a number are no closer than those of the declaration. -/
theorem int_mirrors (hK : K.Lawful) {unit : Device} (h : Layers unit) (t : Text)
    {setting : Setting} (hmem : setting ∈ pluginSettings) (htype : setting.valueType = .int)
    {low high : ℤ} (hmin : setting.minimum = some low) (hmax : setting.maximum = some high)
    {m : ℤ → ℤ} (hm : ∀ n, low ≤ n → n ≤ high → m n = n) (hlow : 0 ≤ low) (hhigh : high < 2 ^ 31)
    (n : ℤ) :
    unit.effective (nameOf setting)
      = intText ((((configExtras unit t setting.key.toList).bind (readInt K)).map m).getD n) := by
  have haccepts := accepts_effective h hmem
  unfold Setting.Accepts at haccepts
  rw [htype] at haccepts
  obtain ⟨v, hv, hvmin, hvmax⟩ := haccepts
  have hvlow := hvmin low hmin
  have hvhigh := hvmax high hmax
  obtain ⟨k, rfl⟩ := Int.eq_ofNat_of_zero_le (hlow.trans hvlow)
  rw [configExtras, extrasOf_configArgs h hmem, hv, Option.bind_some,
    readInt_intText hK (by omega), Option.map_some, Option.getD_some, hm _ hvlow hvhigh]

theorem text_mirrors {unit : Device} (h : Layers unit) (t : Text) (setting : Setting)
    (hmem : setting ∈ pluginSettings) (d : Text) :
    ((configExtras unit t setting.key.toList).map (trim K)).getD d
      = trim K (unit.effective (nameOf setting)) := by
  rw [configExtras, extrasOf_configArgs h hmem]
  rfl

theorem mirrors_applyConfig (hK : K.Lawful) {unit : Device} (h : Layers unit) (c : AppSettings)
    (t : Text) : Mirrors K (applyConfig K c (configExtras unit t)) unit := by
  have hinterval : ∀ n : ℤ, 1 ≤ n → n ≤ 8760 → clampInterval n = n := by
    intro n hlow hhigh
    unfold clampInterval
    omega
  have hcap : ∀ n : ℤ, 100 ≤ n → n ≤ 50000 → max 1 n = n := by
    intro n hlow hhigh
    omega
  constructor
  case collectSms => exact bool_mirrors hK h t (by simp [pluginSettings]) rfl _
  case collectCalls => exact bool_mirrors hK h t (by simp [pluginSettings]) rfl _
  case collectNotifications => exact bool_mirrors hK h t (by simp [pluginSettings]) rfl _
  case includeBody => exact bool_mirrors hK h t (by simp [pluginSettings]) rfl _
  case keepaliveEnabled => exact bool_mirrors hK h t (by simp [pluginSettings]) rfl _
  case inboxCap =>
    exact int_mirrors hK h t (by simp [pluginSettings]) rfl rfl rfl hcap (by omega) (by omega) _
  case keepaliveIntervalHours =>
    exact int_mirrors hK h t (by simp [pluginSettings]) rfl rfl rfl hinterval (by omega)
      (by omega) _
  case balanceIntervalHours =>
    exact int_mirrors hK h t (by simp [pluginSettings]) rfl rfl rfl hinterval (by omega)
      (by omega) _
  case keepaliveTo => exact text_mirrors h t keepaliveTo (by simp [pluginSettings]) c.keepaliveTo
  case keepaliveSubs =>
    exact text_mirrors h t keepaliveSubs (by simp [pluginSettings]) c.keepaliveSubs
  case balanceCode => exact text_mirrors h t balanceCode (by simp [pluginSettings]) c.balanceCode
  case keepaliveBody =>
    have hx : configExtras unit t keepaliveBody.key.toList = some _ :=
      extrasOf_configArgs h (by simp [pluginSettings]) t
    exact congrArg (fun o : Option Text => o.getD c.keepaliveBody) hx

/-- What `reload.sh` leaves in an app that has the token its file holds. -/
theorem settings_config (K : KotlinText) (unit : Device) {s : App} (htoken : s.token ≠ [])
    (hread : s.appToken = s.token) (w : Chance) :
    (s.step K (s.hostBroadcast "CONFIG".toList (configArgs unit) w)).settings
      = applyConfig K s.settings (configExtras unit s.appToken) := by
  have hadmits := (admits_hostBroadcast s
    ⟨w, "CONFIG".toList, configArgs unit, configArgs_no_token unit⟩).2 (.inr ⟨htoken, hread⟩)
  rw [settings_step K hadmits]
  exact if_pos rfl

/-- Whatever was set and unset on the unit before, and whatever the app held, `reload.sh` leaves the
app with the settings of the unit. -/
theorem reload_mirrors (hK : K.Lawful) {P : PythonStr} {plugins : String → Option Plugin}
    (hplugin : plugins "companion" = some plugin) {changes : List Change}
    (hchanges : Run.Meets change (Validated P) (installed plugins) changes) {unit : Device}
    (hunit : unit = Run.final change (installed plugins) changes) {bs : List Broadcast}
    (hbs : ∀ b ∈ bs, b.failure = none) {s : App} (hs : s = Run.final (App.step K) .fresh bs)
    (hclean : isClean s.token) {w w' : Chance} (hw : w.failure = none) :
    Mirrors K (reload K unit s w w').settings unit := by
  have hlayers : Layers unit := hunit ▸ layers_final (layers_installed hplugin) hchanges
  have hsync : s.InSync := hs ▸ inSync_final K hbs
  have hread : s.appToken = s.token := by
    rw [appToken_of_inSync hsync, filter_eq_self_iff_isClean]
    exact hclean
  unfold reload
  split_ifs with hempty
  · -- the setup gives the app a token
    have htoken : s.token = [] := hread ▸ hempty
    have hsetup : s.step K (s.hostBroadcast "SETUP".toList [] w) = _ := step_setup htoken rfl
    rw [hsetup]
    generalize hb : s.hostBroadcast "SETUP".toList [] w = b
    have hpublished : (s.publishToken b (rotateToken b)).appToken = rotateToken b := by
      have hfailure : b.failure = none := hb ▸ hw
      have hsame := filter_eq_self_iff_isClean.2 (isClean_rotateToken b)
      have hline : ['\n'].filter isKept = [] := rfl
      rw [App.appToken, App.publishToken, hfailure]
      show (rotateToken b ++ ['\n']).filter isKept = rotateToken b
      rw [List.filter_append, hsame, hline, List.append_nil]
    rw [settings_config K unit (rotateToken_ne_nil b) hpublished]
    exact mirrors_applyConfig hK hlayers _ _
  · rw [settings_config K unit (hread ▸ hempty) hread]
    exact mirrors_applyConfig hK hlayers _ _

theorem asciiKotlin_lawful : asciiKotlin.Lawful := by
  constructor <;> decide

def companionOnly (module : String) : Option Plugin :=
  if module = "companion" then some plugin else none

def setGreeting : Change := .set (nameOf keepaliveBody) "hello"

theorem setGreeting_validated :
    Run.Meets change (Validated Device.asciiPython) (installed companionOnly) [setGreeting] := by
  refine ⟨fun plugin' hplugin => ?_, trivial⟩
  obtain rfl : plugin = plugin' := Option.some.inj hplugin
  exact ⟨keepaliveBody, by simp [plugin, pluginSettings], rfl, ⟨"hello", rfl⟩, by decide⟩

theorem nothing_failed : ∀ b ∈ ([] : List Broadcast), b.failure = none := by simp

def greeted : Device := change (installed companionOnly) setGreeting

theorem greeting_mirrors :
    Mirrors asciiKotlin (reload asciiKotlin greeted .fresh zeros zeros).settings greeted :=
  reload_mirrors asciiKotlin_lawful (if_pos rfl) setGreeting_validated rfl nothing_failed rfl
    (List.forall_mem_nil _) rfl

end CommandReceiver

end Rackphone
