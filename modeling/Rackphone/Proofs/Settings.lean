import Rackphone.Settings

/-!
# What is set is what is read

After a set one line of `config.env` belongs to the key and carries the value, and no line or
property of another key has changed. So the value is read back unless a layer above hides it, an
earlier property that the property service kept, or it is empty and reads as absent.
-/

namespace Rackphone

variable {s : Device} {name name' : SettingName}

/-! ## Names and lines -/

theorem not_mem_of_isNameChar {l : List Char} {c : Char} (h : ∀ d ∈ l, isNameChar d)
    (hc : isNameChar c = false) : c ∉ l := fun hm => by simp [h c hm] at hc

theorem isShellSpace_of_isNameChar {c : Char} (h : isNameChar c) : isShellSpace c = false := by
  by_contra hs
  simp only [isShellSpace, Bool.not_eq_false, decide_eq_true_eq] at hs
  fin_cases hs <;> exact absurd h (by decide)

theorem SettingName.eq_of_pattern {t : List Char}
    (h : name.pattern <+: name'.pattern ++ t) : name = name' := by
  unfold pattern at h
  rw [List.append_assoc, List.cons_append, List.append_assoc] at h
  obtain ⟨hmodule, hrest⟩ := KeyLines.eq_of_prefix
    (not_mem_of_isNameChar name.module_chars (by decide))
    (not_mem_of_isNameChar name'.module_chars (by decide)) h
  obtain ⟨hkey, -⟩ := KeyLines.eq_of_prefix (not_mem_of_isNameChar name.key_chars (by decide))
    (not_mem_of_isNameChar name'.key_chars (by decide)) hrest
  have hmodule' := String.toList_injective hmodule
  have hkey' := String.toList_injective hkey
  clear h hmodule hrest hkey
  cases name
  cases name'
  simp only at hmodule' hkey'
  subst hmodule' hkey'
  rfl

theorem SettingName.apart (h : name ≠ name') : KeyLines.Apart name.pattern name'.pattern := by
  refine ⟨fun hp => h ?_, fun hp => h ?_⟩
  · exact eq_of_pattern (t := []) (by rwa [List.append_nil])
  · exact (eq_of_pattern (t := []) (by rwa [List.append_nil])).symm

theorem dropWhile_key {l v : List Char} {sep : Char} (h : ∀ c ∈ l, isNameChar c)
    (hsep : isShellSpace sep = false) :
    (l ++ sep :: v).dropWhile isShellSpace = l ++ sep :: v := by
  rcases l with _ | ⟨c, l⟩
  · simp [hsep]
  · simp [isShellSpace_of_isNameChar (h c List.mem_cons_self)]

/-- A line that is written under a key is read under it. -/
theorem valueIn_pattern (name : SettingName) (v : List Char) :
    KeyLines.valueIn isShellSpace name.pattern (name.pattern ++ v) = some v := by
  have hdrop : (name.pattern ++ v).dropWhile isShellSpace = name.pattern ++ v := by
    unfold SettingName.pattern
    rw [List.append_assoc, List.cons_append, dropWhile_key name.module_chars (by decide)]
  rw [KeyLines.valueIn, hdrop, if_pos (List.prefix_append _ _), List.drop_left]

theorem newline_not_mem_pattern (name : SettingName) : '\n' ∉ name.pattern := by
  have hmodule := not_mem_of_isNameChar name.module_chars (c := '\n') (by decide)
  have hkey := not_mem_of_isNameChar name.key_chars (c := '\n') (by decide)
  simp [SettingName.pattern, hmodule, hkey]

/-- Text without a line break is one line. -/
theorem split_line {t : List Char} (hne : t ≠ []) (h : '\n' ∉ t) :
    Lines.split (fun c => c = '\n') t = [t] := by
  refine Lines.split_of_forall hne fun c hc => decide_eq_false fun he => h ?_
  rwa [← he]

/-! ## The declared default -/

theorem valueIn_keyPattern (name : SettingName) (setting : Setting) :
    KeyLines.valueIn isShellSpace name.keyPattern
        (setting.key.toList ++ '=' :: setting.default.toList)
      = if setting.key = name.key then some setting.default.toList else none := by
  rw [KeyLines.valueIn, dropWhile_key setting.key_chars (by decide)]
  by_cases hkey : setting.key = name.key
  · have hsplit : setting.key.toList ++ '=' :: setting.default.toList
        = name.keyPattern ++ setting.default.toList := by
      simp [SettingName.keyPattern, hkey]
    rw [if_pos hkey, hsplit, if_pos (List.prefix_append _ _), List.drop_left]
  · rw [if_neg hkey]
    refine if_neg fun hp => hkey ?_
    obtain ⟨hsame, -⟩ := KeyLines.eq_of_prefix (not_mem_of_isNameChar name.key_chars (by decide))
      (not_mem_of_isNameChar setting.key_chars (by decide)) hp
    exact (String.toList_injective hsame).symm

/-- One declaration of the plugin has the key. -/
theorem filterMap_settings {key : String} {setting : Setting} (hkey : setting.key = key) :
    ∀ {settings : List Setting}, (settings.map Setting.key).Nodup → setting ∈ settings →
      (settings.filterMap fun st => if st.key = key then some st.default.toList else none)
        = [setting.default.toList]
  | st :: settings, hnodup, hmem => by
    obtain ⟨hnot, hnodup⟩ := List.nodup_cons.1 hnodup
    rcases List.mem_cons.1 hmem with rfl | hmem
    · have hnone : (settings.filterMap fun st =>
          if st.key = key then some st.default.toList else none) = [] := by
        refine List.filterMap_eq_nil_iff.2 fun other hother => if_neg fun he => hnot ?_
        rw [hkey, ← he]
        exact List.mem_map_of_mem hother
      rw [List.filterMap_cons, if_pos hkey, hnone]
    · have hne : st.key ≠ key := fun he => hnot (he.trans hkey.symm ▸ List.mem_map_of_mem hmem)
      rw [List.filterMap_cons, if_neg hne, filterMap_settings hkey hnodup hmem]

theorem defaultValue_eq {plugin : Plugin} {setting : Setting} (hmem : setting ∈ plugin.settings)
    (hkey : setting.key = name.key) :
    Device.defaultValue plugin name = setting.default.toList := by
  have hcomment : KeyLines.valueIn isShellSpace name.keyPattern
      "# Generated from plugin.json by scripts/build-modules.sh - do not edit.".toList = none := by
    refine if_neg fun hp => ?_
    rw [SettingName.keyPattern] at hp
    rcases hl : name.key.toList with _ | ⟨c, l⟩
    · rw [hl] at hp
      exact absurd (List.cons_prefix_cons.1 hp).1 (by decide)
    · rw [hl] at hp
      have hc := (List.cons_prefix_cons.1 hp).1
      have hname := name.key_chars c (hl ▸ List.mem_cons_self)
      rw [hc] at hname
      exact absurd hname (by decide)
  have hvalues : KeyLines.values isShellSpace name.keyPattern plugin.defaultsEnv
      = [setting.default.toList] := by
    rw [KeyLines.values, Plugin.defaultsEnv, List.filterMap_cons, hcomment, List.filterMap_map,
      ← filterMap_settings hkey plugin.keys_nodup hmem]
    exact List.filterMap_congr fun st _ => valueIn_keyPattern name st
  rw [Device.defaultValue, KeyLines.last, hvalues]
  rfl

/-! ## The layers -/

theorem substitute_eq_self {t : List Char} (h : '\n' ∉ t) : substitute t = t := by
  refine List.rdropWhile_eq_self_iff.2 fun hne he => h ?_
  rw [← of_decide_eq_true he]
  exact List.getLast_mem hne

theorem byteLength_substitute_le (t : List Char) : byteLength (substitute t) ≤ byteLength t := by
  obtain ⟨u, hu⟩ := List.rdropWhile_prefix (p := fun c => decide (c = '\n')) (l := t)
  have hsum : byteLength (substitute t ++ u) = byteLength (substitute t) + byteLength u := by
    simp [byteLength]
  have hsame : substitute t ++ u = t := hu
  rw [hsame] at hsum
  omega

namespace Device

theorem effective_eq (s : Device) (name : SettingName) {plugin : Plugin}
    (hplugin : s.plugins name.module = some plugin) :
    s.effective name = if s.getprop name ≠ [] then s.getprop name
      else if s.configValue name ≠ [] then s.configValue name else defaultValue plugin name := by
  unfold effective resolve
  split_ifs with hprop hconfig
  · rfl
  · rfl
  · rw [hplugin]
    simp only
    split_ifs with hdefault
    · rfl
    · exact (not_not.1 hdefault).symm

/-- The companion's reader and `resolve` read the same layers. -/
theorem cfg_eq_effective (s : Device) {companion : Plugin}
    (hcompanion : s.plugins "companion" = some companion) {name : SettingName}
    (hmodule : name.module = "companion") : s.cfg companion name = s.effective name := by
  rw [s.effective_eq name (hmodule ▸ hcompanion)]
  rfl

/-! ## Writing -/

theorem getprop_resetprop {value : List Char} (hfits : byteLength value < PROP_VALUE_MAX)
    (hline : '\n' ∉ value) : (s.resetprop name value).getprop name = value := by
  rw [resetprop, dif_pos hfits]
  simp only [getprop, Function.update_self]
  exact substitute_eq_self hline

theorem getprop_deleteprop : (s.deleteprop name).getprop name = [] := by
  simp [getprop, deleteprop, substitute]

/-- Neither write touches another key's property, the plugins or `config.env`. -/
theorem resetprop_other (hne : name' ≠ name) (value : List Char) :
    (s.resetprop name value).getprop name' = s.getprop name' := by
  unfold resetprop
  split_ifs
  · simp only [getprop, Function.update_of_ne hne]
  · rfl

theorem deleteprop_other (hne : name' ≠ name) :
    (s.deleteprop name).getprop name' = s.getprop name' := by
  simp only [getprop, deleteprop, Function.update_of_ne hne]

theorem resetprop_frame (s : Device) (name : SettingName) (value : List Char) :
    (s.resetprop name value).config = s.config
      ∧ (s.resetprop name value).plugins = s.plugins := by
  unfold resetprop
  split_ifs <;> exact ⟨rfl, rfl⟩

/-- What a set leaves: the key's one line, and a property only where it fits. -/
theorem setValue_spec {value : String} {s' : Device} (hs' : s' ∈ s.setValue name value)
    (hline : '\n' ∉ value.toList) :
    s'.plugins = s.plugins
      ∧ s'.config = KeyLines.without isShellSpace name.pattern s.config
        ++ [name.pattern ++ value.toList]
      ∧ (∀ name' ≠ name, s'.getprop name' = s.getprop name')
      ∧ s'.getprop name = if value.length > 91 then []
        else if byteLength value.toList < PROP_VALUE_MAX then value.toList
        else s.getprop name := by
  have hsplit : Lines.split (fun c => c = '\n') (name.pattern ++ value.toList)
      = [name.pattern ++ value.toList] := by
    refine split_line (by simp [SettingName.pattern]) fun hm => ?_
    rcases List.mem_append.1 hm with hm | hm
    · exact newline_not_mem_pattern name hm
    · exact hline hm
  unfold setValue at hs'
  split at hs'
  · cases hs'
  · obtain rfl := Option.some.inj hs'
    rw [hsplit]
    split_ifs with hlong hfits
    · exact ⟨rfl, rfl, fun name' hne => deleteprop_other hne, getprop_deleteprop⟩
    · obtain ⟨hconfig, hplugins⟩ := s.resetprop_frame name value.toList
      exact ⟨hplugins, by rw [hconfig], fun name' hne => resetprop_other hne _,
        getprop_resetprop hfits hline⟩
    · have hdrop : s.resetprop name value.toList = s := dif_neg hfits
      rw [hdrop]
      exact ⟨rfl, rfl, fun _ _ => rfl, rfl⟩

/-- The other keys' lines are as they were. -/
theorem configValue_other {s' : Device} {lines : List (List Char)} (hne : name' ≠ name)
    (hconfig : s'.config = KeyLines.without isShellSpace name.pattern s.config ++ lines)
    (hlines : ∀ line ∈ lines, ∃ v, line = name.pattern ++ v) :
    s'.configValue name' = s.configValue name' := by
  have hapart := SettingName.apart hne.symm
  have hnone : KeyLines.values isShellSpace name'.pattern lines = [] := by
    refine List.filterMap_eq_nil_iff.2 fun line hmem => ?_
    obtain ⟨v, rfl⟩ := hlines line hmem
    exact hapart.valueIn_eq_none (by rw [valueIn_pattern]; rfl)
  rw [configValue, KeyLines.last, hconfig, KeyLines.values_append, hapart.values_without, hnone,
    List.append_nil]
  rfl

theorem configValue_self {s' : Device} {value : List Char}
    (hconfig : s'.config = KeyLines.without isShellSpace name.pattern s.config
      ++ [name.pattern ++ value]) : s'.configValue name = value := by
  have hvalue : KeyLines.values isShellSpace name.pattern [name.pattern ++ value] = [value] := by
    rw [KeyLines.values, List.filterMap_cons, valueIn_pattern, List.filterMap_nil]
  rw [configValue, KeyLines.last, hconfig, KeyLines.values_append, KeyLines.values_without, hvalue]
  rfl

theorem resolve_congr {s' : Device} (hplugins : s'.plugins = s.plugins)
    (hprop : s'.getprop name = s.getprop name)
    (hconfig : s'.configValue name = s.configValue name) : s'.resolve name = s.resolve name := by
  unfold resolve
  rw [hprop, hconfig, hplugins]

/-- What is unset reads as its declared default. -/
theorem unsetValue_effective {plugin : Plugin} (hplugin : s.plugins name.module = some plugin) :
    (s.unsetValue name).effective name = defaultValue plugin name := by
  have hprop : (s.unsetValue name).getprop name = [] := getprop_deleteprop
  have hconfig : (s.unsetValue name).configValue name = [] := by
    rw [configValue, KeyLines.last]
    exact congrArg (fun l : List (List Char) => l.getLast?.getD [])
      (KeyLines.values_without name.pattern s.config)
  rw [effective_eq (s.unsetValue name) name hplugin, hprop, hconfig]
  simp

/-- What is read after a set. -/
theorem setValue_effective {value : String} {s' : Device} (hs' : s' ∈ s.setValue name value)
    (hline : '\n' ∉ value.toList) {plugin : Plugin}
    (hplugin : s.plugins name.module = some plugin) :
    s'.effective name = if value.length ≤ 91 ∧ 91 < byteLength value.toList ∧ s.getprop name ≠ []
      then s.getprop name
      else if value = "" then defaultValue plugin name else value.toList := by
  obtain ⟨hplugins, hconfig, -, hprop⟩ := setValue_spec hs' hline
  have hempty : value = "" ↔ value.toList = [] := by
    rw [← String.toList_inj, String.toList_empty]
  rw [effective_eq s' name (hplugins ▸ hplugin), hprop, configValue_self hconfig]
  by_cases hlong : value.length > 91
  · have hne : value.toList ≠ [] := fun he => by simp [hempty.2 he] at hlong
    simp [hlong, hne, hempty]
  · by_cases hfits : byteLength value.toList < PROP_VALUE_MAX
    · have hdrop : ¬ 91 < byteLength value.toList := by unfold PROP_VALUE_MAX at hfits; omega
      by_cases hnil : value.toList = []
      · obtain rfl := hempty.2 hnil
        simp [byteLength, PROP_VALUE_MAX]
      · simp [hlong, hfits, hdrop, hnil, hempty]
    · have hdrop : 91 < byteLength value.toList := by unfold PROP_VALUE_MAX at hfits; omega
      have hne : value.toList ≠ [] := fun he => by simp [he, byteLength] at hdrop
      by_cases hold : s.getprop name = []
      · simp [hlong, hfits, hne, hempty, hold]
      · simp [hlong, hfits, hdrop, hold, Nat.not_lt.1 hlong]

theorem newline_not_mem_toString (n : ℤ) : '\n' ∉ (toString n).toList := by
  have hdigits : ∀ m : ℕ, '\n' ∉ Nat.toDigits 10 m := fun m hm =>
    absurd (Nat.isDigit_of_mem_toDigits (by omega) (by omega) hm) (by decide)
  cases n with
  | ofNat m =>
    have htext : (toString (Int.ofNat m)).toList = Nat.toDigits 10 m := by
      simp [toString, Int.repr, Nat.repr]
    exact htext ▸ hdigits m
  | negSucc m =>
    have htext : (toString (Int.negSucc m)).toList = '-' :: Nat.toDigits 10 (m + 1) := by
      simp [toString, Int.repr, Nat.repr]
    rw [htext]
    exact List.not_mem_cons_of_ne_of_not_mem (by decide) (hdigits (m + 1))

/-- A value that validates is one line, where a text is. -/
theorem validate_line {P : PythonStr} {setting : Setting} {raw value : String}
    (h : setting.validate P raw = .ok value)
    (hline : setting.valueType = .string → '\n' ∉ raw.toList) : '\n' ∉ value.toList := by
  unfold Setting.validate at h
  rcases htype : setting.valueType <;> simp only [htype] at h
  case bool =>
    split_ifs at h <;> obtain rfl := Except.ok.inj h <;> decide
  case int =>
    split at h
    · cases h
    · split at h
      · cases h
      · split at h
        · cases h
        · obtain rfl := Except.ok.inj h
          exact newline_not_mem_toString _
  case enum =>
    split_ifs at h with hmem
    obtain rfl := Except.ok.inj h
    exact setting.one_line _ (List.mem_cons_of_mem _ hmem)
  case string =>
    obtain rfl := Except.ok.inj h
    exact hline htype

/-- For every value that validates, set, unset and the companion's reader agree exactly where no
layer loses the value. -/
theorem setGet_iff (P : PythonStr) (s : Device) (name : SettingName) {plugin : Plugin}
    {setting : Setting} {raw value : String} (hplugin : s.plugins name.module = some plugin)
    (hsetting : setting ∈ plugin.settings) (hkey : setting.key = name.key)
    (hvalid : setting.validate P raw = .ok value)
    (hline : setting.valueType = .string → '\n' ∉ raw.toList) :
    s.SetGet name setting value ↔ s.Keeps name setting value := by
  have hvalue := validate_line hvalid hline
  have hdefault := defaultValue_eq hsetting hkey
  constructor
  · intro h
    obtain ⟨s', hs'⟩ : ∃ s', s' ∈ s.setValue name value := by
      simp [setValue, hplugin]
    have hget := h.get s' hs'
    rw [setValue_effective hs' hvalue hplugin] at hget
    refine ⟨fun hempty => ?_, fun hshort hlong => ?_⟩
    · subst hempty
      rw [if_neg (by simp [byteLength]), if_pos rfl, hdefault] at hget
      exact String.toList_injective hget
    · by_contra hold
      rw [if_pos ⟨hshort, hlong, hold⟩] at hget
      -- the earlier property fits, so it is not the value that was dropped
      have hfits := (byteLength_substitute_le (s.props name).text).trans_lt (s.props name).fits
      rw [← getprop, hget] at hfits
      unfold PROP_VALUE_MAX at hfits
      omega
  · intro h
    refine ⟨fun s' hs' => ?_, fun s' hs' name' hne => ?_, ?_,
      fun companion hcompanion name' hmodule => s.cfg_eq_effective hcompanion hmodule⟩
    · rw [setValue_effective hs' hvalue hplugin,
        if_neg fun hlost => hlost.2.2 (h.2 hlost.1 hlost.2.1)]
      split_ifs with hempty
      · rw [hdefault, h.1 hempty, hempty]
      · rfl
    · obtain ⟨hplugins, hconfig, hother, -⟩ := setValue_spec hs' hvalue
      refine resolve_congr hplugins (hother name' hne) (configValue_other hne hconfig ?_)
      exact fun line hmem => ⟨value.toList, List.mem_singleton.1 hmem⟩
    · rw [unsetValue_effective hplugin, hdefault]

/-! ## The companion's keepalive text -/

def keepaliveBody : Setting where
  key := "keepalive_body"
  valueType := .string
  default := "rackphone keepalive"
  allowedValues := []
  minimum := none
  maximum := none
  key_chars := by simp [isNameChar]
  one_line := by simp

def companion : Plugin where
  settings := [keepaliveBody]
  keys_nodup := by decide

def bodyName : SettingName where
  module := "companion"
  key := "keepalive_body"
  module_chars := by simp [isNameChar]
  key_chars := by simp [isNameChar]

theorem nil_fits : byteLength [] < PROP_VALUE_MAX := by decide

/-- A unit where the text was set to `hello` before. -/
def greeted : Device where
  plugins module := if module = "companion" then some companion else none
  props name := if name = bodyName then ⟨"hello".toList, by decide⟩ else ⟨[], nil_fits⟩
  config := ["companion.keepalive_body=hello".toList]

/-- Python's functions on ASCII. -/
def asciiPython : PythonStr where
  int := String.toInt?
  strip value := String.ofList (Lines.strip Char.isWhitespace value.toList)
  lower := String.toLower
  repr value := value.quote

theorem greeting_setGet : greeted.SetGet bodyName keepaliveBody "привет" :=
  have hplugin : greeted.plugins bodyName.module = some companion := rfl
  have hvalid : keepaliveBody.validate asciiPython "привет" = .ok "привет" := rfl
  (setGet_iff asciiPython greeted bodyName hplugin List.mem_cons_self rfl hvalid
    fun _ => by decide +kernel).2 (by decide +kernel)

/-- An empty text reads as the default, and where sixty Cyrillic letters are dropped by the property
service the text that was set before stays. -/
theorem set_loses_value :
    (¬ ∀ (P : PythonStr) (s : Device) (name : SettingName) (plugin : Plugin) (setting : Setting)
      (raw value : String), s.plugins name.module = some plugin → setting ∈ plugin.settings →
      setting.key = name.key → setting.validate P raw = .ok value →
      (setting.valueType = .string → '\n' ∉ raw.toList) → s.SetGet name setting value)
    ∧ (greeted.setValue bodyName "").map (fun s => s.effective bodyName)
      = some "rackphone keepalive".toList
    ∧ (greeted.setValue bodyName (String.ofList (List.replicate 60 'ж'))).map
        (fun s => s.effective bodyName) = some "hello".toList := by
  have hdefault : (greeted.setValue bodyName "").map (fun s => s.effective bodyName)
    = some "rackphone keepalive".toList := by decide +kernel
  refine ⟨fun h => ?_, hdefault, by decide +kernel⟩
  obtain ⟨s', hs', hread⟩ := Option.map_eq_some_iff.1 hdefault
  have hget := (h asciiPython greeted bodyName companion keepaliveBody "" "" rfl
    List.mem_cons_self rfl rfl fun _ => List.not_mem_nil).get s' hs'
  rw [hread] at hget
  exact absurd hget (by simp)

end Device

end Rackphone
