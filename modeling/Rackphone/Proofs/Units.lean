import Rackphone.Lib.Run
import Rackphone.Proofs.Settings
import Rackphone.Units

/-!
# What a unit file gives back

`load` keeps the last entry of each key, so all it reads is settled by the entries of the text, one
list for each line that was written. A value that `load` returns is on one line and has no blank at
its ends, hence nothing else can come back; and a line whose value is like that is read as its own
entry, by `load` and by the phone.
-/

namespace Rackphone

/-! ## Characters -/

theorem toNat_of_isKeyChar {c : Char} (h : isKeyChar c) : 0x2d ≤ c.toNat ∧ c.toNat ≤ 0x7a := by
  simp only [isKeyChar, isNameChar, Char.isAlphanum, Char.isAlpha, Char.isUpper, Char.isLower,
    Char.isDigit, Bool.or_eq_true, Bool.and_eq_true, decide_eq_true_eq, UInt32.le_iff_toNat_le] at h
  show 0x2d ≤ c.val.toNat ∧ c.val.toNat ≤ 0x7a
  obtain (((((h | h) | h) | rfl) | rfl) | rfl) := h
  · exact ⟨le_trans (by decide) h.1, le_trans h.2 (by decide)⟩
  · exact ⟨le_trans (by decide) h.1, le_trans h.2 (by decide)⟩
  · exact ⟨le_trans (by decide) h.1, le_trans h.2 (by decide)⟩
  all_goals decide

theorem isBlank_of_isKeyChar {c : Char} (h : isKeyChar c) : isBlank c = false := by
  have hc := toNat_of_isKeyChar h
  simp only [isBlank, List.mem_cons, List.not_mem_nil, or_false, decide_eq_false_iff_not]
  omega

theorem isLineBreak_of_isKeyChar {c : Char} (h : isKeyChar c) : isLineBreak c = false := by
  have hc := toNat_of_isKeyChar h
  simp only [isLineBreak, List.mem_cons, List.not_mem_nil, or_false, decide_eq_false_iff_not]
  omega

theorem isKeyChar_of_dotted {name : SettingName} : ∀ c ∈ name.dotted, isKeyChar c := by
  intro c hc
  rw [SettingName.dotted, List.mem_append, List.mem_cons] at hc
  obtain hc | rfl | hc := hc
  · simp [isKeyChar, name.module_chars c hc]
  · decide
  · simp [isKeyChar, name.key_chars c hc]

namespace DeclaredUnit

/-! ## Lines -/

section Lines

variable {key value : List Char}

/-- A line that is written as a key and a value is read as them. -/
theorem entry_keyLine (hne : key ≠ []) (hkey : ∀ c ∈ key, isKeyChar c) :
    entry (key ++ '=' :: value) = some (key, Lines.strip isBlank value) := by
  obtain ⟨c, k, rfl⟩ := List.exists_cons_of_ne_nil hne
  have hc := hkey c List.mem_cons_self
  have hblank := isBlank_of_isKeyChar hc
  have hstart : ((c :: k) ++ '=' :: value).dropWhile isBlank = (c :: k) ++ '=' :: value := by
    rw [List.cons_append, List.dropWhile_cons_of_neg (by simp [hblank])]
  have hcond : ¬ (Lines.strip isBlank ((c :: k) ++ '=' :: value) = []
      ∨ ['#'] <+: ((c :: k) ++ '=' :: value).dropWhile isBlank) := by
    rintro (hnil | hhash)
    · rw [List.cons_append, show c :: (k ++ '=' :: value) = [] ++ c :: (k ++ '=' :: value) from rfl,
        Lines.strip_append_cons hblank] at hnil
      exact absurd hnil (by simp)
    · rw [hstart, List.cons_append] at hhash
      obtain rfl := (List.cons_prefix_cons.1 hhash).1
      exact absurd hc (by decide)
  have htake : ((c :: k) ++ '=' :: value).takeWhile isKeyChar = c :: k := by
    rw [List.takeWhile_append_of_pos hkey, List.takeWhile_cons_of_neg (by decide), List.append_nil]
  have hdrop : ((c :: k) ++ '=' :: value).dropWhile isKeyChar = '=' :: value := by
    rw [List.dropWhile_append_of_pos hkey, List.dropWhile_cons_of_neg (by decide)]
  have heq : ('=' :: value).dropWhile isBlank = '=' :: value := by
    rw [List.dropWhile_cons_of_neg (by decide)]
  rw [entry, if_neg hcond, settingLine]
  simp only [hstart, htake, hdrop, heq]

theorem trimmed_of_entry {line : List Char} {e : List Char × List Char}
    (hline : ∀ c ∈ line, isLineBreak c = false) (h : entry line = some e) : Trimmed e.2 := by
  unfold entry settingLine at h
  simp only [] at h
  split_ifs at h
  split at h
  next c k value hk hv =>
    obtain rfl := Option.some.inj h
    refine ⟨fun d hd => hline d ?_, Lines.strip_strip value⟩
    have hin : d ∈ ('=' :: value) := List.mem_cons_of_mem _ ((Lines.strip_sublist value).subset hd)
    rw [← hv] at hin
    exact (List.dropWhile_sublist _).subset
      ((List.dropWhile_sublist _).subset ((List.dropWhile_sublist _).subset hin))
  next => cases h

theorem trimmed_of_mem_entries {text : List Char} {e : List Char × List Char}
    (h : e ∈ entries text) : Trimmed e.2 := by
  obtain ⟨line, hline, he⟩ := List.mem_filterMap.1 h
  exact trimmed_of_entry (Lines.not_break_of_mem_split hline) he

theorem entries_lines (lines : List (List Char)) :
    entries (lines.flatMap fun l => l ++ ['\n']) =
      lines.flatMap fun l => entries (l ++ ['\n']) := by
  rw [entries, Lines.split_lines (by decide), List.filterMap_flatMap]
  rfl

/-- A key and a trimmed value, on a line of their own. -/
theorem entries_keyLine (hne : key ≠ []) (hkey : ∀ c ∈ key, isKeyChar c) (hv : Trimmed value) :
    entries (key ++ '=' :: value ++ ['\n']) = [(key, value)] := by
  have hline : ∀ c ∈ key ++ '=' :: value, isLineBreak c = false := by
    intro c hc
    rw [List.mem_append, List.mem_cons] at hc
    obtain hc | rfl | hc := hc
    · exact isLineBreak_of_isKeyChar (hkey c hc)
    · decide
    · exact hv.1 c hc
  rw [entries, Lines.split_break hline (by decide) (by decide), Lines.split_nil,
    List.filterMap_cons, entry_keyLine hne hkey, hv.2]
  rfl

end Lines

/-! ## What `load` keeps -/

section Load

variable (u : DeclaredUnit) (es : List (List Char × List Char))

def assignAll : DeclaredUnit := es.foldl (fun u e => u.assign e.1 e.2) u

theorem foldl_readLine (lines : List (List Char)) :
    lines.foldl readLine u = u.assignAll (lines.filterMap entry) := by
  rw [assignAll, List.foldl_filterMap]
  refine List.foldl_ext _ _ _ fun u line _ => ?_
  unfold readLine entry
  split_ifs
  · rfl
  · cases settingLine line <;> rfl

theorem load_eq (name text : List Char) :
    load name text = assignAll ⟨name, none, [], .empty⟩ (entries text) :=
  foldl_readLine _ _

theorem assignAll_concat (e : List Char × List Char) :
    u.assignAll (es ++ [e]) = (u.assignAll es).assign e.1 e.2 := by
  rw [assignAll, List.foldl_append]
  rfl

theorem serial_assign (key value : List Char) : (u.assign key value).serial =
    if key = SERIAL_KEY then if value = [] then none else some value else u.serial := by
  unfold assign
  split_ifs <;> rfl

theorem label_assign (key value : List Char) :
    (u.assign key value).label = if key = LABEL_KEY then value else u.label := by
  unfold assign
  by_cases hs : key = SERIAL_KEY
  · have hl : key ≠ LABEL_KEY := by
      rw [hs]
      decide
    rw [if_pos hs, if_neg (c := key = LABEL_KEY) hl]
  · rw [if_neg hs]
    split_ifs <;> rfl

theorem get_assign (key value k : List Char) : (u.assign key value).settings.get k =
    if key = k ∧ ¬ RESERVED_KEY_PREFIX <+: k then some value else u.settings.get k := by
  have hreserved : (key = SERIAL_KEY ∨ key = LABEL_KEY) ∨ RESERVED_KEY_PREFIX <+: key →
      RESERVED_KEY_PREFIX <+: key := by
    rintro ((rfl | rfl) | h)
    · decide
    · decide
    · exact h
  unfold assign
  by_cases hkey : RESERVED_KEY_PREFIX <+: key
  · rw [if_neg (c := key = k ∧ _) (by rintro ⟨rfl, hnot⟩; exact hnot hkey)]
    split_ifs <;> rfl
  · rw [if_neg fun h => hkey (hreserved (.inl (.inl h))),
      if_neg fun h => hkey (hreserved (.inl (.inr h))), if_neg hkey]
    show (u.settings.set key value).get k = _
    rw [Dict.get_set]
    by_cases hk : k = key
    · rw [if_pos hk, if_pos ⟨hk.symm, hk ▸ hkey⟩]
    · rw [if_neg hk, if_neg fun h => hk h.1.symm]

theorem name_assignAll : (u.assignAll es).name = u.name := by
  induction es using List.reverseRecOn with
  | nil => rfl
  | append_singleton es e ih =>
    rw [assignAll_concat, ← ih, assign]
    split_ifs <;> rfl

theorem name_load (name text : List Char) : (load name text).name = name := by
  rw [load_eq, name_assignAll]

theorem serial_assignAll : (u.assignAll es).serial =
    ((KeyLines.lastValue SERIAL_KEY es).map fun v => if v = [] then none else some v).getD
      u.serial := by
  induction es using List.reverseRecOn with
  | nil => rfl
  | append_singleton es e ih =>
    rw [assignAll_concat, KeyLines.lastValue_append, KeyLines.lastValue_singleton, serial_assign]
    by_cases he : e.1 = SERIAL_KEY
    · rw [if_pos he, if_pos he]
      rfl
    · rw [if_neg he, if_neg he, ih]
      rfl

theorem label_assignAll :
    (u.assignAll es).label = (KeyLines.lastValue LABEL_KEY es).getD u.label := by
  induction es using List.reverseRecOn with
  | nil => rfl
  | append_singleton es e ih =>
    rw [assignAll_concat, KeyLines.lastValue_append, KeyLines.lastValue_singleton, label_assign]
    by_cases he : e.1 = LABEL_KEY
    · rw [if_pos he, if_pos he]
      rfl
    · rw [if_neg he, if_neg he, ih]
      rfl

theorem get_assignAll (k : List Char) : (u.assignAll es).settings.get k =
    if RESERVED_KEY_PREFIX <+: k then u.settings.get k
    else (KeyLines.lastValue k es).or (u.settings.get k) := by
  induction es using List.reverseRecOn with
  | nil => split_ifs <;> rfl
  | append_singleton es e ih =>
    rw [assignAll_concat, KeyLines.lastValue_append, KeyLines.lastValue_singleton, get_assign, ih]
    by_cases hk : RESERVED_KEY_PREFIX <+: k
    · rw [if_neg fun h => h.2 hk, if_pos hk, if_pos hk]
    · rw [if_neg hk, if_neg hk]
      by_cases he : e.1 = k
      · rw [if_pos ⟨he, hk⟩, if_pos he]
        rfl
      · rw [if_neg fun h => he h.1, if_neg he]
        rfl

end Load

/-! ## The file that is saved -/

section Save

variable (u : DeclaredUnit)

theorem entries_save : entries u.save =
    entries (u.nameLine ++ ['\n']) ++ (entries (SERIAL_KEY ++ '=' :: u.serial.getD [] ++ ['\n'])
      ++ (entries (LABEL_KEY ++ '=' :: u.label ++ ['\n'])
        ++ u.settingLines.flatMap fun l => entries (l ++ ['\n']))) := by
  have hsave : u.save = u.fileLines.flatMap fun l => l ++ ['\n'] := by
    have hne : u.fileLines ≠ [] := List.cons_ne_nil _ _
    have := Lines.intercalate_append id hne
    rwa [List.map_id] at this
  rw [hsave, entries_lines, fileLines, List.flatMap_append]
  simp only [List.flatMap_cons, List.flatMap_nil, List.append_nil]
  rw [show entries ("#".toList ++ ['\n']) = [] by decide +kernel,
    show entries ("# Declared state for this device. `rackphone deploy` pushes it;".toList
      ++ ['\n']) = [] by decide +kernel,
    show entries ("# `rackphone set` updates it alongside the live override so that".toList
      ++ ['\n']) = [] by decide +kernel,
    show entries ("# the repo and the hardware do not drift apart.".toList ++ ['\n']) = [] by
      decide +kernel,
    show entries ([] ++ ['\n']) = [] by decide +kernel]
  simp only [List.nil_append, List.append_assoc]

theorem ne_nil_of_wellFormed (hkeys : u.WellFormedKeys) {i : List Char × List Char}
    (hi : i ∈ u.settings.items) : i.1 ≠ [] ∧ ∀ c ∈ i.1, isKeyChar c := by
  obtain ⟨name, hname⟩ := hkeys i.1 (List.mem_map_of_mem hi)
  rw [← hname]
  exact ⟨by simp [SettingName.dotted], isKeyChar_of_dotted⟩

theorem get_eq_lastValue {sorted : List (List Char × List Char)}
    (hperm : sorted.Perm u.settings.items) (key : List Char) :
    KeyLines.lastValue key sorted = u.settings.get key := by
  rw [KeyLines.lastValue_perm u.settings.nodup hperm]
  cases hget : u.settings.get key with
  | none =>
    refine KeyLines.lastValue_eq_none.2 fun e he hek => ?_
    refine Dict.get_eq_none.1 hget ?_
    rw [← hek]
    exact List.mem_map_of_mem he
  | some value => exact KeyLines.lastValue_of_nodup u.settings.nodup (Dict.get_eq_some.1 hget)

/-- Trimmed values are read as they were written, whatever order the lines have. -/
theorem lastValue_settingLines (hkeys : u.WellFormedKeys)
    (hvalues : ∀ i ∈ u.settings.items, Trimmed i.2) (key : List Char) :
    KeyLines.lastValue key (u.settingLines.flatMap fun l => entries (l ++ ['\n'])) =
      u.settings.get key := by
  rw [settingLines, List.flatMap_map]
  have hperm := List.perm_insertionSort (fun i j : List Char × List Char => i.1 ≤ j.1)
    u.settings.items
  generalize u.settings.items.insertionSort (fun i j => i.1 ≤ j.1) = sorted at hperm
  have hself : sorted.flatMap (fun i => entries (i.1 ++ '=' :: i.2 ++ ['\n'])) = sorted := by
    have hpoint : ∀ i ∈ sorted, entries (i.1 ++ '=' :: i.2 ++ ['\n']) = [i] := by
      intro i hi
      have hi := hperm.mem_iff.1 hi
      obtain ⟨hne, hchars⟩ := u.ne_nil_of_wellFormed hkeys hi
      exact entries_keyLine hne hchars (hvalues i hi)
    rw [List.flatMap_congr hpoint, List.flatMap_singleton']
  rw [hself]
  exact u.get_eq_lastValue hperm key

end Save

/-! ## The file on the phone -/

section Deploy

variable (u : DeclaredUnit)

theorem dotted_append (name : SettingName) (value : List Char) :
    name.dotted ++ '=' :: value = name.pattern ++ value := by
  simp [SettingName.dotted, SettingName.pattern]

theorem dotted_injective : Function.Injective SettingName.dotted := by
  intro name name' h
  refine SettingName.eq_of_pattern (t := []) ?_
  rw [List.append_nil, ← List.append_nil name.pattern, ← List.append_nil name'.pattern,
    ← dotted_append, ← dotted_append, h]

theorem valueIn_comment (name : SettingName) (t : List Char) :
    KeyLines.valueIn isShellSpace name.pattern ('#' :: t) = none := by
  refine if_neg fun hp => ?_
  rw [List.dropWhile_cons_of_neg (by decide), SettingName.pattern] at hp
  cases hm : name.module.toList with
  | nil =>
    rw [hm] at hp
    exact absurd (List.cons_prefix_cons.1 hp).1 (by decide)
  | cons c m =>
    rw [hm] at hp
    have hc := name.module_chars c (hm ▸ List.mem_cons_self)
    rw [(List.cons_prefix_cons.1 hp).1] at hc
    exact absurd hc (by decide)

theorem valueIn_dotted (name name' : SettingName) (value : List Char) :
    KeyLines.valueIn isShellSpace name.pattern (name'.dotted ++ '=' :: value) =
      if name'.dotted = name.dotted then some value else none := by
  rw [dotted_append]
  split_ifs with h
  · rw [dotted_injective h]
    exact valueIn_pattern name value
  · have hne : name' ≠ name := by
      rintro rfl
      exact h rfl
    exact (SettingName.apart hne).valueIn_eq_none (by rw [valueIn_pattern]; rfl)

theorem values_generated (name : SettingName) :
    KeyLines.values isShellSpace name.pattern (Lines.split (fun c => c = '\n')
      ("# Generated by `rackphone deploy` - do not edit on the device.".toList ++ ['\n'])) =
        [] := by
  rw [show Lines.split (fun c => c = '\n')
      ("# Generated by `rackphone deploy` - do not edit on the device.".toList ++ ['\n']) =
    ["# Generated by `rackphone deploy` - do not edit on the device.".toList] by decide +kernel]
  exact List.filterMap_cons_none (valueIn_comment name _)

theorem values_blank (name : SettingName) :
    KeyLines.values isShellSpace name.pattern (Lines.split (fun c => c = '\n') ['\n']) = [] := by
  refine List.filterMap_cons_none (if_neg fun hp => ?_)
  have := List.prefix_nil.1 hp
  simp [SettingName.pattern] at this

theorem values_keyLine (name name' : SettingName) {value : List Char} (hvalue : '\n' ∉ value) :
    KeyLines.values isShellSpace name.pattern
        (Lines.split (fun c => c = '\n') (name'.dotted ++ '=' :: value ++ ['\n'])) =
      (if name'.dotted = name.dotted then some value else none).toList := by
  have hbreak : ∀ c ∈ name'.dotted ++ '=' :: value, decide (c = '\n') = false := by
    rw [dotted_append]
    intro c hc
    refine decide_eq_false fun he => ?_
    subst he
    exact (List.mem_append.1 hc).elim (newline_not_mem_pattern name') hvalue
  rw [Lines.split_break hbreak (by decide) (by decide), Lines.split_nil]
  show [_].filterMap (KeyLines.valueIn isShellSpace name.pattern) = _
  rw [List.filterMap_cons, valueIn_dotted, List.filterMap_nil]
  split_ifs <;> rfl

theorem getLast?_settingLines (hkeys : u.WellFormedKeys)
    (hvalues : ∀ i ∈ u.settings.items, '\n' ∉ i.2) (name : SettingName) :
    (KeyLines.values isShellSpace name.pattern (u.settingLines.flatMap fun l =>
      Lines.split (fun c => c = '\n') (l ++ ['\n']))).getLast? = u.settings.get name.dotted := by
  have hperm := List.perm_insertionSort (fun i j : List Char × List Char => i.1 ≤ j.1)
    u.settings.items
  have hlines : KeyLines.values isShellSpace name.pattern
      (u.settingLines.flatMap fun l => Lines.split (fun c => c = '\n') (l ++ ['\n'])) =
        (u.settings.items.insertionSort fun i j => i.1 ≤ j.1).filterMap fun i =>
          if i.1 = name.dotted then some i.2 else none := by
    rw [settingLines, List.flatMap_map, KeyLines.values, List.filterMap_flatMap,
      List.filterMap_eq_flatMap_toList]
    refine List.flatMap_congr fun i hi => ?_
    have hi := hperm.mem_iff.1 hi
    obtain ⟨name', hname'⟩ := hkeys i.1 (List.mem_map_of_mem hi)
    rw [← hname']
    exact values_keyLine name name' (hvalues i hi)
  rw [hlines, KeyLines.getLast?_values, u.get_eq_lastValue hperm]

/-- What the phone reads for a key: the setting, or what the heading left of the name. -/
theorem configValue_deploy (hkeys : u.WellFormedKeys)
    (hvalues : ∀ i ∈ u.settings.items, '\n' ∉ i.2) (s : Device) (name : SettingName) :
    (u.deploy s).configValue name = ((u.settings.get name.dotted).or
      (KeyLines.values isShellSpace name.pattern
        (Lines.split (fun c => c = '\n') (u.deviceNameLine ++ ['\n']))).getLast?).getD [] := by
  have hconfig : u.toDeviceConfig = u.deviceLines.flatMap fun l => l ++ ['\n'] := by
    have hne : u.deviceLines ≠ [] := List.cons_ne_nil _ _
    have := Lines.intercalate_append id hne
    rwa [List.map_id] at this
  rw [Device.configValue, KeyLines.last, deploy, hconfig, Lines.split_lines (by decide),
    deviceLines, List.flatMap_append, List.flatMap_cons, List.flatMap_cons, List.flatMap_cons,
    List.flatMap_nil]
  simp only [KeyLines.values_append, values_generated, List.nil_append, List.append_nil,
    values_blank]
  rw [List.getLast?_append, u.getLast?_settingLines hkeys hvalues]

end Deploy

/-! ## When a unit comes back -/

section RoundTrips

variable {E : Echo} {u : DeclaredUnit}

theorem trimmed_nil : Trimmed [] := ⟨fun _ h => absurd h List.not_mem_nil, rfl⟩

theorem Plain.get_reserved (h : u.Plain E) {key : List Char} (hkey : RESERVED_KEY_PREFIX <+: key) :
    u.settings.get key = none := by
  refine Dict.get_eq_none.2 fun hmem => ?_
  obtain ⟨i, hi, rfl⟩ := List.mem_map.1 hmem
  exact h.keys i hi hkey

/-- Which line of the saved file is the last of a key. -/
theorem Plain.lastValue_save (hkeys : u.WellFormedKeys) (h : u.Plain E) (key : List Char) :
    KeyLines.lastValue key (entries u.save) = (((u.settings.get key).or
        (if LABEL_KEY = key then some u.label else none)).or
      (if SERIAL_KEY = key then some (u.serial.getD []) else none)).or
        (KeyLines.lastValue key (entries (u.nameLine ++ ['\n']))) := by
  have hserial : Trimmed (u.serial.getD []) := by
    cases hs : u.serial with
    | none => exact trimmed_nil
    | some s => exact (h.serial s hs).2
  have hserialKey : ∀ c ∈ SERIAL_KEY, isKeyChar c := List.all_eq_true.1 (by decide)
  have hlabelKey : ∀ c ∈ LABEL_KEY, isKeyChar c := List.all_eq_true.1 (by decide)
  rw [u.entries_save, entries_keyLine (by decide) hserialKey hserial,
    entries_keyLine (by decide) hlabelKey h.label]
  simp only [KeyLines.lastValue_append, KeyLines.lastValue_singleton,
    u.lastValue_settingLines hkeys fun i hi => (h.values i hi).2]

theorem Plain.get_load (hkeys : u.WellFormedKeys) (h : u.Plain E) (key : List Char) :
    (load u.name u.save).settings.get key = u.settings.get key := by
  rw [load_eq, get_assignAll]
  split_ifs with hkey
  · exact (h.get_reserved hkey).symm
  · have hserial : SERIAL_KEY ≠ key := by
      rintro rfl
      exact hkey (by decide)
    have hlabel : LABEL_KEY ≠ key := by
      rintro rfl
      exact hkey (by decide)
    rw [h.lastValue_save hkeys, if_neg hserial, if_neg hlabel, Option.or_none, Option.or_none]
    cases hk : u.settings.get key with
    | some v => rfl
    | none =>
      -- what is left of the name has no such key
      have hquiet : KeyLines.lastValue key (entries (u.nameLine ++ ['\n'])) = none := by
        refine KeyLines.lastValue_eq_none.2 fun e he hek => ?_
        subst hek
        exact (h.name.file e he).elim hkey (Dict.get_eq_none.1 hk)
      rw [hquiet]
      rfl

theorem Plain.roundTrips (hkeys : u.WellFormedKeys) (h : u.Plain E) : u.RoundTrips E := by
  have hline : ∀ i ∈ u.settings.items, '\n' ∉ i.2 := fun i hi hmem =>
    absurd ((h.values i hi).2.1 _ hmem) (by decide)
  refine ⟨?_, ?_, h.get_load hkeys, fun s name hprop v hv => ?_, fun s name hnone => ?_⟩
  · rw [load_eq, serial_assignAll, h.lastValue_save hkeys, h.get_reserved (by decide),
      if_neg (by decide), if_pos rfl]
    cases hs : u.serial with
    | none => rfl
    | some s => exact if_neg (h.serial s hs).1
  · rw [load_eq, label_assignAll, h.lastValue_save hkeys, h.get_reserved (by decide), if_pos rfl]
    rfl
  · have hconfig := u.configValue_deploy hkeys hline s name
    rw [Option.mem_def.1 hv] at hconfig
    have hne : v ≠ [] := (h.values _ (Dict.get_eq_some.1 (Option.mem_def.1 hv))).1
    have hprop : (u.deploy s).getprop name = [] := hprop
    have hresolve : (u.deploy s).resolve name = some v := by
      rw [Device.resolve, if_neg (by simpa using hprop), hconfig]
      exact if_pos hne
    have hkept := h.echoed _ (Dict.get_eq_some.1 (Option.mem_def.1 hv))
    rw [Device.answer, hresolve]
    exact congrArg some hkept
  · rw [u.configValue_deploy hkeys hline s name, hnone]
    exact h.name.device name hnone

/-! What comes back shows that the unit was plain. -/

theorem RoundTrips.mem_entries (h : u.RoundTrips E) {i : List Char × List Char}
    (hi : i ∈ u.settings.items) : ¬ RESERVED_KEY_PREFIX <+: i.1 ∧ i ∈ entries u.save := by
  have hload := h.settings i.1
  rw [Dict.get_eq_some.2 hi, load_eq, get_assignAll] at hload
  split_ifs at hload with hkey
  · cases hload
  · have hload : (KeyLines.lastValue i.1 (entries u.save)).or none = some i.2 := hload
    rw [Option.or_none] at hload
    exact ⟨hkey, KeyLines.mem_of_lastValue hload⟩

/-- A phone with no plugin and no property. -/
def bareDevice : Device := ⟨fun _ => none, fun _ => ⟨[], Nat.succ_pos 91⟩, []⟩

theorem RoundTrips.oneLine (h : u.RoundTrips E) : ∀ i ∈ u.settings.items, '\n' ∉ i.2 :=
  fun _ hi hmem => absurd ((trimmed_of_mem_entries (h.mem_entries hi).2).1 _ hmem) (by decide)

/-- What a phone without plugins answers is in the file. -/
theorem RoundTrips.answered (hkeys : u.WellFormedKeys) (h : u.RoundTrips E)
    {i : List Char × List Char} (hi : i ∈ u.settings.items) : i.2 ≠ [] ∧ E.Keeps i.2 := by
  obtain ⟨name, hname⟩ := hkeys i.1 (List.mem_map_of_mem hi)
  have hget : u.settings.get name.dotted = some i.2 := by
    rw [hname]
    exact Dict.get_eq_some.2 hi
  have hconfig : (u.deploy bareDevice).configValue name = i.2 := by
    rw [u.configValue_deploy hkeys h.oneLine bareDevice name, hget]
    rfl
  have hresolve : (u.deploy bareDevice).resolve name = if i.2 ≠ [] then some i.2 else none := by
    rw [Device.resolve, hconfig]
    rfl
  have hanswer := h.deployed bareDevice name rfl i.2 hget
  rw [Device.answer, hresolve] at hanswer
  split_ifs at hanswer with hne
  · exact ⟨hne, Option.some.inj hanswer⟩
  · cases hanswer

theorem RoundTrips.values (hkeys : u.WellFormedKeys) (h : u.RoundTrips E) :
    ∀ i ∈ u.settings.items, i.2 ≠ [] ∧ Trimmed i.2 := fun _ hi =>
  ⟨(h.answered hkeys hi).1, trimmed_of_mem_entries (h.mem_entries hi).2⟩

/-- Any shell prints a value as it is that is no option and has no backslash. -/
theorem keeps_of_ordinary {v : List Char} (h : Trimmed v) (hoption : v.head? ≠ some '-')
    (hbackslash : '\\' ∉ v) : E.Keeps v := by
  have hlast : ∀ c ∈ v, ¬ decide (c = '\n') = true := by
    intro c hc hn
    obtain rfl : c = '\n' := by simpa using hn
    exact absurd (h.1 _ hc) (by decide)
  rw [Echo.Keeps, E.ordinary v hoption hbackslash, substitute, List.rdropWhile_concat_pos _ _ _ rfl]
  exact List.rdropWhile_eq_self_iff.2 fun hne => hlast _ (List.getLast_mem hne)

/-! ## Examples of labels -/

end RoundTrips

end DeclaredUnit

/-! ## Runs of changes -/

namespace DeclaredUnit

theorem entry_comment (t : List Char) : entry ('#' :: t) = none := by
  refine if_pos (.inr ?_)
  rw [List.dropWhile_cons_of_neg (by decide)]
  exact ⟨t, rfl⟩

/-- A name on one line leaves nothing. -/
theorem quietName_of_oneLine {u : DeclaredUnit} (h : ∀ c ∈ u.name, isLineBreak c = false) :
    u.QuietName := by
  have hheading : ("# Rackphone unit: ".toList.all fun c => !isLineBreak c) = true := by decide
  have hbreak : ∀ c ∈ u.nameLine, isLineBreak c = false := by
    intro c hc
    obtain hc | hc := List.mem_append.1 hc
    · simpa using List.all_eq_true.1 hheading c hc
    · exact h c hc
  have hdevice : ("# Unit: ".toList.all fun c => c ≠ '\n') = true := by decide
  have hbreak' : ∀ c ∈ u.deviceNameLine, decide (c = '\n') = false := by
    intro c hc
    obtain hc | hc := List.mem_append.1 hc
    · simpa using List.all_eq_true.1 hdevice c hc
    · refine decide_eq_false fun he => ?_
      subst he
      exact absurd (h _ hc) (by decide)
  refine ⟨fun e he => ?_, fun name _ => ?_⟩
  · have hnone : entry u.nameLine = none := entry_comment _
    rw [entries, Lines.split_break hbreak (by decide) (by decide), Lines.split_nil,
      List.filterMap_cons_none hnone] at he
    cases he
  · have hnone : KeyLines.valueIn isShellSpace name.pattern u.deviceNameLine = none :=
      valueIn_comment name _
    rw [Lines.split_break hbreak' (by decide) (by decide), Lines.split_nil, KeyLines.last,
      KeyLines.values, List.filterMap_cons_none hnone]
    rfl

/-- Every value under a key is one whose line is read back. -/
def PlainSettings (E : Echo) (get : List Char → Option (List Char)) : Prop :=
  ∀ key value, get key = some value → (∃ name : SettingName, name.dotted = key)
    ∧ ¬ RESERVED_KEY_PREFIX <+: key ∧ (value ≠ [] ∧ Trimmed value) ∧ E.Keeps value

/-- A unit that comes back, whatever its settings are changed to. -/
structure Steady (E : Echo) (u : DeclaredUnit) : Prop where
  name : ∀ c ∈ u.name, isLineBreak c = false
  serial : ∀ s ∈ u.serial, s ≠ [] ∧ Trimmed s
  label : Trimmed u.label
  settings : PlainSettings E u.settings.get

variable {E : Echo} {u u' : DeclaredUnit}

theorem Steady.wellFormed (h : u.Steady E) : u.WellFormedKeys := by
  intro key hkey
  cases hget : u.settings.get key with
  | none => exact absurd hkey (Dict.get_eq_none.1 hget)
  | some value => exact (h.settings key value hget).1

theorem Steady.plain (h : u.Steady E) : u.Plain E where
  serial := h.serial
  label := h.label
  values i hi := (h.settings i.1 i.2 (Dict.get_eq_some.2 hi)).2.2.1
  echoed i hi := (h.settings i.1 i.2 (Dict.get_eq_some.2 hi)).2.2.2
  keys i hi := (h.settings i.1 i.2 (Dict.get_eq_some.2 hi)).2.1
  name := quietName_of_oneLine h.name

theorem Steady.roundTrips (h : u.Steady E) : u.RoundTrips E := h.plain.roundTrips h.wellFormed

theorem Steady.declared_load (h : u.Steady E) : (load u.name u.save).declared = u.declared := by
  obtain ⟨hserial, hlabel, hsettings, -, -⟩ := h.roundTrips
  rw [declared, declared, hserial, hlabel, funext hsettings]

/-- A unit with the settings of a unit that comes back changed. -/
theorem Steady.of_settings (h : u.Steady E) (hname : u'.name = u.name)
    (hserial : u'.serial = u.serial) (hlabel : u'.label = u.label)
    (hsettings : PlainSettings E u'.settings.get) : u'.Steady E :=
  ⟨hname ▸ h.name, hserial ▸ h.serial, hlabel ▸ h.label, hsettings⟩

theorem PlainSettings.change {d : Declared} (h : PlainSettings E d.setting) (c : Change E) :
    PlainSettings E (d.change c).setting := by
  intro key value hget
  cases c with
  | record setting =>
    have hget : Function.update d.setting setting.name.dotted (some setting.value) key =
      some value := hget
    by_cases hkey : key = setting.name.dotted
    · subst hkey
      rw [Function.update_self] at hget
      obtain rfl := Option.some.inj hget
      exact ⟨⟨setting.name, rfl⟩, setting.unreserved, ⟨setting.ne_nil, setting.trimmed⟩,
        setting.echoed⟩
    · rw [Function.update_of_ne hkey] at hget
      exact h key value hget
  | forget name =>
    have hget : Function.update d.setting name.dotted none key = some value := hget
    by_cases hkey : key = name.dotted
    · subst hkey
      rw [Function.update_self] at hget
      cases hget
    · rw [Function.update_of_ne hkey] at hget
      exact h key value hget

theorem Steady.loaded (h : u.Steady E) : (load u.name u.save).Steady E := by
  refine h.of_settings (name_load ..) h.roundTrips.serial h.roundTrips.label ?_
  rw [funext h.roundTrips.settings]
  exact h.settings

theorem declared_apply (c : Change E) : (c.apply u).declared = u.declared.change c := by
  cases c with
  | record setting =>
    refine congrArg (Declared.mk u.serial u.label) (funext fun key => ?_)
    rw [Change.apply, setSetting, Dict.get_set]
    exact (Function.update_apply ..).symm
  | forget name =>
    refine congrArg (Declared.mk u.serial u.label) (funext fun key => ?_)
    rw [Change.apply, removeSetting, Dict.get_pop]
    exact (Function.update_apply ..).symm

theorem name_apply (c : Change E) : (c.apply u).name = u.name := by
  cases c <;> rfl

theorem Steady.apply (h : u.Steady E) (c : Change E) : (c.apply u).Steady E := by
  refine h.of_settings (name_apply c) (by cases c <;> rfl) (by cases c <;> rfl) ?_
  have hplain := PlainSettings.change (d := u.declared) h.settings c
  rwa [← declared_apply] at hplain

/-- A file that holds a unit that comes back. -/
def Holds (E : Echo) (name file : List Char) : Prop :=
  ∃ w : DeclaredUnit, w.Steady E ∧ w.name = name ∧ file = w.save

/-- A change to the file is a change to what it declares, and the file stays one that comes back. -/
theorem Holds.write {name file : List Char} (h : Holds E name file) (c : Change E) :
    (load name (c.write name file)).declared = (load name file).declared.change c
      ∧ Holds E name (c.write name file) := by
  obtain ⟨w, hw, rfl, rfl⟩ := h
  have hnew : (c.apply (load w.name w.save)).Steady E := hw.loaded.apply c
  have hname : (c.apply (load w.name w.save)).name = w.name := (name_apply c).trans (name_load ..)
  refine ⟨?_, _, hnew, hname, rfl⟩
  rw [Change.write, ← declared_apply, ← hnew.declared_load, hname]

/-- The file declares what the changes leave. -/
theorem Steady.final_changes (h : u.Steady E) (changes : List (Change E)) :
    (load u.name (Run.final (Change.write u.name) u.save changes)).declared =
      Run.final Declared.change u.declared changes := by
  rw [← h.declared_load]
  exact Run.final_simulates (f := fun file => (load u.name file).declared) (I := Holds E u.name)
    (fun _ c hfile => hfile.write c) changes ⟨u, h, rfl, rfl⟩

/-- The unit that is loaded after any changes comes back, and the phone it is pushed to reads it. -/
theorem Steady.final_roundTrips (h : u.Steady E) (changes : List (Change E)) :
    (load u.name (Run.final (Change.write u.name) u.save changes)).RoundTrips E := by
  have hfinal : Holds E u.name (Run.final (Change.write u.name) u.save changes) :=
    Run.final_of_invariant (fun _ c hfile => (hfile.write c).2) changes ⟨u, h, rfl, rfl⟩
  obtain ⟨w, hw, hname, hfile⟩ := hfinal
  rw [hfile, ← hname]
  exact hw.loaded.roundTrips

end DeclaredUnit

end Rackphone
