import Rackphone.Proofs.Settings
import Rackphone.Schema

/-!
# What the host reads of a schema

The reader runs through the document line by line: it takes the lines of a plugin exactly where no
value the listing prints has a control character that is not escaped, and it is then at the next
plugin with the plugin's entry read. `reports_iff` puts the document together.
-/

namespace Rackphone

open Json (Value Frame Reader codes loads setKey lookup lookup_setKey)
open Json.Reader

/-! ## A value between quotes -/

/-- What is left of a text once it was escaped and read. -/
def flattened (t : List Char) : List Char :=
  (t.filter fun c => c ≠ '\r').map fun c => if c = '\n' then ' ' else c

/-- A character that is escaped, taken out or fit to stand in a string. -/
def Kept (c : Char) : Prop := c ∈ ['\t', '\n', '\r'] ∨ 0x20 ≤ c.toNat

instance : DecidablePred Kept := fun _ => inferInstanceAs (Decidable (_ ∨ _))

theorem jsonEscape_cons (c : Char) (t : List Char) :
    jsonEscape (c :: t) = jsonEscape [c] ++ jsonEscape t := by
  simp [jsonEscape]

theorem flattened_cons (c : Char) (t : List Char) :
    flattened (c :: t) = flattened [c] ++ flattened t := by
  unfold flattened
  rw [← List.map_append, ← List.filter_append, List.singleton_append]

/-- How the schema is laid out. -/
def schemaStyle : Json.Style := ⟨true, false⟩

/-- A character that is kept is escaped as any writer escapes what is left of it. -/
theorem jsonEscape_singleton {c : Char} (h : Kept c) :
    jsonEscape [c] = (flattened [c]).flatMap (Json.escapeChar schemaStyle) := by
  by_cases hslash : c = '\\'
  · subst hslash
    rfl
  by_cases hquote : c = '"'
  · subst hquote
    rfl
  by_cases htab : c = '\t'
  · subst htab
    rfl
  by_cases hcr : c = '\r'
  · subst hcr
    rfl
  by_cases hlf : c = '\n'
  · subst hlf
    rfl
  · have hc : 0x20 ≤ c.toNat := h.resolve_left (by simp [htab, hcr, hlf])
    have hescape : Json.escapeChar schemaStyle c = [c] :=
      Json.escapeChar_of_le rfl hslash hquote hc
    simp [jsonEscape, flattened, hslash, hquote, htab, hcr, hlf, hescape]

theorem run_jsonEscape_control {c : Char} (h : ¬ Kept c) (acc : List ℕ) (st : List Frame)
    (u : List Char) : run ⟨.string acc, st⟩ (jsonEscape [c] ++ u) = none := by
  simp only [Kept, List.mem_cons, List.not_mem_nil, or_false, not_or, not_le] at h
  obtain ⟨⟨htab, hlf, hcr⟩, hc⟩ := h
  have hslash : c ≠ '\\' := by
    rintro rfl
    exact absurd hc (by decide)
  have hquote : c ≠ '"' := by
    rintro rfl
    exact absurd hc (by decide)
  have hescape : jsonEscape [c] = [c] := by simp [jsonEscape, hslash, hquote, htab, hcr, hlf]
  have hstep : step ⟨.string acc, st⟩ c = none := by simp [step, hquote, hslash, hc]
  rw [hescape, List.singleton_append, run, hstep, Option.bind_none]

/-- An escaped text is read where none of its characters is left as a control character. -/
theorem run_jsonEscape (st : List Frame) (u : List Char) : ∀ (t : List Char) (acc : List ℕ),
    run ⟨.string acc, st⟩ (jsonEscape t ++ u)
      = if ∀ c ∈ t, Kept c then run ⟨.string ((codes (flattened t)).reverse ++ acc), st⟩ u
        else none
  | [], acc => by simp [jsonEscape, flattened, codes]
  | c :: t, acc => by
    rw [jsonEscape_cons, List.append_assoc]
    by_cases hc : Kept c
    · rw [jsonEscape_singleton hc, run_escaped, run_jsonEscape st u t, flattened_cons c t]
      simp [hc, codes]
    · rw [run_jsonEscape_control hc, if_neg fun h => hc (h c List.mem_cons_self)]

theorem le_of_isNameChar {c : Char} (h : isNameChar c = true) : 0x20 ≤ c.toNat := by
  by_contra hc
  have hcontrol : ∀ n < 0x20, isNameChar (Char.ofNat n) = false := by decide
  rw [← Char.ofNat_toNat c, hcontrol _ (Nat.not_le.1 hc)] at h
  cases h

/-- Letters, digits, `_` and `-` need no escape. -/
theorem unescaped_of_isNameChar {t : List Char} (h : ∀ c ∈ t, isNameChar c) : Json.Unescaped t :=
  fun c hc => ⟨ne_of_mem_of_not_mem hc (not_mem_of_isNameChar h rfl),
    ne_of_mem_of_not_mem hc (not_mem_of_isNameChar h rfl), le_of_isNameChar (h c hc)⟩

theorem flattened_eq_self_iff (t : List Char) : flattened t = t ↔ ∀ c ∈ t, c ≠ '\r' ∧ c ≠ '\n' := by
  constructor
  · intro h
    have hline : ∀ c ∈ flattened t, c ≠ '\n' := by
      intro c hc
      obtain ⟨d, -, rfl⟩ := List.mem_map.1 hc
      split_ifs with hd
      · decide
      · exact hd
    have hlength : (t.filter fun c => c ≠ '\r').length = t.length := by
      simpa [flattened] using congrArg List.length h
    have hcr := List.length_filter_eq_length_iff.1 hlength
    rw [h] at hline
    exact fun c hc => ⟨by simpa using hcr c hc, hline c hc⟩
  · intro h
    have hcr : (t.filter fun c => c ≠ '\r') = t :=
      List.filter_eq_self.2 fun c hc => decide_eq_true (h c hc).1
    rw [flattened, hcr, List.map_congr_left fun c hc => if_neg (h c hc).2, List.map_id']

/-- Nothing is lost of a text that is printable, and only of it. -/
theorem printable_iff (t : List Char) :
    Printable t ↔ (∀ c ∈ t, Kept c) ∧ flattened t = t := by
  rw [flattened_eq_self_iff, Printable, ← forall₂_and]
  refine forall₂_congr fun c _ => ?_
  have hcr : 0x20 ≤ c.toNat → c ≠ '\r' ∧ c ≠ '\n' := by
    intro hc
    constructor <;> rintro rfl <;> exact absurd hc (by decide)
  have htab : c = '\t' → c ≠ '\r' ∧ c ≠ '\n' := by
    rintro rfl
    decide
  simp only [Kept, List.mem_cons, List.not_mem_nil, or_false]
  tauto

/-! ## The keys that are listed -/

theorem keyOfLine_of_words {key rest : List Char} (h : ∀ c ∈ key, isKeyWordChar c) :
    keyOfLine (key ++ '=' :: rest) = some ⟨key, h⟩ := by
  have hdrop : (key ++ '=' :: rest).dropWhile isShellSpace = key ++ '=' :: rest :=
    dropWhile_key (fun c hc => isNameChar_of_isKeyWordChar (h c hc)) (by decide)
  have hequals : isKeyWordChar '=' = false := by decide
  have htake : (key ++ '=' :: rest).takeWhile isKeyWordChar = key := by
    rw [List.takeWhile_append_of_pos h, List.takeWhile_cons_of_neg (by simp [hequals]),
      List.append_nil]
  have hafter : (key ++ '=' :: rest).dropWhile isKeyWordChar = '=' :: rest := by
    rw [List.dropWhile_append_of_pos h, List.dropWhile_cons_of_neg (by simp [hequals])]
  unfold keyOfLine
  simp only [hdrop, hafter, List.head?_cons, if_true, htake]

theorem head?_dropWhile_ne (rest : List Char) : ∀ {key : List Char}, (∀ c ∈ key, isNameChar c) →
    (¬ ∀ c ∈ key, isKeyWordChar c) →
      ((key ++ rest).dropWhile isKeyWordChar).head? ≠ some '='
  | [], _, h => absurd nofun h
  | c :: key, hname, h => by
    obtain ⟨hc, hname⟩ := List.forall_mem_cons.1 hname
    rw [List.cons_append]
    by_cases hword : isKeyWordChar c = true
    · rw [List.dropWhile_cons_of_pos hword]
      exact head?_dropWhile_ne rest hname fun hall => h (List.forall_mem_cons.2 ⟨hword, hall⟩)
    · rw [List.dropWhile_cons_of_neg hword, List.head?_cons]
      rintro ⟨rfl⟩
      exact absurd hc (by decide)

/-- A key with a `-` in it is passed over. -/
theorem keyOfLine_of_not_words {key rest : List Char} (hname : ∀ c ∈ key, isNameChar c)
    (h : ¬ ∀ c ∈ key, isKeyWordChar c) : keyOfLine (key ++ '=' :: rest) = none := by
  have hdrop : (key ++ '=' :: rest).dropWhile isShellSpace = key ++ '=' :: rest :=
    dropWhile_key hname (by decide)
  unfold keyOfLine
  simp only [hdrop]
  exact if_neg (head?_dropWhile_ne _ hname h)

theorem Plugin.mem_listedKeys {plugin : Plugin} {k : KeyWord} : k ∈ plugin.listedKeys
    ↔ ∃ setting ∈ plugin.settings, setting.Listed ∧ k.chars = setting.key.toList := by
  have hcomment : keyOfLine
      "# Generated from plugin.json by scripts/build-modules.sh - do not edit.".toList = none := by
    decide
  rw [listedKeys, List.mem_filter, List.mem_filterMap, defaultsEnv]
  constructor
  · rintro ⟨⟨line, hline, hk⟩, hne⟩
    rcases List.mem_cons.1 hline with rfl | hline
    · rw [hcomment] at hk
      cases hk
    · obtain ⟨setting, hmem, rfl⟩ := List.mem_map.1 hline
      by_cases hwords : ∀ c ∈ setting.key.toList, isKeyWordChar c
      · rw [keyOfLine_of_words hwords] at hk
        obtain rfl := Option.some.inj hk
        exact ⟨setting, hmem, ⟨by simpa using hne, hwords⟩, rfl⟩
      · rw [keyOfLine_of_not_words setting.key_chars hwords] at hk
        cases hk
  · rintro ⟨setting, hmem, ⟨hne, hwords⟩, hk⟩
    have hline := List.mem_map_of_mem
      (f := fun st : Setting => st.key.toList ++ '=' :: st.default.toList) hmem
    refine ⟨⟨_, List.mem_cons_of_mem _ hline, ?_⟩, ?_⟩
    · rw [keyOfLine_of_words hwords]
      exact congrArg some (KeyWord.ext hk.symm)
    · simpa [hk] using hne

/-! ## Blocks of lines -/

@[simp] theorem unlines_nil : unlines [] = [] := rfl

theorem unlines_cons (line : List Char) (lines : List (List Char)) :
    unlines (line :: lines) = line ++ '\n' :: unlines lines := by
  simp [unlines]

theorem unlines_append (a b : List (List Char)) : unlines (a ++ b) = unlines a ++ unlines b :=
  List.flatMap_append

section Blocks

variable {α σ : Type*} (line : α → List (List Char)) (comma close : List Char) (ok : α → Prop)
  [DecidablePred ok] (add : σ → α → σ) (next shut closed : σ → Reader)

/-- Blocks with a comma between them are read one by one. -/
theorem run_blocks
    (hline : ∀ a x u, run (next x) (unlines (line a) ++ u)
      = if ok a then run (shut (add x a)) u else none)
    (hcomma : ∀ x u, run (shut x) (unlines [comma] ++ u) = run (next x) u) :
    ∀ (as : List α) (a : α) (x : σ) (u : List Char),
      run (next x) (unlines ([comma].intercalate ((a :: as).map line)) ++ u)
        = if ∀ b ∈ a :: as, ok b then run (shut ((a :: as).foldl add x)) u else none
  | [], a, x, u => by simpa using hline a x u
  | b :: as, a, x, u => by
    rw [List.map_cons, List.map_cons, List.intercalate_cons_cons, ← List.map_cons, unlines_append,
      unlines_append, List.append_assoc, List.append_assoc, hline]
    by_cases ha : ok a
    · rw [if_pos ha, hcomma, run_blocks hline hcomma as b]
      simp [ha]
    · rw [if_neg ha, if_neg fun h => ha (h a List.mem_cons_self)]

/-- Blocks up to the line that closes them, where the reader stands at the first of them. -/
theorem run_closed {first : Reader} {x₀ : σ}
    (hline : ∀ a x u, run (next x) (unlines (line a) ++ u)
      = if ok a then run (shut (add x a)) u else none)
    (hcomma : ∀ x u, run (shut x) (unlines [comma] ++ u) = run (next x) u)
    (hfirst : ∀ a u, run first (unlines (line a) ++ u) = run (next x₀) (unlines (line a) ++ u))
    (hempty : ∀ u, run first (unlines [close] ++ u) = run (closed x₀) u)
    (hclose : ∀ x u, run (shut x) (unlines [close] ++ u) = run (closed x) u)
    (as : List α) (u : List Char) :
    run first (unlines ([comma].intercalate (as.map line)) ++ (unlines [close] ++ u))
      = if ∀ a ∈ as, ok a then run (closed (as.foldl add x₀)) u else none := by
  cases as with
  | nil => simpa [unlines] using hempty u
  | cons a as =>
    have hhead : ∀ t, run first (unlines ([comma].intercalate ((a :: as).map line)) ++ t)
        = run (next x₀) (unlines ([comma].intercalate ((a :: as).map line)) ++ t) := by
      intro t
      cases as with
      | nil => simpa using hfirst a t
      | cons b as =>
        rw [List.map_cons, List.map_cons, List.intercalate_cons_cons, unlines_append,
          unlines_append, List.append_assoc, List.append_assoc, hfirst]
    rw [hhead, run_blocks line comma ok add next shut hline hcomma]
    split_ifs
    · exact hclose _ u
    · rfl

end Blocks

/-! ## The lines of a plugin -/

namespace InstalledPlugin

variable {str : Value → List ℕ} (p : InstalledPlugin str) (s : Device)

/-- What the document says of a key. -/
def said (k : KeyWord) : Value :=
  .obj [(codes "value".toList, .str (codes (flattened (s.effective (p.listedName k))))),
    (codes "origin".toList, Schema.ofText (s.origin (p.listedName k)))]

def Legible (k : KeyWord) : Prop := ∀ c ∈ s.effective (p.listedName k), Kept c

instance : DecidablePred (p.Legible s) := fun k =>
  inferInstanceAs (Decidable (∀ c ∈ s.effective (p.listedName k), Kept c))

def AllLegible : Prop := ∀ k ∈ p.plugin.listedKeys, p.Legible s k

instance : Decidable (p.AllLegible s) :=
  inferInstanceAs (Decidable (∀ k ∈ p.plugin.listedKeys, p.Legible s k))

def addSaid (fs : List (List ℕ × Value)) (k : KeyWord) : List (List ℕ × Value) :=
  setKey (codes k.chars) (p.said s k) fs

def values : List (List ℕ × Value) := p.plugin.listedKeys.foldl (p.addSaid s) []

def entry : Value :=
  .obj [(codes "id".toList, Schema.ofText p.id), (codes "declaration".toList, .obj p.fields),
    (codes "values".toList, .obj (p.values s))]

variable (st : List Frame)

theorem run_valueLine (k : KeyWord) (fs : List (List ℕ × Value)) (u : List Char) :
    run ⟨.key, .key fs :: st⟩ (unlines [p.valueLine s k] ++ u)
      = if p.Legible s k then run ⟨.after, .key (p.addSaid s fs k) :: st⟩ u else none := by
  have hkey : ∀ c ∈ k.chars, isNameChar c := fun c hc => isNameChar_of_isKeyWordChar (k.words c hc)
  have horigin : ∀ c ∈ (s.origin (p.listedName k)).toList, isNameChar c := by
    unfold Device.origin
    split_ifs <;> simp [isNameChar]
  have hsplit : unlines [p.valueLine s k] ++ u = "        \"".toList ++ (k.chars
      ++ ("\": \x7b \"value\": \"".toList ++ (jsonEscape (s.effective (p.listedName k))
      ++ ("\", \"origin\": \"".toList ++ ((s.origin (p.listedName k)).toList
      ++ ("\" \x7d".toList ++ '\n' :: u)))))) := by
    delta valueLine
    simp only [unlines_cons, unlines_nil, List.append_assoc, List.singleton_append]
  have hquote : ∀ u, run ⟨.key, .key fs :: st⟩ ("        \"".toList ++ u)
      = run ⟨.string [], .key fs :: st⟩ u := fun _ => rfl
  have hvalue : ∀ acc u, run ⟨.string acc, .key fs :: st⟩ ("\": \x7b \"value\": \"".toList ++ u)
      = run ⟨.string [], .val [] (codes "value".toList) :: .val fs acc.reverse :: st⟩ u :=
    fun _ _ => rfl
  have hnext : ∀ acc st u, run ⟨.string acc, .val [] (codes "value".toList) :: st⟩
      ("\", \"origin\": \"".toList ++ u)
        = run ⟨.string [], .val [(codes "value".toList, .str acc.reverse)]
          (codes "origin".toList) :: st⟩ u := fun _ _ _ => rfl
  have hend : ∀ acc v key u, run ⟨.string acc, .val [(codes "value".toList, v)]
      (codes "origin".toList) :: .val fs key :: st⟩ ("\" \x7d".toList ++ '\n' :: u)
        = run ⟨.after, .key (setKey key (.obj [(codes "value".toList, v),
          (codes "origin".toList, .str acc.reverse)]) fs) :: st⟩ u := fun _ _ _ _ => rfl
  rw [hsplit, hquote, run_unescaped (unescaped_of_isNameChar hkey), hvalue, run_jsonEscape]
  refine if_congr Iff.rfl ?_ rfl
  rw [hnext, run_unescaped (unescaped_of_isNameChar horigin), hend]
  simp only [List.append_nil, List.reverse_reverse]
  rfl

theorem run_values (u : List Char) :
    run ⟨.firstKey, .key [] :: st⟩ (unlines (["        ,".toList].intercalate
        (p.plugin.listedKeys.map fun k => [p.valueLine s k]))
          ++ (unlines ["      \x7d".toList] ++ u))
      = if p.AllLegible s then run (complete (.obj (p.values s)) st) u else none := by
  refine run_closed (fun k => [p.valueLine s k]) _ _ (p.Legible s) (p.addSaid s)
    (fun fs => ⟨.key, .key fs :: st⟩) (fun fs => ⟨.after, .key fs :: st⟩)
    (fun fs => complete (.obj fs) st) (fun k fs u => p.run_valueLine s st k fs u) (fun _ _ => rfl)
    (fun k u => ?_) (fun u => ?_) (fun fs u => ?_) _ u
  · delta valueLine
    simp only [unlines_cons, unlines_nil, List.append_assoc]
    rfl
  · exact run_complete_newline (.obj []) st u
  · exact run_complete_newline (.obj fs) st u

theorem run_lines (vs : List Value) (u : List Char) :
    run ⟨.value, .arr vs :: st⟩ (unlines (p.lines s) ++ u)
      = if p.AllLegible s then run ⟨.after, .arr (vs ++ [p.entry s]) :: st⟩ u else none := by
  have hsplit : unlines (p.lines s) ++ u = "    \x7b\n      \"id\": \"".toList ++ (p.id.toList
      ++ ("\",\n      \"declaration\": ".toList ++ ((p.text.filter fun c => c ≠ '\n')
      ++ ',' :: ("\n      \"values\": \x7b\n".toList
      ++ (unlines (["        ,".toList].intercalate
        (p.plugin.listedKeys.map fun k => [p.valueLine s k]))
      ++ (unlines ["      \x7d".toList] ++ (unlines ["    \x7d".toList] ++ u))))))) := by
    delta lines
    simp only [unlines_append, unlines_cons, unlines_nil, List.append_assoc, List.cons_append,
      List.nil_append]
    rfl
  have hid : ∀ u, run ⟨.value, .arr vs :: st⟩ ("    \x7b\n      \"id\": \"".toList ++ u)
      = run ⟨.string [], .val [] (codes "id".toList) :: .arr vs :: st⟩ u := fun _ => rfl
  have hdeclaration : ∀ acc u, run ⟨.string acc, .val [] (codes "id".toList) :: .arr vs :: st⟩
      ("\",\n      \"declaration\": ".toList ++ u)
        = run ⟨.value, .val [(codes "id".toList, .str acc.reverse)] (codes "declaration".toList)
          :: .arr vs :: st⟩ u := fun _ _ => rfl
  have hvalues : ∀ fs u, run ⟨.key, .key fs :: .arr vs :: st⟩
      ("\n      \"values\": \x7b\n".toList ++ u)
        = run ⟨.firstKey, .key [] :: .val fs (codes "values".toList) :: .arr vs :: st⟩ u :=
    fun _ _ => rfl
  have hst : TakesValue (.val [(codes "id".toList, .str (codes p.id.toList))]
      (codes "declaration".toList) :: .arr vs :: st) := nofun
  have hcomma : stepComplete (complete (.obj p.fields) (.val [(codes "id".toList,
      .str (codes p.id.toList))] (codes "declaration".toList) :: .arr vs :: st)) ','
        = some ⟨.key, .key [(codes "id".toList, .str (codes p.id.toList)),
          (codes "declaration".toList, .obj p.fields)] :: .arr vs :: st⟩ := rfl
  rw [hsplit, hid, run_unescaped (unescaped_of_isNameChar p.id_chars), hdeclaration]
  simp only [List.append_nil, List.reverse_reverse]
  rw [run_inside hst p.reads hcomma, hvalues, p.run_values]
  rfl

end InstalledPlugin

/-! ## The document -/

/-- What follows the first blank of the line that opens the list. -/
def pluginsKey : List Char := " \"plugins\": [\n".toList

theorem run_pluginsKey_complete (v : Value) (s : List Frame) :
    run (complete v s) pluginsKey = none := by
  rcases s with _ | ⟨f, s⟩
  · rfl
  · cases f <;> rfl

/-- A string ends at the first quote, and no string is followed by a word. -/
theorem run_pluginsKey_string (acc : List ℕ) (s : List Frame) :
    run ⟨.string acc, s⟩ pluginsKey = none := by
  have hword : ∀ x t, run (completeString x t) "plugins\": [\n".toList = none := by
    intro x t
    rcases t with _ | ⟨f, t⟩
    · rfl
    · cases f <;> rfl
  have hblank : step ⟨.string acc, s⟩ ' ' = some ⟨.string (' '.toNat :: acc), s⟩ := by
    rw [← pushCode_toNat]
    rfl
  have hquote : step ⟨.string (' '.toNat :: acc), s⟩ '"'
      = some (completeString (' '.toNat :: acc).reverse s) := rfl
  exact (run_of_step _ hblank _).trans ((run_of_step _ hquote _).trans (hword _ s))

/-- The line that opens the list is taken only where an object is at a key. -/
theorem eq_of_run_pluginsLine {r r' : Reader} (hr : Unbroken r.mode)
    (h : run r (' ' :: pluginsKey) = some r') :
    ∃ fs st, r' = ⟨.first, .arr [] :: .val fs (codes "plugins".toList) :: st⟩ := by
  have hstring : ∀ s, run ⟨.value, s⟩ pluginsKey = some r' →
      ∃ fs st, r' = ⟨.first, .arr [] :: .val fs (codes "plugins".toList) :: st⟩ := by
    intro s hs
    rcases s with _ | ⟨f, s⟩
    · cases hs
    · cases f with
      | key fs =>
        obtain rfl := Option.some.inj hs
        exact ⟨fs, s, rfl⟩
      | _ => cases hs
  obtain ⟨r₁, h₁, h₂⟩ := Option.bind_eq_some_iff.1 h
  have hended : ∀ v s, stepComplete (complete v s) ' ' ≠ some r₁ := by
    intro v s hs
    obtain rfl := Option.some.inj ((stepComplete_of_isSpace v s rfl).symm.trans hs)
    rw [run_pluginsKey_complete] at h₂
    cases h₂
  obtain ⟨mode, s⟩ := r
  cases mode with
  | value | key =>
    obtain rfl := Option.some.inj h₁
    exact hstring s h₂
  | first =>
    obtain rfl := Option.some.inj h₁
    rcases s with _ | ⟨f, s⟩
    · cases h₂
    · cases f with
      | arr vs => exact hstring (.arr vs :: s) h₂
      | _ => cases h₂
  | firstKey =>
    obtain rfl := Option.some.inj h₁
    rcases s with _ | ⟨f, s⟩
    · cases h₂
    · cases f with
      | key fs => exact hstring (.key fs :: s) h₂
      | _ => cases h₂
  | colon =>
    obtain rfl := Option.some.inj h₁
    cases h₂
  | escape | hex => cases h₁
  | after =>
    obtain rfl := Option.some.inj h₁
    rcases s with _ | ⟨f, s⟩
    · cases h₂
    · cases f <;> cases h₂
  | done v =>
    obtain rfl := Option.some.inj h₁
    cases h₂
  | string acc =>
    obtain rfl := Option.some.inj h₁
    rw [run_pluginsKey_string] at h₂
    cases h₂
  | literal rest v =>
    rcases rest with _ | ⟨d, rest⟩
    · exact absurd h₁ (hended v s)
    · have hblank : ' ' ≠ d := by
        rintro rfl
        exact absurd (List.forall_mem_cons.1 hr).1 (by decide)
      have hstep : step ⟨.literal (d :: rest) v, s⟩ ' ' = none := if_neg hblank
      rw [hstep] at h₁
      cases h₁
  | number phase spelling =>
    have hinert : nextPhase ' ' phase = none := inert_of_toNat (by decide) (by decide) phase
    have hI : ' ' ≠ 'I' := by decide
    simp only [step, hinert, hI, and_false, if_false] at h₁
    obtain ⟨v, -, hs⟩ := Option.bind_eq_some_iff.1 h₁
    exact absurd hs (hended v s)

namespace Product

variable (product : Product)

/-- The reader is at the list of plugins once it has read the names of the product. -/
def Head (fs : List (List ℕ × Value)) : Prop :=
  Reader.start.run (unlines product.headLines)
    = some ⟨.first, [.arr [], .val fs (codes "plugins".toList)]⟩

theorem eq_of_run_headLines {r : Reader}
    (h : Reader.start.run (unlines product.headLines) = some r) :
    ∃ fs st, r = ⟨.first, .arr [] :: .val fs (codes "plugins".toList) :: st⟩ := by
  have hsplit : product.headLines = product.headLines.dropLast ++ ["  \"plugins\": [".toList] := rfl
  rw [hsplit, unlines_append, run_append] at h
  obtain ⟨r₀, hr₀, hline⟩ := Option.bind_eq_some_iff.1 h
  have hstart : Unbroken Reader.start.mode := trivial
  exact eq_of_run_pluginsLine (unbroken_run _ hstart hr₀) hline

end Product

namespace PhoneUnit

variable {str : Value → List ℕ} (phone : PhoneUnit str)

def AllLegible : Prop := ∀ p ∈ phone.plugins, p.AllLegible phone.device

instance : Decidable phone.AllLegible :=
  inferInstanceAs (Decidable (∀ p ∈ phone.plugins, p.AllLegible phone.device))

/-- The list of plugins, up to its bracket. -/
theorem run_plugins (st : List Frame) (u : List Char) :
    run ⟨.first, .arr [] :: st⟩ (unlines (["    ,".toList].intercalate
        (phone.plugins.map fun p => p.lines phone.device)) ++ (unlines ["  ]".toList] ++ u))
      = if phone.AllLegible then
          run (complete (.arr (phone.plugins.map fun p => p.entry phone.device)) st) u
        else none := by
  have hentries : phone.plugins.map (fun p => p.entry phone.device)
      = phone.plugins.foldl (fun vs p => vs ++ [p.entry phone.device]) [] := by
    rw [List.foldl_append_eq_append, List.nil_append, ← List.flatMap_def, ← List.map_eq_flatMap]
  rw [hentries]
  refine run_closed (fun p : InstalledPlugin str => p.lines phone.device) _ _
    (fun p => p.AllLegible phone.device) _
    (fun vs => ⟨.value, .arr vs :: st⟩) (fun vs => ⟨.after, .arr vs :: st⟩)
    (fun vs => complete (.arr vs) st) (fun p vs u => p.run_lines phone.device st vs u)
    (fun _ _ => rfl) (fun p u => ?_) (fun u => ?_) (fun vs u => ?_) _ u
  · delta InstalledPlugin.lines
    simp only [unlines_append, unlines_cons, List.append_assoc]
    rfl
  · exact run_complete_newline (.arr []) st u
  · exact run_complete_newline (.arr vs) st u

/-- The document the host reads. -/
def document (fs : List (List ℕ × Value)) : Value :=
  .obj (setKey (codes "plugins".toList)
    (.arr (phone.plugins.map fun p => p.entry phone.device)) fs)

theorem result_body (fs : List (List ℕ × Value)) (st : List Frame) :
    (run ⟨.first, .arr [] :: .val fs (codes "plugins".toList) :: st⟩
      (unlines (["    ,".toList].intercalate (phone.plugins.map fun p => p.lines phone.device))
        ++ (unlines ["  ]".toList] ++ unlines ["\x7d".toList]))).bind result
      = if phone.AllLegible ∧ st = [] then some (phone.document fs) else none := by
  have hclose : ∀ v, run (complete v (.val fs (codes "plugins".toList) :: st))
      (unlines ["\x7d".toList])
        = some (complete (.obj (setKey (codes "plugins".toList) v fs)) st) := by
    intro v
    exact run_complete_newline (.obj (setKey (codes "plugins".toList) v fs)) st []
  rw [run_plugins, hclose]
  by_cases hlegible : phone.AllLegible
  · rw [if_pos hlegible, Option.bind_some, result_complete]
    simp only [hlegible, true_and]
    rfl
  · rw [if_neg hlegible, if_neg fun h => hlegible h.1, Option.bind_none]

/-- The document parses exactly where the names of the product leave it alone and every value is
legible. -/
theorem loads_cmdSchema_iff (v : Value) : loads phone.cmdSchema = some v
    ↔ phone.AllLegible ∧ ∃ fs, phone.product.Head fs ∧ v = phone.document fs := by
  have hsplit : phone.cmdSchema = unlines phone.product.headLines
      ++ (unlines (["    ,".toList].intercalate (phone.plugins.map fun p => p.lines phone.device))
        ++ (unlines ["  ]".toList] ++ unlines ["\x7d".toList])) := by
    rw [cmdSchema, unlines_append, unlines_append, List.append_assoc]
    rfl
  rw [loads, hsplit, run_append]
  cases hhead : Reader.start.run (unlines phone.product.headLines) with
  | none => simp [Product.Head, hhead]
  | some r =>
    obtain ⟨fs, st, rfl⟩ := phone.product.eq_of_run_headLines hhead
    rw [Option.bind_some, result_body]
    constructor
    · intro h
      split_ifs at h with hok
      obtain ⟨hlegible, rfl⟩ := hok
      exact ⟨hlegible, fs, hhead, (Option.some.inj h).symm⟩
    · rintro ⟨hlegible, fs', hfs', rfl⟩
      obtain ⟨-, hstack⟩ := Reader.mk.inj (Option.some.inj (hhead.symm.trans hfs'))
      obtain ⟨hfs, rfl⟩ := List.cons.inj (List.cons.inj hstack).2
      obtain ⟨rfl, -⟩ := Frame.val.inj hfs
      rw [if_pos ⟨hlegible, rfl⟩]

end PhoneUnit

/-- Without plugins too, it is the names of the product that make a document or none. -/
theorem Product.reads_iff (product : Product) : product.Reads ↔ ∃ fs, product.Head fs := by
  let bare : PhoneUnit fun _ => [] :=
    ⟨⟨fun _ => none, fun _ => ⟨[], Device.nil_fits⟩, []⟩, product, [], by simp⟩
  have htext : bare.cmdSchema = unlines (product.headLines ++ Product.tailLines) := by
    simp [bare, PhoneUnit.cmdSchema]
  have hlegible : bare.AllLegible := fun p hp => absurd hp List.not_mem_nil
  rw [Product.Reads, ← htext, Option.isSome_iff_exists]
  constructor
  · rintro ⟨v, hv⟩
    obtain ⟨-, fs, hfs, -⟩ := (bare.loads_cmdSchema_iff v).1 hv
    exact ⟨fs, hfs⟩
  · rintro ⟨fs, hfs⟩
    exact ⟨_, (bare.loads_cmdSchema_iff _).2 ⟨hlegible, fs, hfs, rfl⟩⟩

/-- Names without a quote, a backslash or a control character leave the document alone. -/
theorem Product.reads_of_unescaped {product : Product} (hdevice : Json.Unescaped product.device)
    (hmodel : Json.Unescaped product.model) (hlineage : Json.Unescaped product.lineage) :
    product.Reads := by
  have hsplit : unlines product.headLines = "\x7b\n  \"unit\": \"".toList ++ (product.device
      ++ ("\",\n  \"model\": \"".toList ++ (product.model
      ++ ("\",\n  \"lineage\": \"".toList ++ (product.lineage
      ++ "\",\n  \"plugins\": [\n".toList))))) := by
    delta headLines
    simp only [unlines_cons, unlines_nil, List.append_assoc]
    rfl
  have hunit : ∀ u, Reader.start.run ("\x7b\n  \"unit\": \"".toList ++ u)
      = run ⟨.string [], [.val [] (codes "unit".toList)]⟩ u := fun _ => rfl
  have hnext : ∀ acc fs key u, run ⟨.string acc, [.val fs key]⟩
      ("\",\n  \"model\": \"".toList ++ u)
        = run ⟨.string [], [.val (setKey key (.str acc.reverse) fs) (codes "model".toList)]⟩ u :=
    fun _ _ _ _ => rfl
  have hlast : ∀ acc fs key u, run ⟨.string acc, [.val fs key]⟩
      ("\",\n  \"lineage\": \"".toList ++ u)
        = run ⟨.string [], [.val (setKey key (.str acc.reverse) fs) (codes "lineage".toList)]⟩ u :=
    fun _ _ _ _ => rfl
  refine product.reads_iff.2 ⟨[(codes "unit".toList, .str (codes product.device)),
    (codes "model".toList, .str (codes product.model)),
    (codes "lineage".toList, .str (codes product.lineage))], ?_⟩
  change Reader.start.run (unlines product.headLines) = _
  rw [hsplit, hunit, run_unescaped hdevice, hnext, run_unescaped hmodel, hlast,
    run_unescaped hlineage]
  simp only [List.append_nil, List.reverse_reverse]
  have hend : ∀ acc fs, run ⟨.string acc, [.val fs (codes "lineage".toList)]⟩
      "\",\n  \"plugins\": [\n".toList = some ⟨.first, [.arr [],
        .val (setKey (codes "lineage".toList) (.str acc.reverse) fs) (codes "plugins".toList)]⟩ :=
    fun _ _ => rfl
  rw [hend, List.reverse_reverse]
  rfl

/-! ## What the host makes of it -/

namespace InstalledPlugin

variable {str : Value → List ℕ} (p : InstalledPlugin str) (s : Device)

theorem lookup_foldl_of_forall {x : List Char} : ∀ {ks : List KeyWord}
    (fs : List (List ℕ × Value)), (∀ k ∈ ks, k.chars ≠ x) →
      lookup (codes x) (ks.foldl (p.addSaid s) fs) = lookup (codes x) fs
  | [], _, _ => rfl
  | k :: ks, fs, h => by
    obtain ⟨hk, hks⟩ := List.forall_mem_cons.1 h
    rw [List.foldl_cons, lookup_foldl_of_forall _ hks, addSaid, lookup_setKey,
      if_neg fun he => hk (Json.codes_injective he)]

theorem lookup_foldl_of_mem {k : KeyWord} : ∀ {ks : List KeyWord} (fs : List (List ℕ × Value)),
    k ∈ ks → lookup (codes k.chars) (ks.foldl (p.addSaid s) fs) = some (p.said s k)
  | k' :: ks, fs, h => by
    rw [List.foldl_cons]
    by_cases hks : k ∈ ks
    · exact lookup_foldl_of_mem _ hks
    · obtain rfl := (List.mem_cons.1 h).resolve_right hks
      have hapart : ∀ k' ∈ ks, k'.chars ≠ k.chars := fun k' hk' he => hks (KeyWord.ext he ▸ hk')
      rw [p.lookup_foldl_of_forall s _ hapart, addSaid, lookup_setKey, if_pos rfl]

/-- What the host reads of an entry. -/
theorem fromDict_entry : ∃ plugin, Schema.Plugin.fromDict str (p.entry s) = some plugin
    ∧ plugin.pluginId = Schema.ofText p.id ∧ plugin.values = .obj (p.values s) := by
  have hsettings : Schema.settingsOf str (.obj p.fields) = some p.settings := p.declares
  have hget : ∀ k default, ∃ v, Schema.get k default (.obj p.fields) = some v :=
    fun k default => ⟨_, rfl⟩
  obtain ⟨name, hname⟩ := hget "name" (Schema.ofText p.id)
  obtain ⟨description, hdescription⟩ := hget "description" (Schema.ofText "")
  obtain ⟨actions, hactions⟩ := hget "actions" (.arr [])
  obtain ⟨status, hstatus⟩ := hget "status" (.arr [])
  have hdeclaration : Schema.get "declaration" (.obj []) (p.entry s) = some (.obj p.fields) := rfl
  have hid : Schema.item "id" (p.entry s) = some (Schema.ofText p.id) := rfl
  have hvalues : Schema.get "values" (.obj []) (p.entry s) = some (.obj (p.values s)) := rfl
  refine ⟨⟨Schema.ofText p.id, name, description, p.settings, actions, status,
    .obj (p.values s)⟩, ?_, rfl, rfl⟩
  simp [Schema.Plugin.fromDict, hdeclaration, hid, hname, hdescription, hsettings, hactions,
    hstatus, hvalues]

theorem listedName_eq {setting : Setting} {k : KeyWord} (h : k.chars = setting.key.toList) :
    p.listedName k = p.settingName setting := by
  simp [listedName, settingName, h]

theorem values_congr {q : InstalledPlugin str} (hid : q.id = p.id) (hplugin : q.plugin = p.plugin) :
    q.values s = p.values s := by
  have hname : ∀ k, q.listedName k = p.listedName k := fun k => by simp [listedName, hid]
  have hadd : q.addSaid s = p.addSaid s := by
    funext fs k
    rw [addSaid, addSaid, said, said, hname]
  rw [values, values, hadd, hplugin]

variable {p s} {plugin : Schema.Plugin} {setting : Setting}

theorem get_of_listed (hvalues : plugin.values = .obj (p.values s)) (hlisted : setting.Listed)
    (hsetting : setting ∈ p.plugin.settings) :
    plugin.getValue setting.key
        = some (.str (codes (flattened (s.effective (p.settingName setting)))))
      ∧ plugin.getOrigin setting.key = some (Schema.ofText (s.origin (p.settingName setting))) := by
  let k : KeyWord := ⟨setting.key.toList, hlisted.2⟩
  have hk : k ∈ p.plugin.listedKeys := Plugin.mem_listedKeys.2 ⟨setting, hsetting, hlisted, rfl⟩
  have hlookup : lookup (codes setting.key.toList) (p.values s) = some (p.said s k) :=
    p.lookup_foldl_of_mem s [] hk
  have hsaid : Schema.get setting.key (.obj []) plugin.values = some (p.said s k) := by
    rw [hvalues, Schema.get, hlookup, Option.getD_some]
  rw [Schema.Plugin.getValue, Schema.Plugin.getOrigin, hsaid, ← p.listedName_eq (k := k) rfl]
  exact ⟨rfl, rfl⟩

theorem get_of_not_listed (hvalues : plugin.values = .obj (p.values s))
    (hlisted : ¬ setting.Listed) : plugin.getValue setting.key = some (Schema.ofText "")
      ∧ plugin.getOrigin setting.key = some (Schema.ofText "default") := by
  have hapart : ∀ k ∈ p.plugin.listedKeys, k.chars ≠ setting.key.toList := by
    intro k hk he
    obtain ⟨other, -, hother, hchars⟩ := Plugin.mem_listedKeys.1 hk
    have hkey : other.key = setting.key := String.toList_injective (hchars.symm.trans he)
    rw [Setting.Listed, hkey] at hother
    exact hlisted hother
  have hlookup : lookup (codes setting.key.toList) (p.values s) = none :=
    p.lookup_foldl_of_forall s [] hapart
  have hnothing : Schema.get setting.key (.obj []) plugin.values = some (.obj []) := by
    rw [hvalues, Schema.get, hlookup, Option.getD_none]
  rw [Schema.Plugin.getValue, Schema.Plugin.getOrigin, hnothing]
  exact ⟨rfl, rfl⟩

end InstalledPlugin

namespace PhoneUnit

variable {str : Value → List ℕ} (phone : PhoneUnit str)

/-- What the host has read of an entry. -/
def ReadAs (s : Device) (p : InstalledPlugin str) (plugin : Schema.Plugin) : Prop :=
  plugin.pluginId = Schema.ofText p.id ∧ plugin.values = .obj (p.values s)

theorem mapM_entries (s : Device) : ∀ ps : List (InstalledPlugin str),
    ∃ plugins, (ps.map fun p => p.entry s).mapM (Schema.Plugin.fromDict str) = some plugins
      ∧ List.Forall₂ (ReadAs s) ps plugins
  | [] => ⟨[], rfl, .nil⟩
  | p :: ps => by
    obtain ⟨plugin, hplugin, hread⟩ := p.fromDict_entry s
    obtain ⟨plugins, hplugins, hreads⟩ := mapM_entries s ps
    exact ⟨plugin :: plugins, by simp [hplugin, hplugins], .cons hread hreads⟩

theorem hasId_iff {s : Device} {p : InstalledPlugin str} {plugin : Schema.Plugin}
    (h : ReadAs s p plugin) (id : String) : plugin.HasId id ↔ p.id = id := by
  simp only [Schema.Plugin.HasId, h.1, Schema.ofText, decide_eq_true_eq]
  exact Json.codes_toList_injective.eq_iff

/-- The plugin that is found has the values of every plugin of its id. -/
theorem find?_hasId {s : Device} {p : InstalledPlugin str} :
    ∀ {ps : List (InstalledPlugin str)} {plugins : List Schema.Plugin},
      List.Forall₂ (ReadAs s) ps plugins → (∀ q ∈ ps, s.plugins q.id = some q.plugin) →
      s.plugins p.id = some p.plugin → p ∈ ps →
      ∃ plugin, plugins.find? (fun plugin => plugin.HasId p.id) = some plugin
        ∧ plugin.values = .obj (p.values s)
  | q :: ps, plugin :: plugins, hreads, hinstalled, hp, hmem => by
    obtain ⟨hread, hreads⟩ := List.forall₂_cons.1 hreads
    obtain ⟨hq, hinstalled⟩ := List.forall_mem_cons.1 hinstalled
    rw [List.find?_cons]
    by_cases hid : q.id = p.id
    · rw [(hasId_iff hread p.id).2 hid]
      rw [hid, hp] at hq
      refine ⟨plugin, rfl, ?_⟩
      rw [hread.2, p.values_congr s hid (Option.some.inj hq).symm]
    · have hnot : plugin.HasId p.id = false :=
        Bool.eq_false_iff.2 fun h => hid ((hasId_iff hread p.id).1 h)
      rw [hnot]
      refine find?_hasId hreads hinstalled hp ((List.mem_cons.1 hmem).resolve_left ?_)
      rintro rfl
      exact hid rfl

/-- What is parsed of a document has the values of every plugin. -/
theorem parseSchema_cmdSchema (hlegible : phone.AllLegible) {fs : List (List ℕ × Value)}
    (hfs : phone.product.Head fs) : ∃ schema, parseSchema str phone.cmdSchema = some schema
      ∧ ∀ p ∈ phone.plugins, ∃ plugin, schema.getPlugin p.id = some plugin
        ∧ plugin.values = .obj (p.values phone.device) := by
  have hloads := (phone.loads_cmdSchema_iff _).2 ⟨hlegible, fs, hfs, rfl⟩
  obtain ⟨plugins, hplugins, hreads⟩ := mapM_entries phone.device phone.plugins
  have hget : ∀ k default, ∃ v, Schema.get k default (phone.document fs) = some v :=
    fun k default => ⟨_, rfl⟩
  obtain ⟨unitName, hunit⟩ := hget "unit" (Schema.ofText "?")
  obtain ⟨model, hmodel⟩ := hget "model" (Schema.ofText "?")
  obtain ⟨lineage, hlineage⟩ := hget "lineage" (Schema.ofText "?")
  have hlist : Schema.get "plugins" (.arr []) (phone.document fs)
      = some (.arr (phone.plugins.map fun p => p.entry phone.device)) := by
    rw [document, Schema.get, lookup_setKey, if_pos rfl, Option.getD_some]
  refine ⟨⟨unitName, model, lineage, plugins⟩, ?_, fun p hp => ?_⟩
  · simp [parseSchema, hloads, hunit, hmodel, hlineage, hlist, Schema.iterate, hplugins]
  · exact find?_hasId hreads phone.installed (phone.installed p hp) hp

/-- Where every value can be shown, every line of the document can be read. -/
theorem allLegible_of_presentable (h : phone.Presentable) : phone.AllLegible := by
  intro p hp k hk
  obtain ⟨setting, hsetting, hlisted, hchars⟩ := Plugin.mem_listedKeys.1 hk
  have hvalue := h p hp setting hsetting
  rw [if_pos hlisted] at hvalue
  rw [InstalledPlugin.Legible, p.listedName_eq hchars]
  exact ((printable_iff _).1 hvalue).1

/-- The host reads the document, and of it what the unit resolves, exactly where the names of the
product leave the document alone and every effective value can be shown. -/
theorem reports_iff : phone.Reports ↔ phone.product.Reads ∧ phone.Presentable := by
  constructor
  · rintro ⟨schema, hschema, hreports⟩
    obtain ⟨data, hloads, -⟩ := Option.bind_eq_some_iff.1 hschema
    obtain ⟨hlegible, fs, hfs, -⟩ := (phone.loads_cmdSchema_iff data).1 hloads
    obtain ⟨schema', hschema', hplugins⟩ := phone.parseSchema_cmdSchema hlegible hfs
    obtain rfl := Option.some.inj (hschema'.symm.trans hschema)
    refine ⟨(phone.product.reads_iff).2 ⟨fs, hfs⟩, fun p hp setting hsetting => ?_⟩
    obtain ⟨plugin, hplugin, hvalues⟩ := hplugins p hp
    obtain ⟨plugin', hplugin', hequal⟩ := hreports p hp
    obtain rfl := Option.some.inj (hplugin.symm.trans hplugin')
    obtain ⟨hvalue, horigin⟩ := hequal setting hsetting
    split_ifs with hlisted
    · have hflat := (InstalledPlugin.get_of_listed hvalues hlisted hsetting).1.symm.trans hvalue
      have hkept := hlegible p hp ⟨setting.key.toList, hlisted.2⟩
        (Plugin.mem_listedKeys.2 ⟨setting, hsetting, hlisted, rfl⟩)
      rw [InstalledPlugin.Legible, p.listedName_eq rfl] at hkept
      exact (printable_iff _).2 ⟨hkept,
        Json.codes_injective (Value.str.inj (Option.some.inj hflat))⟩
    · obtain ⟨hnovalue, hnoorigin⟩ := InstalledPlugin.get_of_not_listed hvalues hlisted
      have hempty := Value.str.inj (Option.some.inj (hnovalue.symm.trans hvalue))
      have hdefault := Value.str.inj (Option.some.inj (hnoorigin.symm.trans horigin))
      exact ⟨(Json.codes_injective hempty).symm, (Json.codes_toList_injective hdefault).symm⟩
  · rintro ⟨hreads, hshown⟩
    obtain ⟨fs, hfs⟩ := phone.product.reads_iff.1 hreads
    obtain ⟨schema, hschema, hplugins⟩ :=
      phone.parseSchema_cmdSchema (phone.allLegible_of_presentable hshown) hfs
    refine ⟨schema, hschema, fun p hp => ?_⟩
    obtain ⟨plugin, hplugin, hvalues⟩ := hplugins p hp
    refine ⟨plugin, hplugin, fun setting hsetting => ?_⟩
    have hvalue := hshown p hp setting hsetting
    split_ifs at hvalue with hlisted
    · have hget := InstalledPlugin.get_of_listed hvalues hlisted hsetting
      rwa [((printable_iff _).1 hvalue).2] at hget
    · rw [hvalue.1, hvalue.2]
      exact InstalledPlugin.get_of_not_listed hvalues hlisted

/-! ## An escape character in the keepalive text -/

/-- Python's `str`, of a string. -/
def plainStr : Value → List ℕ
  | .str t => t
  | _ => []

def keepaliveSetting : Schema.Setting where
  key := Schema.ofText "keepalive_body"
  valueType := Schema.ofText "string"
  default := codes "rackphone keepalive".toList
  label := Schema.ofText "keepalive_body"
  helpText := Schema.ofText ""
  unitSuffix := Schema.ofText ""
  allowedValues := []
  minimum := .null
  maximum := .null
  dependsOn := .null

def companionPlugin : InstalledPlugin plainStr where
  id := "companion"
  id_chars := Device.bodyName.module_chars
  plugin := Device.companion
  text := "\x7b\"settings\": [\x7b\"key\": \"keepalive_body\",
    \"default\": \"rackphone keepalive\"\x7d]\x7d".toList
  fields := [(codes "settings".toList, .arr [.obj [
    (codes "key".toList, Schema.ofText "keepalive_body"),
    (codes "default".toList, Schema.ofText "rackphone keepalive")]])]
  reads := rfl
  settings := [keepaliveSetting]
  declares := rfl
  built := rfl

/-- A unit where the text was set to an escape character. -/
def escaped : PhoneUnit plainStr where
  device :=
    { Device.greeted with
      props := fun name => if name = Device.bodyName then ⟨"\x1b".toList, by decide⟩
        else ⟨[], Device.nil_fits⟩ }
  product := ⟨"beryllium".toList, "POCO F1".toList, "21.0".toList⟩
  plugins := [companionPlugin]
  installed := by simp [companionPlugin, Device.greeted]

/-- One value with a control character, and no plugin of the unit can be read. -/
theorem escape_unreadable :
    (¬ ∀ (str : Value → List ℕ) (phone : PhoneUnit str),
      (∀ p ∈ phone.plugins, ∀ setting ∈ p.plugin.settings,
        '\n' ∉ phone.device.effective (p.settingName setting)) → phone.Reports)
    ∧ parseSchema plainStr escaped.cmdSchema = none := by
  have hloads : loads escaped.cmdSchema = none :=
    Option.isNone_iff_eq_none.1 (by decide +kernel)
  have hparse : parseSchema plainStr escaped.cmdSchema = none := by
    rw [parseSchema, hloads]
    rfl
  refine ⟨fun h => ?_, hparse⟩
  obtain ⟨schema, hschema, -⟩ := h plainStr escaped (by decide +kernel)
  rw [hparse] at hschema
  cases hschema

end PhoneUnit

end Rackphone
