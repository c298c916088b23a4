import Rackphone.Numbers

/-!
# Cleaning a number

What is cleaned is dialable, and a dialable number is cleaned to itself. Punctuation is skipped
wherever it stands, except that the plus is only taken at the first place that is looked at: past
the punctuation that is not whitespace it is refused.
-/

namespace Rackphone.Numbers

variable {K : KotlinChars} {number text : List Char}

theorem plus_not_punctuation : '+' ∉ PUNCTUATION := by decide

/-! ## The loop -/

/-- Past the first character only digits are kept. -/
theorem digits_of_clean : ∀ {text cleaned : List Char}, clean K false text = some cleaned →
    ∀ c ∈ cleaned, K.isDigit c
  | [], cleaned, h => by
    obtain rfl := Option.some.inj h
    exact fun c hc => absurd hc List.not_mem_nil
  | ch :: text, cleaned, h => by
    rw [clean] at h
    split_ifs at h with hp hd
    · exact digits_of_clean h
    · obtain ⟨rest, hrest, rfl⟩ := Option.map_eq_some_iff.1 h
      exact List.forall_mem_cons.2 ⟨by simpa using hd, digits_of_clean hrest⟩

theorem clean_eq_append {cleaned : List Char} (h : clean K true text = some cleaned) :
    ∃ plus digits, cleaned = plus ++ digits ∧ (plus = [] ∨ plus = ['+'])
      ∧ ∀ c ∈ digits, K.isDigit c := by
  cases text with
  | nil =>
    obtain rfl := Option.some.inj h
    exact ⟨[], [], rfl, .inl rfl, fun c hc => absurd hc List.not_mem_nil⟩
  | cons ch text =>
    rw [clean] at h
    split_ifs at h with hp hd
    · exact ⟨[], cleaned, rfl, .inl rfl, digits_of_clean h⟩
    · obtain ⟨rest, hrest, rfl⟩ := Option.map_eq_some_iff.1 h
      have hdigits := digits_of_clean hrest
      obtain ⟨rfl, -⟩ | hdigit := hd
      · exact ⟨['+'], rest, rfl, .inr rfl, hdigits⟩
      · exact ⟨[], ch :: rest, rfl, .inl rfl, List.forall_mem_cons.2 ⟨hdigit, hdigits⟩⟩

/-- Digits with punctuation anywhere among them are cleaned to the digits. -/
theorem clean_digits (hK : K.Lawful) {digits : List Char} (hdigits : ∀ c ∈ digits, K.isDigit c)
    (h : Inserted digits text) : ∀ first, clean K first text = some digits := by
  induction h with
  | nil => exact fun first => rfl
  | keep c h ih =>
    obtain ⟨hc, hrest⟩ := List.forall_mem_cons.1 hdigits
    intro first
    rw [clean, if_neg (hK.digit_not_punctuation c hc), if_pos (.inr hc), ih hrest]
    rfl
  | insert hp h ih =>
    intro first
    rw [clean, if_pos hp]
    exact ih hdigits false

/-- A plus that something was skipped before is refused. -/
theorem clean_plus (hK : K.Lawful) {p rest : List Char} (hp : ∀ c ∈ p, c ∈ PUNCTUATION) :
    clean K false (p ++ '+' :: rest) = none := by
  induction p with
  | nil =>
    rw [List.nil_append, clean, if_neg plus_not_punctuation, if_neg]
    simp [hK.plus_not_digit]
  | cons q p ih =>
    obtain ⟨hq, hp⟩ := List.forall_mem_cons.1 hp
    rw [List.cons_append, clean, if_pos hq]
    exact ih hp

/-! ## Insertions -/

theorem Inserted.refl : ∀ number : List Char, Inserted number number
  | [] => .nil
  | c :: number => .keep c (.refl number)

theorem Inserted.append {number' text' : List Char} (h : Inserted number text)
    (h' : Inserted number' text') : Inserted (number ++ number') (text ++ text') := by
  induction h with
  | nil => exact h'
  | keep c _ ih => exact .keep c ih
  | insert hp _ ih => exact .insert hp ih

theorem Inserted.reverse (h : Inserted number text) : Inserted number.reverse text.reverse := by
  induction h with
  | nil => exact .nil
  | keep c _ ih =>
    rw [List.reverse_cons, List.reverse_cons]
    exact ih.append (.refl [c])
  | insert hp _ ih =>
    rw [List.reverse_cons]
    have happ := ih.append (.insert hp .nil)
    rwa [List.append_nil] at happ

theorem Inserted.dropWhile {space : Char → Bool} (hnumber : ∀ c ∈ number, space c = false)
    (h : Inserted number text) : Inserted number (text.dropWhile space) := by
  induction h with
  | nil => exact .nil
  | keep c h ih =>
    rw [List.dropWhile_cons_of_neg (by simp [hnumber c List.mem_cons_self])]
    exact .keep c h
  | insert hp h ih =>
    rw [List.dropWhile_cons]
    split_ifs
    · exact ih hnumber
    · exact .insert hp h

theorem Inserted.rdropWhile {space : Char → Bool} (hnumber : ∀ c ∈ number, space c = false)
    (h : Inserted number text) : Inserted number (text.rdropWhile space) := by
  have hrev : Inserted number.reverse (text.reverse.dropWhile space) :=
    h.reverse.dropWhile fun c hc => hnumber c (List.mem_reverse.1 hc)
  have hback := hrev.reverse
  rwa [List.reverse_reverse] at hback

theorem Inserted.strip {space : Char → Bool} (hnumber : ∀ c ∈ number, space c = false)
    (h : Inserted number text) : Inserted number (Lines.strip space text) :=
  (h.dropWhile hnumber).rdropWhile hnumber

theorem Inserted.mem {c : Char} (h : Inserted number text) (hc : c ∈ text) :
    c ∈ number ∨ c ∈ PUNCTUATION := by
  induction h with
  | nil => exact absurd hc List.not_mem_nil
  | keep d _ ih =>
    obtain rfl | hc := List.mem_cons.1 hc
    · exact .inl List.mem_cons_self
    · exact (ih hc).imp_left (List.mem_cons_of_mem d)
  | insert hp _ ih =>
    obtain rfl | hc := List.mem_cons.1 hc
    · exact .inr hp
    · exact ih hc

theorem inserted_filter : ∀ text : List Char,
    Inserted (text.filter fun c => c ∉ PUNCTUATION) text
  | [] => .nil
  | c :: text => by
    by_cases hc : c ∈ PUNCTUATION
    · rw [List.filter_cons_of_neg (by simpa using hc)]
      exact .insert hc (inserted_filter text)
    · rw [List.filter_cons_of_pos (by simpa using hc)]
      exact .keep c (inserted_filter text)

/-- What stands before the first character that is kept. -/
theorem Inserted.exists_front {c : Char} (h : Inserted (c :: number) text) :
    ∃ p rest, text = p ++ c :: rest ∧ (∀ d ∈ p, d ∈ PUNCTUATION) ∧ Inserted number rest := by
  generalize hn : c :: number = full at h
  induction h with
  | nil => cases hn
  | keep d h _ =>
    obtain ⟨rfl, rfl⟩ := List.cons.inj hn
    exact ⟨[], _, rfl, fun d hd => absurd hd List.not_mem_nil, h⟩
  | insert hp _ ih =>
    obtain ⟨p, rest, rfl, hpunct, hrest⟩ := ih hn
    exact ⟨_ :: p, rest, rfl, List.forall_mem_cons.2 ⟨hp, hpunct⟩, hrest⟩

/-! ## What is returned -/

theorem countP_append (hK : K.Lawful) {plus digits : List Char} (hplus : plus = [] ∨ plus = ['+'])
    (hdigits : ∀ c ∈ digits, K.isDigit c) : (plus ++ digits).countP K.isDigit = digits.length := by
  rw [List.countP_append, List.countP_eq_length.2 hdigits]
  obtain rfl | rfl := hplus
  · exact Nat.zero_add _
  · rw [List.countP_singleton, hK.plus_not_digit]
    exact Nat.zero_add _

theorem dialable_of_sanitise (hK : K.Lawful) {raw : Option String} {number : String}
    (h : sanitise K raw = some number) : Dialable K number.toList := by
  cases raw with
  | none => cases h
  | some raw =>
    unfold sanitise at h
    simp only [] at h
    split_ifs at h with htrim
    cases hclean : clean K true (Lines.strip K.isWhitespace raw.toList) with
    | none => simp only [hclean] at h; cases h
    | some cleaned =>
      simp only [hclean] at h
      split_ifs at h with hcount
      obtain rfl := Option.some.inj h
      obtain ⟨plus, digits, rfl, hplus, hdigits⟩ := clean_eq_append hclean
      rw [countP_append hK hplus hdigits, MAX_DIGITS] at hcount
      rw [String.toList_ofList]
      exact ⟨plus, digits, rfl, hplus, hdigits, by omega, by omega⟩

/-- A text that is cleaned to a dialable number. -/
theorem sanitise_of_clean (hK : K.Lawful) {text number : String}
    (hnumber : Dialable K number.toList)
    (hclean : clean K true (Lines.strip K.isWhitespace text.toList) = some number.toList) :
    sanitise K (some text) = some number := by
  obtain ⟨plus, digits, heq, hplus, hdigits, hpos, hmax⟩ := hnumber
  have hne : Lines.strip K.isWhitespace text.toList ≠ [] := by
    intro hnil
    rw [hnil] at hclean
    have hnil := Option.some.inj hclean
    rw [heq] at hnil
    have := congrArg List.length hnil
    rw [List.length_append] at this
    simp only [List.length_nil] at this
    omega
  unfold sanitise
  simp only [if_neg hne, hclean]
  rw [heq, countP_append hK hplus hdigits, if_neg (by rw [MAX_DIGITS]; omega), ← heq,
    String.ofList_toList]

theorem strip_front (hK : K.Lawful) (p rest : List Char) :
    Lines.strip K.isWhitespace (p ++ '+' :: rest) =
      p.dropWhile K.isWhitespace ++ '+' :: rest.rdropWhile K.isWhitespace :=
  Lines.strip_append_cons hK.plus_not_whitespace

theorem sanitise_inserted (hK : K.Lawful) {number text : String}
    (hnumber : Dialable K number.toList) (h : Inserted number.toList text.toList) :
    sanitise K (some text) = some number ↔ PlusFirst K text.toList := by
  have hshape := hnumber
  obtain ⟨plus, digits, heq, hplus, hdigits, -, -⟩ := hshape
  have hspace : ∀ c ∈ digits, K.isWhitespace c = false := fun c hc =>
    hK.digit_not_whitespace c (hdigits c hc)
  obtain rfl | rfl := hplus
  · have h : Inserted digits text.toList := by rwa [heq] at h
    refine iff_of_true (sanitise_of_clean hK hnumber ?_) fun hmem => ?_
    · rw [heq]
      exact clean_digits hK hdigits (h.strip hspace) true
    · obtain hc | hc := h.mem hmem
      · have := hdigits '+' hc
        rw [hK.plus_not_digit] at this
        cases this
      · exact absurd hc plus_not_punctuation
  · rw [heq] at h
    obtain ⟨p, rest, htext, hpunct, hrest⟩ := h.exists_front
    have hne : ∀ c ∈ p, decide (c ≠ '+') = true := fun c hc =>
      decide_eq_true fun he => plus_not_punctuation (he ▸ hpunct c hc)
    have hfirst : PlusFirst K text.toList ↔ ∀ c ∈ p, K.isWhitespace c := by
      rw [PlusFirst, htext, List.takeWhile_append_of_pos hne, List.takeWhile_cons_of_neg (by simp),
        List.append_nil]
      exact imp_iff_right (by simp)
    rw [hfirst]
    constructor
    · intro hsan
      by_contra hcon
      obtain ⟨q, p', hdrop⟩ : ∃ q p', p.dropWhile K.isWhitespace = q :: p' :=
        List.exists_cons_of_ne_nil fun hnil => hcon (List.dropWhile_eq_nil_iff.1 hnil)
      have hsub : ∀ c ∈ q :: p', c ∈ PUNCTUATION := fun c hc =>
        hpunct c ((List.dropWhile_sublist _).subset (hdrop ▸ hc))
      obtain ⟨hq, hp'⟩ := List.forall_mem_cons.1 hsub
      have hclean : clean K true (Lines.strip K.isWhitespace text.toList) = none := by
        rw [htext, strip_front hK, hdrop, List.cons_append, clean, if_pos hq]
        exact clean_plus hK hp'
      unfold sanitise at hsan
      simp only [hclean] at hsan
      split_ifs at hsan
    · intro hall
      refine sanitise_of_clean hK hnumber ?_
      rw [htext, strip_front hK, List.dropWhile_eq_nil_iff.2 hall, List.nil_append, clean,
        if_neg plus_not_punctuation, if_pos (.inl ⟨rfl, rfl⟩),
        clean_digits hK hdigits (hrest.rdropWhile hspace), heq]
      rfl

theorem sanitise_dialable (hK : K.Lawful) {number : String} (h : Dialable K number.toList) :
    sanitise K (some number) = some number := by
  refine (sanitise_inserted hK h (.refl _)).2 fun hmem => ?_
  obtain ⟨plus, digits, heq, rfl | rfl, hdigits, -, -⟩ := h
  · rw [heq] at hmem
    have := hdigits '+' hmem
    rw [hK.plus_not_digit] at this
    cases this
  · rw [heq]
    exact fun c hc => absurd hc List.not_mem_nil

theorem sanitise_ignores_iff (hK : K.Lawful) :
    (∀ raw number, sanitise K raw = some number →
      Dialable K number.toList ∧ sanitise K (some number) = some number)
    ∧ ∀ number text : String, Dialable K number.toList → Inserted number.toList text.toList →
      (sanitise K (some text) = sanitise K (some number) ↔ PlusFirst K text.toList) := by
  refine ⟨fun raw number h => ?_, fun number text hnumber h => ?_⟩
  · have hdialable := dialable_of_sanitise hK h
    exact ⟨hdialable, sanitise_dialable hK hdialable⟩
  · rw [sanitise_dialable hK hnumber]
    exact sanitise_inserted hK hnumber h

/-! ## The JVM's characters -/

theorem unicodeChars_lawful : unicodeChars.Lawful := by
  have hspace : ∀ n ∈ digitZeros, ∀ i < 10,
      decide (n + i ∈ [0x09, 0x0a, 0x0b, 0x0c, 0x0d, 0x1c, 0x1d, 0x1e, 0x1f, 0x20, 0xa0, 0x1680,
        0x2028, 0x2029, 0x202f, 0x205f, 0x3000] ∨ 0x2000 ≤ n + i ∧ n + i ≤ 0x200a) = false := by
    decide +kernel
  have hpunct : (PUNCTUATION.all fun c => !unicodeChars.isDigit c) = true := by decide
  refine ⟨fun c h => ?_, fun c h hc => ?_, by decide, by decide⟩
  · obtain ⟨n, hn, hle⟩ := List.any_eq_true.1 h
    obtain ⟨hlo, hhi⟩ : n ≤ c.toNat ∧ c.toNat ≤ n + 9 := by simpa using hle
    have hdigit := hspace n hn (c.toNat - n) (by omega)
    rwa [Nat.add_sub_cancel' hlo] at hdigit
  · have hnot := List.all_eq_true.1 hpunct c hc
    rw [h] at hnot
    cases hnot

theorem dialable_example : Dialable unicodeChars "+79001234567".toList :=
  ⟨['+'], "79001234567".toList, by decide, .inr rfl, List.all_eq_true.1 (by decide), by decide,
    by decide⟩

/-- The bracket in front of the plus is punctuation like the others. -/
theorem bracket_refused :
    Dialable unicodeChars "+79001234567".toList
      ∧ Inserted "+79001234567".toList "(+7 900) 123-45-67".toList
      ∧ sanitise unicodeChars (some "+79001234567") = some "+79001234567"
      ∧ sanitise unicodeChars (some "(+7 900) 123-45-67") = none := by
  have hfilter : "+79001234567".toList =
      "(+7 900) 123-45-67".toList.filter fun c => c ∉ PUNCTUATION := by decide
  refine ⟨dialable_example, ?_, by decide +kernel, by decide +kernel⟩
  rw [hfilter]
  exact inserted_filter _

theorem spaced_number :
    sanitise unicodeChars (some " +7 (900) 123-45-67 ") =
      sanitise unicodeChars (some "+79001234567") := by
  have hfilter : "+79001234567".toList =
      " +7 (900) 123-45-67 ".toList.filter fun c => c ∉ PUNCTUATION := by decide
  have hinserted : Inserted "+79001234567".toList " +7 (900) 123-45-67 ".toList := by
    rw [hfilter]
    exact inserted_filter _
  exact ((sanitise_ignores_iff unicodeChars_lawful).2 _ _ dialable_example hinserted).2
    fun _ => List.all_eq_true.1 (by decide)

end Rackphone.Numbers
