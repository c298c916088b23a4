import Rackphone.Exposition

/-!
# What labelling makes of an exposition

The labelled text is read beside the text itself: after the new label the reader goes through the
same phases, up to the white space stripped from the end of what stood between the braces: of a
whole set of labels nothing is lost, of a quoted value its end.
-/

namespace Rackphone

namespace Exposition

open TextFormat (Entry Format Label Sample Reader)
open TextFormat.Reader

variable {F : Format} {u line : List Char}

/-! ## Characters -/

theorem toNat_of_isBlank {c : Char} (h : isBlank c = true) : c.toNat ≤ 32 ∨ 133 ≤ c.toNat := by
  simp only [isBlank, List.mem_cons, List.not_mem_nil, or_false, decide_eq_true_eq] at h
  omega

theorem isNameChar_of_isBlank {c : Char} (h : isBlank c = true) :
    TextFormat.isNameChar c = false := by
  by_contra hn
  have h₁ := toNat_of_isBlank h
  have h₂ := TextFormat.toNat_of_isNameChar (by simpa using hn)
  omega

theorem isPlain_of_isBlank {c : Char} (h : isBlank c = true) : TextFormat.isPlain c = false := by
  by_contra hn
  have h₁ := toNat_of_isBlank h
  have h₂ := TextFormat.toNat_of_isPlain (by simpa using hn)
  omega

theorem isQuiet_of_isBlank {c : Char} (h : isBlank c = true) : TextFormat.isQuiet c = true := by
  refine isQuiet_iff.2 ⟨isNameChar_of_isBlank h, ?_, ?_, ?_, ?_, ?_, ?_⟩
  all_goals
    rintro rfl
    exact absurd h (by decide)

theorem isBlank_of_isSep {c : Char} (h : TextFormat.isSep c = true) : isBlank c = true := by
  obtain rfl | rfl := TextFormat.isSep_iff.1 h <;> decide

theorem isBlank_of_isLineBreak {c : Char} (h : isLineBreak c = true) : isBlank c = true := by
  simp only [isLineBreak, isBlank, List.mem_cons, List.not_mem_nil, or_false, decide_eq_true_eq]
    at h ⊢
  omega

theorem isSep_of_isLineBreak {c : Char} (h : isLineBreak c = true) :
    TextFormat.isSep c = false := by
  by_contra hs
  obtain rfl | rfl := TextFormat.isSep_iff.1 (by simpa using hs) <;> exact absurd h (by decide)

/-! ## The pattern -/

theorem of_lastClose {t : List Char} {m : List Char × List Char} (h : lastClose t = some m) :
    t = m.1 ++ '}' :: m.2 ∧ m.2.head?.any isBlank = true := by
  induction t generalizing m with
  | nil => cases h
  | cons c t ih =>
    rw [lastClose] at h
    cases ht : lastClose t with
    | some m' =>
      rw [ht] at h
      cases h
      obtain ⟨rfl, hb⟩ := ih ht
      exact ⟨rfl, hb⟩
    | none =>
      simp only [ht] at h
      split_ifs at h with hc
      cases h
      exact ⟨by rw [hc.1]; rfl, hc.2⟩

/-- The last closing brace is before the last one of the text, or is the last one. -/
theorem lastClose_append {a r : List Char} {m : List Char × List Char} (hr : '}' ∉ r)
    (h : lastClose (a ++ '}' :: r) = some m) :
    m = (a, r) ∨ ∃ b, a = m.1 ++ '}' :: b ∧ m.2 = b ++ '}' :: r := by
  obtain ⟨m₁, m₂⟩ := m
  have heq := (of_lastClose h).1
  dsimp only at heq ⊢
  obtain ⟨b, rfl, hb⟩ | ⟨b, rfl, hb⟩ := List.append_eq_append_iff.1 heq
  · cases b with
    | nil =>
      cases hb
      exact .inl (by simp)
    | cons c b =>
      simp only [List.cons_append, List.cons.injEq] at hb
      exact absurd (hb.2 ▸ by simp) hr
  · cases b with
    | nil =>
      cases hb
      exact .inl (by simp)
    | cons c b =>
      simp only [List.cons_append, List.cons.injEq] at hb
      obtain ⟨rfl, rfl⟩ := hb
      exact .inr ⟨b, rfl, rfl⟩

/-- The name of a sample. -/
structure Named (name : List Char) : Prop where
  start : name.head?.any TextFormat.isNameStart = true
  chars : ∀ c ∈ name, TextFormat.isNameChar c = true

section Pattern

variable {name t a rest : List Char} {c : Char}

theorem takeWhile_name (hname : Named name) (hc : TextFormat.isNameChar c = false) :
    (name ++ c :: t).takeWhile TextFormat.isNameChar = name := by
  rw [List.takeWhile_append_of_pos hname.chars, List.takeWhile_cons_of_neg (by simp [hc]),
    List.append_nil]

theorem dropWhile_name (hname : Named name) (hc : TextFormat.isNameChar c = false) :
    (name ++ c :: t).dropWhile TextFormat.isNameChar = c :: t := by
  rw [List.dropWhile_append_of_pos hname.chars, List.dropWhile_cons_of_neg (by simp [hc])]

theorem samplePattern_bare (hname : Named name) (hc : isBlank c = true) :
    samplePattern (name ++ c :: t) = some ⟨name, none, c :: t⟩ := by
  have hn := isNameChar_of_isBlank hc
  have hbrace : c ≠ '{' := by
    rintro rfl
    exact absurd hc (by decide)
  simp only [samplePattern, takeWhile_name hname hn, dropWhile_name hname hn, hname.start, hc,
    hbrace, ↓reduceIte]

theorem samplePattern_braced (hname : Named name) :
    samplePattern (name ++ '{' :: t) =
      (lastClose t).map fun m => ⟨name, some ('{' :: m.1 ++ ['}']), m.2⟩ := by
  have hn : TextFormat.isNameChar '{' = false := by decide
  simp only [samplePattern, takeWhile_name hname hn, dropWhile_name hname hn, hname.start,
    ↓reduceIte]

theorem named_takeWhile
    (h : (line.takeWhile TextFormat.isNameChar).head?.any TextFormat.isNameStart = true) :
    Named (line.takeWhile TextFormat.isNameChar) :=
  ⟨h, fun _ hc => List.mem_takeWhile_imp hc⟩

/-- What the pattern matches. -/
theorem of_samplePattern {m : SampleMatch} (h : samplePattern line = some m) :
    (∃ name c t, Named name ∧ isBlank c = true ∧ line = name ++ c :: t)
      ∨ ∃ name t a rest, Named name ∧ line = name ++ '{' :: t ∧ lastClose t = some (a, rest) := by
  have hline := List.takeWhile_append_dropWhile (p := TextFormat.isNameChar) (l := line)
  simp only [samplePattern] at h
  split_ifs at h with hstart
  split at h
  · cases h
  · rename_i c t hafter
    rw [hafter] at hline
    split_ifs at h with hc hb
    · obtain ⟨⟨a, rest⟩, hlast, -⟩ := Option.map_eq_some_iff.1 h
      exact .inr ⟨_, t, a, rest, named_takeWhile hstart, by rw [← hc, hline], hlast⟩
    · exact .inl ⟨_, c, t, named_takeWhile hstart, hb, hline.symm⟩

theorem labelLine_of_none (h : samplePattern line = none) : labelLine u line = line := by
  simp [labelLine, h]

theorem labelLine_of_hash (h : line.head? = some '#') : labelLine u line = line := by
  simp [labelLine, h]

theorem Named.eq_cons (hname : Named name) :
    ∃ x s, name = x :: s ∧ TextFormat.isNameStart x = true ∧
      ∀ d ∈ s, TextFormat.isNameChar d = true := by
  obtain ⟨hstart, hchars⟩ := hname
  rcases name with _ | ⟨x, s⟩
  · cases hstart
  · exact ⟨x, s, rfl, hstart, fun d hd => hchars d (List.mem_cons_of_mem x hd)⟩

theorem Named.not_skipped (hname : Named name) (t : List Char) :
    ¬(name ++ t = [] ∨ (name ++ t).head? = some '#') := by
  obtain ⟨x, s, rfl, hx, -⟩ := hname.eq_cons
  simp only [List.cons_append, List.head?_cons, Option.some.injEq, reduceCtorEq, false_or]
  rintro rfl
  exact absurd hx (by decide)

theorem labelLine_bare (hname : Named name) (hc : isBlank c = true) (u t : List Char) :
    labelLine u (name ++ c :: t) =
      name ++ ("\x7bunit=\"".toList ++ (u ++ '"' :: '}' :: c :: t)) := by
  rw [labelLine, if_neg (hname.not_skipped _), samplePattern_bare hname hc]
  simp

theorem labelLine_braced (hname : Named name) (hlast : lastClose t = some (a, rest))
    (u : List Char) :
    labelLine u (name ++ '{' :: t) =
      name ++ ("\x7bunit=\"".toList ++ (u ++ '"' ::
        if Lines.strip isBlank a = [] then '}' :: rest
        else ',' :: (Lines.strip isBlank a ++ '}' :: rest))) := by
  rw [labelLine, if_neg (hname.not_skipped _), samplePattern_braced hname, hlast]
  simp only [Option.map_some, List.cons_append, List.drop_succ_cons, List.drop_zero,
    List.dropLast_concat, ne_eq, ite_not]
  split_ifs <;> simp

end Pattern

/-! ## Reading a labelled line -/

section Reading

variable {name t a rest : List Char} {c : Char}

theorem run_named_name (hname : Named name) (t : List Char) :
    start.run (name ++ t) = run ⟨name, [], .name⟩ t := by
  obtain ⟨x, s, rfl, hx, hs⟩ := hname.eq_cons
  exact run_start_name hx hs t

theorem run_labelled (hname : Named name) (t : List Char) :
    start.run (name ++ ("\x7bunit=\"".toList ++ t)) = run ⟨name, [], .quoted unitKey []⟩ t := by
  rw [run_named_name hname, run_append]
  rfl

/-- A line labelled before a value that follows white space. -/
theorem run_labelled_bare (hname : Named name) (hc : isBlank c = true)
    (hu : TextFormat.IsLiteral u) (t : List Char) :
    start.run (labelLine u (name ++ c :: t)) = ⟨name, [(unitKey, u)], .tail (c :: t)⟩ := by
  rw [labelLine_bare hname hc, run_labelled hname,
    run_quoted name [] unitKey [] (unquote_literal hu _), run_cons]
  exact run_tail name [(unitKey, u)] [] (c :: t)

/-- A line labelled within its braces. -/
theorem run_labelled_braced (hname : Named name) (hlast : lastClose t = some (a, rest))
    (hu : TextFormat.IsLiteral u) :
    start.run (labelLine u (name ++ '{' :: t)) =
      (run ⟨name, [], .opened⟩ (Lines.strip isBlank a ++ '}' :: rest)).under [(unitKey, u)] := by
  rw [labelLine_braced hname hlast, run_labelled hname,
    run_quoted name [] unitKey [] (unquote_literal hu _), ← run_under]
  split_ifs with hs
  · rw [hs]
    rfl
  · rw [run_cons]
    rfl

/-- The white space that is stripped from the end of what stands between the braces. -/
def trailing (a : List Char) : List Char := (a.dropWhile isBlank).rtakeWhile isBlank

theorem strip_append_trailing (a : List Char) :
    a.takeWhile isBlank ++ (Lines.strip isBlank a ++ trailing a) = a := by
  rw [Lines.strip, trailing, List.rdropWhile_append_rtakeWhile, List.takeWhile_append_dropWhile]

theorem isQuiet_of_mem_trailing : ∀ c ∈ trailing a, TextFormat.isQuiet c = true :=
  fun _ hc => isQuiet_of_isBlank (List.mem_rtakeWhile_imp hc)

theorem run_trailing (h : (run ⟨name, [], .opened⟩ a).phase ≠ .failed) :
    run ⟨name, [], .opened⟩ a =
      (run ⟨name, [], .opened⟩ (Lines.strip isBlank a)).run (trailing a) := by
  rw [← run_append]
  conv_lhs => rw [← strip_append_trailing a]
  refine run_opened_quiet (fun c hc => isQuiet_of_isBlank (List.mem_takeWhile_imp hc)) ?_
  rwa [strip_append_trailing]

/-- Nothing is lost of a whole set of labels. -/
theorem run_strip (h : (run ⟨name, [], .opened⟩ a).phase = .opened
      ∨ (run ⟨name, [], .opened⟩ a).phase = .closed) :
    run ⟨name, [], .opened⟩ (Lines.strip isBlank a) = run ⟨name, [], .opened⟩ a := by
  have hfine : (run ⟨name, [], .opened⟩ a).phase ≠ .failed := by rcases h with h | h <;> simp [h]
  have hrun := run_trailing hfine
  rw [hrun] at h ⊢
  exact (run_quiet isQuiet_of_mem_trailing h).symm

/-- Of a quoted value what is stripped is lost. -/
theorem run_strip_quoted {k v : List Char} (h : (run ⟨name, [], .opened⟩ a).phase = .quoted k v) :
    ∃ v', v = v' ++ trailing a ∧ run ⟨name, [], .opened⟩ (Lines.strip isBlank a) =
      (run ⟨name, [], .opened⟩ a).enter (.quoted k v') := by
  have hfine : (run ⟨name, [], .opened⟩ a).phase ≠ .failed := by simp [h]
  have hrun := run_trailing hfine
  rw [hrun] at h ⊢
  obtain ⟨v', hphase, hv, hq⟩ := run_quiet_quoted isQuiet_of_mem_trailing h
  exact ⟨v', hv, by rw [hq]; simp [enter, ← hphase]⟩

end Reading

/-! ## A line and what is made of it -/

/-- What `str.splitlines` makes of the beginning of a line. -/
def piece (line : List Char) : List Char := line.takeWhile fun c => !isLineBreak c

def firstLine (t : List Char) : List Char := t.takeWhile (· ≠ '\n')

theorem piece_cases (line : List Char) :
    (piece line = line ∧ ∀ c ∈ line, isLineBreak c = false)
      ∨ ∃ b q, line = piece line ++ b :: q ∧ isLineBreak b = true := by
  have hline := List.takeWhile_append_dropWhile (p := fun c => !isLineBreak c) (l := line)
  rcases h : line.dropWhile fun c => !isLineBreak c with _ | ⟨b, q⟩
  · rw [h, List.append_nil] at hline
    exact .inl ⟨hline, fun c hc => by
      simpa using List.mem_takeWhile_imp (p := fun c => !isLineBreak c) (hline.symm ▸ hc)⟩
  · have hb := List.head_dropWhile_not (fun c => !isLineBreak c) (l := line) (by simp [h])
    simp only [h, List.head_cons] at hb
    exact .inr ⟨b, q, by rw [piece, ← h, hline], by simpa using hb⟩

theorem not_break_of_mem_piece {c : Char} (hc : c ∈ piece line) : isLineBreak c = false := by
  simpa using List.mem_takeWhile_imp hc

theorem firstLine_of_notMem {t : List Char} (h : '\n' ∉ t) : firstLine t = t :=
  List.takeWhile_eq_self_iff.2 fun c hc => by simpa using fun h' : c = '\n' => h (h' ▸ hc)

theorem firstLine_append {s : List Char} (h : '\n' ∉ s) (t : List Char) :
    firstLine (s ++ t) = s ++ firstLine t :=
  List.takeWhile_append_of_pos fun c hc => by simpa using fun h' : c = '\n' => h (h' ▸ hc)

theorem firstLine_append_newline {s : List Char} (h : '\n' ∉ s) {t : List Char} :
    firstLine (s ++ '\n' :: t) = s := by
  rw [firstLine_append h, firstLine, List.takeWhile_cons_of_neg (by simp), List.append_nil]

theorem newline_notMem_piece : '\n' ∉ piece line := fun h =>
  absurd (not_break_of_mem_piece h) (by decide)

/-- A line breaks within quotes. -/
theorem cut_quoted {s : Sample} {p q : List Char} {b : Char} (hb : isLineBreak b = true)
    (h : TextFormat.readLine F (p ++ b :: q) = some (some (.sample s))) :
    ∃ k v, (start.run p).phase = .quoted k v := by
  obtain ⟨t, ht, -, hm, -⟩ := finish_eq_sample.1 h
  have hblank := isBlank_of_isLineBreak hb
  obtain hq | hbt := quoted_of_odd (isSep_of_isLineBreak hb) (isQuiet_of_isBlank hblank) ht
  · exact hq
  · have := TextFormat.plain_of_measure hm hbt
    simp [isSep_of_isLineBreak hb, isPlain_of_isBlank hblank] at this

theorem finish_quoted {r : Reader} {k v : List Char} (h : r.phase = .quoted k v) :
    r.finish F = none := by
  simp [finish, h]

theorem newline_notMem_labelLine (hu : '\n' ∉ u) (hline : '\n' ∉ line) :
    '\n' ∉ labelLine u line := by
  have hlit : '\n' ∉ "\x7bunit=\"".toList := by decide
  cases hm : samplePattern line with
  | none => rwa [labelLine_of_none hm]
  | some m =>
    obtain ⟨name, d, t, hname, hd, rfl⟩ | ⟨name, t, a, rest, hname, rfl, hlast⟩ :=
      of_samplePattern hm
    · rw [labelLine_bare hname hd]
      simp only [List.mem_append, List.mem_cons, not_or] at hline ⊢
      exact ⟨hline.1, hlit, hu, by decide, by decide, hline.2⟩
    · rw [labelLine_braced hname hlast]
      have ht := (of_lastClose hlast).1
      simp only at ht
      subst ht
      have hstrip : '\n' ∈ Lines.strip isBlank a → '\n' ∈ a :=
        fun h => (Lines.strip_sublist a).subset h
      simp only [List.mem_append, List.mem_cons, not_or] at hline ⊢
      obtain ⟨hn, -, ha, -, hr⟩ := hline
      refine ⟨hn, hlit, hu, by decide, ?_⟩
      split_ifs
      · simp [hr]
      · simp [hr, mt hstrip ha]

section Sample

variable {name t a rest : List Char} {c : Char} {s x : Sample}

/-- The label is read as the unit's name only where that stands for itself. -/
theorem literal_of_labelled {w : List Char} (hname : Named name)
    (hx : TextFormat.readLine F (firstLine (name ++ ("\x7bunit=\"".toList ++ (u ++ '"' :: w)))) =
      some (some (.sample x)))
    (hu : ∀ l ∈ x.labels, l.1 = unitKey → l.2 = u) :
    TextFormat.IsLiteral u ∧ '\n' ∉ u := by
  have hnl : '\n' ∉ name := fun h => absurd (hname.chars _ h) (by decide)
  have hlit : '\n' ∉ "\x7bunit=\"".toList := by decide
  rw [firstLine_append hnl, firstLine_append hlit, TextFormat.readLine, run_labelled hname] at hx
  cases hq : TextFormat.unquote (firstLine (u ++ '"' :: w)) with
  | none =>
    rw [run_quoted_none _ _ _ _ hq] at hx
    cases hx
  | some m =>
    obtain ⟨y, m⟩ := m
    rw [run_quoted _ _ _ _ hq, run_labels] at hx
    obtain ⟨t, -, -, -, -, hlabels⟩ := finish_eq_sample.1 hx
    have hy : y = u := hu (unitKey, y) (by simp [← hlabels, under]) rfl
    subst hy
    by_cases hyn : '\n' ∈ y
    · obtain ⟨y₁, y₂, rfl, hy₁⟩ := List.eq_append_cons_of_mem hyn
      have hcut : firstLine (y₁ ++ '\n' :: y₂ ++ '"' :: w) = y₁ := by
        rw [List.append_assoc]
        exact firstLine_append_newline hy₁
      have hlen := length_lt_of_unquote hq
      rw [hcut, List.length_append] at hlen
      omega
    · refine ⟨?_, hyn⟩
      rw [firstLine_append hyn, firstLine, List.takeWhile_cons_of_pos (by decide)] at hq
      exact isLiteral_of_unquote hq

theorem Named.head_not_sep (hname : Named name) (t : List Char) :
    (name ++ t).head?.any TextFormat.isSep = false := by
  obtain ⟨y, z, rfl, hy, -⟩ := hname.eq_cons
  by_contra h
  obtain rfl | rfl := TextFormat.isSep_iff.1 (by simpa using h) <;> exact absurd hy (by decide)

theorem brace_notMem_of_plain {m : List Char × Option (List Char)}
    (h : TextFormat.measure F t = some m) : '{' ∉ t ∧ '}' ∉ t := by
  constructor <;> intro hc <;> exact absurd (TextFormat.plain_of_measure h hc) (by decide)

theorem head?_dropWhile_of_notMem (h : c ∉ t) : (t.dropWhile TextFormat.isSep).head? ≠ some c :=
  fun hc => h (List.dropWhile_subset _ (List.mem_of_mem_head? hc))

/-- A value behind white space takes the label. -/
theorem survives_bare (hname : Named name) (hc : isBlank c = true)
    (hx : TextFormat.readLine F (labelLine u (name ++ c :: t)) = some (some (.sample x)))
    (hu : TextFormat.IsLiteral u) :
    (∃ y, TextFormat.readLine F (name ++ c :: t) = some (some (.sample y)))
      ∧ TakesLabel (c :: t) := by
  rw [TextFormat.readLine, run_labelled_bare hname hc hu] at hx
  obtain ⟨t', ht', -, hm, -⟩ := finish_eq_sample.1 hx
  simp only [TextFormat.Phase.tail.injEq] at ht'
  subst ht'
  have hbrace := head?_dropWhile_of_notMem (brace_notMem_of_plain hm).1
  have hne : c ≠ '{' := by
    rintro rfl
    exact absurd hc (by decide)
  refine ⟨⟨⟨name, [], x.value, x.timestamp⟩, ?_⟩, ?_⟩
  · rw [TextFormat.readLine, run_named_name hname, run_bare hbrace fun d hd => by
      simp only [List.head?_cons, Option.mem_def, Option.some.injEq] at hd
      exact hd ▸ isNameChar_of_isBlank hc]
    exact finish_eq_sample.2 ⟨c :: t, rfl, List.nodup_nil, hm, rfl, rfl⟩
  · rw [TakesLabel, if_neg hne]
    exact ⟨hc, hbrace⟩

theorem getLast_of_trailing (hs : Lines.strip isBlank a ≠ []) (ht : trailing a = []) :
    a.getLast?.any isBlank = false := by
  have ha := strip_append_trailing a
  rw [ht, List.append_nil] at ha
  rw [← ha, List.getLast?_append_of_ne_nil _ hs, List.getLast?_eq_some_getLast hs, Option.any_some]
  exact Bool.eq_false_iff.2 (List.rdropWhile_last_not isBlank (a.dropWhile isBlank) hs)

theorem trailing_of_getLast (h : a.getLast?.any isBlank = false) : trailing a = [] := by
  by_contra hne
  have ha := strip_append_trailing a
  rw [← ha, ← List.append_assoc, List.getLast?_append_of_ne_nil _ hne,
    List.getLast?_eq_some_getLast hne, Option.any_some] at h
  have hb : isBlank ((trailing a).getLast hne) = true :=
    List.mem_rtakeWhile_imp (List.getLast_mem hne)
  rw [hb] at h
  cases h

/-- A brace in a quoted value: labelled, the rest of the line is read as before, behind a value that
may have lost its end. -/
theorem run_labelled_quoted {k v : List Char} (hname : Named name)
    (hlast : lastClose t = some (a, rest)) (hu : TextFormat.IsLiteral u)
    (hq : (run ⟨name, [], .opened⟩ a).phase = .quoted k v) :
    (start.run (labelLine u (name ++ '{' :: t))).finish F = none
      ∨ ∃ (v' y : List Char) (ls : List Label) (r : Reader), v = v' ++ trailing a
        ∧ start.run (name ++ '{' :: t) = r.under (ls ++ [(k, v ++ y)])
        ∧ start.run (labelLine u (name ++ '{' :: t)) =
          r.under ((unitKey, u) :: (ls ++ [(k, v' ++ y)])) := by
  obtain ⟨v', hv, hstrip⟩ := run_strip_quoted hq
  obtain rfl := (of_lastClose hlast).1
  rw [run_labelled_braced hname hlast hu, run_append, hstrip, run_named_name hname]
  have hopen : run ⟨name, [], .name⟩ ('{' :: (a ++ '}' :: rest)) =
      (run ⟨name, [], .opened⟩ a).run ('}' :: rest) := by
    rw [← run_append]
    rfl
  rw [hopen]
  clear hopen hstrip
  generalize run ⟨name, [], .opened⟩ a = before at hq ⊢
  obtain ⟨n, ls, p⟩ := before
  subst hq
  rw [enter]
  cases hy : TextFormat.unquote ('}' :: rest) with
  | none =>
    left
    have := run_quoted_none n ([(unitKey, u)] ++ ls) k v' hy F
    rwa [← run_under]
  | some m =>
    right
    refine ⟨v', m.1, ls, run ⟨n, [], .closed⟩ m.2, hv, ?_, ?_⟩
    · rw [run_quoted n ls k v hy, run_labels]
    · rw [run_quoted n ls k v' hy, run_labels]
      simp [under]

theorem run_opened (hname : Named name) (t : List Char) :
    start.run (name ++ '{' :: t) = run ⟨name, [], .opened⟩ t := by
  rw [run_named_name hname]
  rfl

theorem not_quoted_of_labelled {i : Option Entry} {k v : List Char} (hname : Named name)
    (hlast : lastClose t = some (a, rest)) (hu : TextFormat.IsLiteral u)
    (hx : TextFormat.readLine F (labelLine u (name ++ '{' :: t)) = some i) :
    (start.run (name ++ '{' :: t)).phase ≠ .quoted k v := by
  intro hq
  have hbrace : ∃ k v, (run ⟨name, [], .opened⟩ a).phase = .quoted k v := by
    refine quoted_of_brace (b := rest) ?_
    rw [← (of_lastClose hlast).1, ← run_opened hname, hq]
    rfl
  obtain ⟨k', v', hq'⟩ := hbrace
  obtain hnone | ⟨w, y, ls, r, -, hrun, hlab⟩ := run_labelled_quoted (F := F) hname hlast hu hq'
  · rw [TextFormat.readLine, hnone] at hx
    cases hx
  · rw [hrun] at hq
    have hnone : (r.under ((unitKey, u) :: (ls ++ [(k', w ++ y)]))).finish F = none :=
      finish_quoted (k := k) (v := v) hq
    rw [TextFormat.readLine, hlab, hnone] at hx
    cases hx

/-- The labels end at the last brace of the line. -/
theorem exists_labels (hname : Named name)
    (hs : TextFormat.readLine F (name ++ '{' :: t) = some (some (.sample s))) :
    ∃ inner end', t = inner ++ '}' :: end' ∧ '}' ∉ end'
      ∧ ((run ⟨name, [], .opened⟩ inner).phase = .opened
        ∨ (run ⟨name, [], .opened⟩ inner).phase = .closed) := by
  rw [TextFormat.readLine, run_opened hname] at hs
  obtain ⟨t', ht', -, hm, -⟩ := finish_eq_sample.1 hs
  obtain ⟨inner, hinner, hphase⟩ := exists_close rfl ht'
  exact ⟨inner, t', hinner, (brace_notMem_of_plain hm).2, hphase⟩

/-- A label set takes the label where no more than blanks is stripped from it. -/
theorem survives_braced (hname : Named name) (hlast : lastClose t = some (a, rest))
    (hu : TextFormat.IsLiteral u)
    (hs : TextFormat.readLine F (name ++ '{' :: t) = some (some (.sample s)))
    (hx : TextFormat.readLine F (labelLine u (name ++ '{' :: t)) = some (some (.sample x)))
    (hperm : x.labels.Perm ((unitKey, u) :: s.labels)) : TakesLabel ('{' :: t) := by
  obtain ⟨inner, end', rfl, hend, hphase⟩ := exists_labels hname hs
  rw [TakesLabel, if_pos rfl]
  refine ⟨(a, rest), hlast, ?_⟩
  obtain heq | ⟨b, rfl, hrest⟩ := lastClose_append hend hlast
  · cases heq
    exact .inl hend
  have hbrace : ∃ k v, (run ⟨name, [], .opened⟩ a).phase = .quoted k v := by
    refine quoted_of_brace (b := b) ?_
    rcases hphase with h | h <;> rw [h] <;> rfl
  obtain ⟨k, v, hq⟩ := hbrace
  right
  have hstrip : Lines.strip isBlank a ≠ [] := by
    intro hnil
    obtain ⟨w, -, hw⟩ := run_strip_quoted hq
    rw [hnil] at hw
    have := congrArg TextFormat.Reader.phase hw
    simp [run, enter] at this
  refine getLast_of_trailing hstrip ?_
  obtain hnone | ⟨w, y, ls, r, hv, hrun, hlab⟩ := run_labelled_quoted (F := F) hname hlast hu hq
  · rw [TextFormat.readLine, hnone] at hx
    cases hx
  rw [TextFormat.readLine, hrun] at hs
  rw [TextFormat.readLine, hlab] at hx
  obtain ⟨-, -, -, -, -, hsl⟩ := finish_eq_sample.1 hs
  obtain ⟨-, -, -, -, -, hxl⟩ := finish_eq_sample.1 hx
  rw [← hsl, ← hxl] at hperm
  simp only [under, List.cons_append, List.append_assoc, List.perm_cons,
    List.perm_append_left_iff] at hperm
  have hpair : [(k, w ++ y)].Perm [(k, v ++ y)] := (List.perm_append_right_iff r.labels).1 hperm
  simp only [List.singleton_perm_singleton, Prod.mk.injEq, List.append_cancel_right_eq, true_and]
    at hpair
  rw [hpair] at hv
  simpa using hv

/-- A label set that takes the label is read with it before the others. -/
theorem run_labelled_of_takes (hname : Named name) (htake : TakesLabel ('{' :: t))
    (hu : TextFormat.IsLiteral u)
    (hs : TextFormat.readLine F (name ++ '{' :: t) = some (some (.sample s))) :
    start.run (labelLine u (name ++ '{' :: t)) =
      (start.run (name ++ '{' :: t)).under [(unitKey, u)] := by
  rw [TakesLabel, if_pos rfl] at htake
  obtain ⟨⟨a, rest⟩, hlast, htake⟩ := htake
  rw [run_labelled_braced hname hlast hu, run_opened hname]
  obtain ⟨inner, end', ht, hend, hphase⟩ := exists_labels hname hs
  have hkeep : run ⟨name, [], .opened⟩ (Lines.strip isBlank a) = run ⟨name, [], .opened⟩ a := by
    obtain heq | ⟨b, rfl, hrest⟩ := lastClose_append hend (ht ▸ hlast)
    · cases heq
      exact run_strip hphase
    · have hin := htake.resolve_left (by rw [hrest]; simp)
      rw [run_trailing (a := a), trailing_of_getLast hin]
      · rfl
      · intro hfail
        rw [run_append, run_of_failed hfail, hfail] at hphase
        rcases hphase with h | h <;> cases h
  rw [run_append, hkeep, ← run_append, ← (of_lastClose hlast).1]

end Sample

/-! ## One line -/

section Line

variable {w t : List Char} {c : Char} {s : Sample} {e : Entry}

theorem samplePattern_of_not_name (h : TextFormat.isNameChar c = false) (t : List Char) :
    samplePattern (c :: t) = none := by
  simp [samplePattern, h]

theorem isNameChar_of_isSep (h : TextFormat.isSep c = true) : TextFormat.isNameChar c = false :=
  isNameChar_of_isBlank (isBlank_of_isSep h)

theorem labelLine_seps (hw : ∀ c ∈ w, TextFormat.isSep c = true) (hne : w ≠ [])
    (u t : List Char) : labelLine u (w ++ t) = w ++ t := by
  rcases w with _ | ⟨d, w⟩
  · exact absurd rfl hne
  · exact labelLine_of_none
      (samplePattern_of_not_name (isNameChar_of_isSep (hw d List.mem_cons_self)) _)

theorem labelLine_comment (hw : ∀ c ∈ w, TextFormat.isSep c = true) (u t : List Char) :
    labelLine u (w ++ '#' :: t) = w ++ '#' :: t := by
  by_cases hne : w = []
  · subst hne
    exact labelLine_of_hash rfl
  · exact labelLine_seps hw hne u _

theorem dropWhile_seps (hw : ∀ c ∈ w, TextFormat.isSep c = true)
    (hc : TextFormat.isSep c = false) :
    (w ++ c :: t).dropWhile TextFormat.isSep = c :: t := by
  rw [List.dropWhile_append_of_pos hw, List.dropWhile_cons_of_neg (by simp [hc])]

theorem isSep_of_isNameStart (hc : TextFormat.isNameStart c = true) :
    TextFormat.isSep c = false := by
  by_contra h
  obtain rfl | rfl := TextFormat.isSep_iff.1 (by simpa using h) <;> exact absurd hc (by decide)

/-- A sample's line that begins with its name. -/
theorem exists_name (hs : TextFormat.readLine F line = some (some (.sample s)))
    (hhead : line.head?.any TextFormat.isSep = false) :
    ∃ name, Named name ∧ line = name ++ line.dropWhile TextFormat.isNameChar := by
  obtain ⟨⟨⟩, -⟩ | ⟨w, t, -, -, ⟨⟩⟩ | ⟨w, c, t, x, rfl, hw, hc, -⟩ := TextFormat.readLine_cases hs
  rcases w with _ | ⟨d, w⟩
  · refine ⟨_, named_takeWhile ?_, List.takeWhile_append_dropWhile.symm⟩
    have hn : TextFormat.isNameChar c = true := by simp [TextFormat.isNameChar, hc]
    rw [List.nil_append, List.takeWhile_cons_of_pos hn]
    simpa using hc
  · rw [List.cons_append, List.head?_cons, Option.any_some, hw d List.mem_cons_self] at hhead
    cases hhead

theorem isSampleLine_of_sample (hs : TextFormat.readLine F line = some (some (.sample s))) :
    isSampleLine line = true := by
  obtain ⟨⟨⟩, -⟩ | ⟨w, t, -, -, ⟨⟩⟩ | ⟨w, c, t, x, rfl, hw, hc, -⟩ := TextFormat.readLine_cases hs
  rw [isSampleLine, dropWhile_seps hw (isSep_of_isNameStart hc)]
  simp only [List.head?_cons, Option.any_some, ne_eq, decide_not, Bool.not_eq_true',
    decide_eq_false_iff_not]
  rintro rfl
  exact absurd hc (by decide)

theorem eq_unit_of_perm {x : Sample} (hunit : ∀ l ∈ s.labels, l.1 ≠ unitKey)
    (hperm : x.labels.Perm ((unitKey, u) :: s.labels)) :
    ∀ l ∈ x.labels, l.1 = unitKey → l.2 = u := by
  intro l hl hkey
  obtain rfl | hl := List.mem_cons.1 (hperm.mem_iff.1 hl)
  · rfl
  · exact absurd hkey (hunit l hl)

/-- A labelled sample shows that its line could be labelled. -/
theorem survives_of_sample (hs : TextFormat.readLine F line = some (some (.sample s)))
    (hunit : ∀ l ∈ s.labels, l.1 ≠ unitKey)
    (hx : TextFormat.readLine F (firstLine (labelLine u (piece line))) = some (some e))
    (hlab : LabelledAs u (.sample s) e) : Survives u line := by
  cases e with
  | comment text => exact hlab.elim
  | sample x =>
    obtain ⟨-, -, -, hperm⟩ := hlab
    have hxu := eq_unit_of_perm hunit hperm
    cases hm : samplePattern (piece line) with
    | none =>
      rw [labelLine_of_none hm, firstLine_of_notMem newline_notMem_piece] at hx
      obtain ⟨hwhole, -⟩ | ⟨b, q, hcut, hb⟩ := piece_cases line
      · rw [hwhole, hs, Option.some.injEq, Option.some.injEq, Entry.sample.injEq] at hx
        have hlen := hperm.length_eq
        simp [hx] at hlen
      · obtain ⟨k, v, hq⟩ := cut_quoted hb (hcut ▸ hs)
        rw [TextFormat.readLine, finish_quoted hq] at hx
        cases hx
    | some m =>
      have hpiece : '\n' ∉ piece line := newline_notMem_piece
      obtain ⟨name, c, t, hname, hc, heq⟩ | ⟨name, t, a, rest, hname, heq, hlast⟩ :=
        of_samplePattern hm
      · rw [heq] at hx hpiece
        have hu := literal_of_labelled hname (labelLine_bare hname hc u t ▸ hx) hxu
        rw [firstLine_of_notMem (newline_notMem_labelLine hu.2 hpiece)] at hx
        obtain ⟨⟨y, hy⟩, htake⟩ := survives_bare hname hc hx hu.1
        obtain ⟨hwhole, hunbroken⟩ | ⟨b, q, hcut, hb⟩ := piece_cases line
        · rw [hwhole] at heq
          refine ⟨hunbroken, fun _ => hu, fun _ => heq ▸ hname.head_not_sep _, fun _ => ?_⟩
          rwa [heq, dropWhile_name hname (isNameChar_of_isBlank hc)]
        · obtain ⟨k, v, hq⟩ := cut_quoted hb (hcut ▸ hs)
          rw [heq] at hq
          rw [TextFormat.readLine, finish_quoted hq] at hy
          cases hy
      · rw [heq] at hx hpiece
        have hu := literal_of_labelled hname (labelLine_braced hname hlast u ▸ hx) hxu
        rw [firstLine_of_notMem (newline_notMem_labelLine hu.2 hpiece)] at hx
        obtain ⟨hwhole, hunbroken⟩ | ⟨b, q, hcut, hb⟩ := piece_cases line
        · rw [hwhole] at heq
          subst heq
          have htake := survives_braced hname hlast hu.1 hs hx hperm
          refine ⟨hunbroken, fun _ => hu, fun _ => hname.head_not_sep _, fun _ => ?_⟩
          rwa [dropWhile_name hname (by decide)]
        · obtain ⟨k, v, hq⟩ := cut_quoted hb (hcut ▸ hs)
          exact absurd (heq ▸ hq) (not_quoted_of_labelled hname hlast hu.1 hx)

/-- A line that can be labelled is read with the label before its others. -/
theorem readLine_labelLine (hs : TextFormat.readLine F line = some (some (.sample s)))
    (hunit : ∀ l ∈ s.labels, l.1 ≠ unitKey) (h : Survives u line) :
    TextFormat.readLine F (labelLine u line) =
      some (some (.sample { s with labels := (unitKey, u) :: s.labels })) := by
  have hsample := isSampleLine_of_sample hs
  obtain ⟨name, hname, hline⟩ := exists_name hs (h.named hsample)
  have htake := h.taken hsample
  have hu := (h.literal hsample).1
  have hfresh : unitKey ∉ s.labels.map Prod.fst := by
    rw [List.mem_map]
    rintro ⟨l, hl, hkey⟩
    exact hunit l hl hkey
  rcases hafter : line.dropWhile TextFormat.isNameChar with _ | ⟨c, t⟩
  · rw [hafter] at htake
    exact htake.elim
  · rw [hafter] at htake hline
    subst hline
    by_cases hc : c = '{'
    · subst hc
      rw [TextFormat.readLine] at hs
      obtain ⟨t', ht', hnodup, hm, hn, hl⟩ := finish_eq_sample.1 hs
      rw [TextFormat.readLine, run_labelled_of_takes hname htake hu hs]
      rw [hl] at hnodup
      exact finish_eq_sample.2
        ⟨t', ht', by simpa [under, hl] using And.intro (by simpa using hfresh) hnodup, hm, hn,
          by simp [under, hl]⟩
    · rw [TakesLabel, if_neg hc] at htake
      rw [TextFormat.readLine, run_named_name hname, run_bare htake.2 fun d hd => by
        simp only [List.head?_cons, Option.mem_def, Option.some.injEq] at hd
        exact hd ▸ isNameChar_of_isBlank htake.1] at hs
      obtain ⟨t', ht', hnodup, hm, hn, hl⟩ := finish_eq_sample.1 hs
      rw [TextFormat.readLine, run_labelled_bare hname htake.1 hu]
      exact finish_eq_sample.2 ⟨t', ht', by simp, hm, hn, by simp [← hl]⟩

/-- No sample with a unit label. -/
def IsUnlabelled (e : Entry) : Prop := ∀ s, e = .sample s → ∀ l ∈ s.labels, l.1 ≠ unitKey

theorem unbroken_of_seps (hw : ∀ c ∈ w, TextFormat.isSep c = true) :
    ∀ c ∈ w, isLineBreak c = false := by
  intro c hc
  obtain rfl | rfl := TextFormat.isSep_iff.1 (hw c hc) <;> decide

theorem survives_of_no_sample (hline : ∀ c ∈ line, isLineBreak c = false)
    (h : isSampleLine line = false) : Survives u line :=
  ⟨hline, fun hs => by simp [h] at hs, fun hs => by simp [h] at hs, fun hs => by simp [h] at hs⟩

theorem isSampleLine_seps (hw : ∀ c ∈ w, TextFormat.isSep c = true) : isSampleLine w = false := by
  rw [isSampleLine, List.dropWhile_eq_nil_iff.2 hw]
  rfl

theorem isSampleLine_comment (hw : ∀ c ∈ w, TextFormat.isSep c = true) (t : List Char) :
    isSampleLine (w ++ '#' :: t) = false := by
  rw [isSampleLine, dropWhile_seps hw (by decide)]
  rfl

theorem piece_append (hw : ∀ c ∈ w, isLineBreak c = false) (t : List Char) :
    piece (w ++ t) = w ++ piece t :=
  List.takeWhile_append_of_pos fun c hc => by simp [hw c hc]

theorem Named.newline_notMem {name : List Char} (hname : Named name) : '\n' ∉ name :=
  fun h => absurd (hname.chars _ h) (by decide)

/-- What is made of a sample's line does not begin with a blank one. -/
theorem exists_not_sep (hw : ∀ c ∈ w, TextFormat.isSep c = true)
    (hc : TextFormat.isNameStart c = true) (u t : List Char) :
    ∃ d ∈ firstLine (labelLine u (piece (w ++ c :: t))), TextFormat.isSep d = false := by
  have hbreak : isLineBreak c = false := by
    by_contra h
    have hn := isNameChar_of_isBlank (isBlank_of_isLineBreak (by simpa using h))
    simp [TextFormat.isNameChar, hc] at hn
  have hstart : ∀ {name : List Char}, Named name → ∀ z,
      ∃ d ∈ firstLine (name ++ z), TextFormat.isSep d = false := by
    intro name hname z
    rw [firstLine_append hname.newline_notMem]
    obtain ⟨y, _, rfl, hy, -⟩ := hname.eq_cons
    exact ⟨y, by simp, isSep_of_isNameStart hy⟩
  cases hm : samplePattern (piece (w ++ c :: t)) with
  | none =>
    rw [labelLine_of_none hm, firstLine_of_notMem newline_notMem_piece,
      piece_append (unbroken_of_seps hw), piece, List.takeWhile_cons_of_pos (by simp [hbreak])]
    exact ⟨c, by simp, isSep_of_isNameStart hc⟩
  | some m =>
    obtain ⟨name, d, t', hname, hd, heq⟩ | ⟨name, t', a, rest, hname, heq, hlast⟩ :=
      of_samplePattern hm
    · rw [heq, labelLine_bare hname hd]
      exact hstart hname _
    · rw [heq, labelLine_braced hname hlast]
      exact hstart hname _

/-- A line's first output line is its entry only if the line could be labelled. -/
theorem survives_of_labelled {i : Option Entry}
    (hs : TextFormat.readLine F line = some (some e)) (hunit : IsUnlabelled e)
    (hx : TextFormat.readLine F (firstLine (labelLine u (piece line))) = some i) :
    i ≠ none ∧ ∀ e', i = some e' → LabelledAs u e e' → Survives u line := by
  obtain ⟨⟨⟩, -⟩ | ⟨w, t, rfl, hw, he⟩ | ⟨w, c, t, x, rfl, hw, hc, he⟩ :=
    TextFormat.readLine_cases hs
  · rw [Option.some.injEq] at he
    subst he
    have hpiece : piece (w ++ '#' :: t) = w ++ '#' :: piece t := by
      rw [piece_append (unbroken_of_seps hw)]
      rfl
    have hnl : '\n' ∉ piece (w ++ '#' :: t) := newline_notMem_piece
    rw [hpiece] at hx hnl
    rw [labelLine_comment hw, firstLine_of_notMem hnl] at hx
    have hdrop := dropWhile_seps (t := piece t) hw (show TextFormat.isSep '#' = false by decide)
    obtain ⟨rfl, hall⟩ | ⟨w', t', heq, hw', rfl⟩ | ⟨w', c', t', x', heq, hw', hc', -⟩ :=
      TextFormat.readLine_cases hx
    · exact absurd (hall '#' (by simp)) (by decide)
    · rw [heq, dropWhile_seps hw' (by decide), List.cons.injEq] at hdrop
      refine ⟨by simp, fun e' he' hlab => ?_⟩
      rw [Option.some.injEq] at he'
      subst he'
      rw [hdrop.2] at hlab
      have hsame : piece t = t := (List.cons.inj hlab).2
      refine survives_of_no_sample ?_ (isSampleLine_comment hw t)
      obtain ⟨-, hunbroken⟩ | ⟨b, q, hcut, -⟩ := piece_cases t
      · rw [List.forall_mem_append, List.forall_mem_cons]
        exact ⟨unbroken_of_seps hw, by decide, hunbroken⟩
      · rw [hsame] at hcut
        simpa using congrArg List.length hcut
    · rw [heq, dropWhile_seps hw' (isSep_of_isNameStart hc'), List.cons.injEq] at hdrop
      exact absurd (hdrop.1 ▸ hc') (by decide)
  · rw [Option.some.injEq] at he
    subst he
    refine ⟨?_, fun e' he' => survives_of_sample hs (hunit x rfl) (he' ▸ hx)⟩
    rintro rfl
    obtain ⟨d, hd, hsep⟩ := exists_not_sep hw hc u t
    obtain ⟨-, hall⟩ | ⟨_, _, _, _, ⟨⟩⟩ | ⟨_, _, _, _, _, _, _, ⟨⟩⟩ := TextFormat.readLine_cases hx
    simp [hall d hd] at hsep

theorem readLine_of_survives (hline : '\n' ∉ line)
    (hs : TextFormat.readLine F line = some (some e)) (hunit : IsUnlabelled e)
    (h : Survives u line) :
    ∃ e', TextFormat.readLine F (labelLine u line) = some (some e') ∧ LabelledAs u e e'
      ∧ '\n' ∉ labelLine u line := by
  obtain ⟨⟨⟩, -⟩ | ⟨w, t, rfl, hw, he⟩ | ⟨w, c, t, x, rfl, hw, hc, he⟩ :=
    TextFormat.readLine_cases hs
  · rw [Option.some.injEq] at he
    subst he
    rw [labelLine_comment hw]
    exact ⟨_, hs, rfl, hline⟩
  · rw [Option.some.injEq] at he
    subst he
    have hlit := h.literal (isSampleLine_of_sample hs)
    exact ⟨_, readLine_labelLine hs (hunit x rfl) h, ⟨rfl, rfl, rfl, .refl _⟩,
      newline_notMem_labelLine hlit.2 hline⟩

end Line

/-! ## The whole exposition -/

/-- What becomes of a line. -/
def outputOf (u line : List Char) : List Char :=
  (Lines.split isLineBreak (line ++ ['\n'])).flatMap fun p => labelLine u p ++ ['\n']

theorem addUnitLabel_eq (u : List Char) {ls : List (List Char)} (hne : ls ≠ []) :
    addUnitLabel (ls.flatMap fun l => l ++ ['\n']) u = ls.flatMap (outputOf u) := by
  have hsplit : Lines.split isLineBreak (ls.flatMap fun l => l ++ ['\n']) ≠ [] := by
    refine Lines.splitFrom_false_ne_nil ?_
    rcases ls with _ | ⟨l, ls⟩
    · exact absurd rfl hne
    · simp
  rw [addUnitLabel, Lines.intercalate_append _ hsplit, Lines.split_lines (by decide),
    List.flatMap_assoc]
  rfl

theorem outputOf_eq (h : ∀ c ∈ line, isLineBreak c = false) (u : List Char) :
    outputOf u line = labelLine u line ++ ['\n'] := by
  rw [outputOf, Lines.split_break h (by decide) (by decide)]
  simp

theorem exists_outputOf (u line : List Char) :
    ∃ more, outputOf u line = firstLine (labelLine u (piece line)) ++ '\n' :: more := by
  have hpiece : ∃ ps, Lines.split isLineBreak (line ++ ['\n']) = piece line :: ps := by
    obtain ⟨hwhole, h⟩ | ⟨b, q, hcut, hb⟩ := piece_cases line
    · rw [hwhole]
      exact Lines.exists_split_cons h (show isLineBreak '\n' = true by decide)
    · rw [hcut, List.append_assoc, List.cons_append, ← hcut]
      exact Lines.exists_split_cons (fun c hc => not_break_of_mem_piece hc) hb
  obtain ⟨ps, hps⟩ := hpiece
  rw [outputOf, hps, List.flatMap_cons]
  have hfirst := List.takeWhile_append_dropWhile (p := (· ≠ '\n')) (l := labelLine u (piece line))
  rcases hd : (labelLine u (piece line)).dropWhile (· ≠ '\n') with _ | ⟨d, z⟩
  · rw [hd, List.append_nil] at hfirst
    exact ⟨_, by rw [firstLine, hfirst, List.append_assoc]; rfl⟩
  · have hne : (labelLine u (piece line)).dropWhile (· ≠ '\n') ≠ [] := hd ▸ List.cons_ne_nil d z
    have hnl := List.head_dropWhile_not (· ≠ '\n') hne
    simp only [hd, List.head_cons, decide_eq_false_iff_not, not_not] at hnl
    subst hnl
    rw [hd] at hfirst
    refine ⟨z ++ '\n' :: ps.flatMap fun p => labelLine u p ++ ['\n'], ?_⟩
    conv_lhs => rw [← hfirst]
    simp [firstLine]

variable {exposition : List Char} {doc out : List Entry}

theorem survives_of_blank (h : TextFormat.readLine F line = some none) : Survives u line := by
  obtain ⟨-, hseps⟩ | ⟨_, _, _, _, ⟨⟩⟩ | ⟨_, _, _, _, _, _, _, ⟨⟩⟩ := TextFormat.readLine_cases h
  exact survives_of_no_sample (unbroken_of_seps hseps) (isSampleLine_seps hseps)

/-- A line that can be labelled becomes one line, which says the same. -/
theorem exists_labelled {i : Option Entry} (hline : '\n' ∉ line)
    (hs : TextFormat.readLine F line = some i) (hunit : ∀ e ∈ i.toList, IsUnlabelled e)
    (h : Survives u line) :
    ∃ i' : Option Entry, List.Forall₂ (LabelledAs u) i.toList i'.toList
      ∧ ∀ rest out, TextFormat.readLines F (TextFormat.lines (outputOf u line ++ rest)) = some out ↔
        ∃ out', TextFormat.readLines F (TextFormat.lines rest) = some out'
          ∧ out = i'.toList ++ out' := by
  have hread : ∃ i' : Option Entry, List.Forall₂ (LabelledAs u) i.toList i'.toList
      ∧ TextFormat.readLine F (labelLine u line) = some i' ∧ '\n' ∉ labelLine u line := by
    cases i with
    | none =>
      obtain ⟨-, hseps⟩ | ⟨_, _, _, _, ⟨⟩⟩ | ⟨_, _, _, _, _, _, _, ⟨⟩⟩ :=
        TextFormat.readLine_cases hs
      have hsame : labelLine u line = line := by
        by_cases hne : line = []
        · subst hne
          rfl
        · simpa using labelLine_seps hseps hne u []
      exact ⟨none, .nil, by rwa [hsame], by rwa [hsame]⟩
    | some e =>
      obtain ⟨e', he', hlab, hnl⟩ := readLine_of_survives hline hs (hunit e (by simp)) h
      exact ⟨some e', .cons hlab .nil, he', hnl⟩
  obtain ⟨i', hlab, hi', hnl⟩ := hread
  refine ⟨i', hlab, fun rest out => ?_⟩
  rw [outputOf_eq h.unbroken, List.append_assoc, List.singleton_append,
    TextFormat.lines_cons _ _ hnl, TextFormat.readLines_cons_eq_some]
  constructor
  · rintro ⟨i'', o, hi'', ho, rfl⟩
    rw [hi', Option.some.injEq] at hi''
    exact ⟨o, ho, by rw [hi'']⟩
  · rintro ⟨o, ho, rfl⟩
    exact ⟨i', o, hi', ho, rfl⟩

/-- The line that leads the output could be labelled. -/
theorem survives_of_leading {i : Option Entry} {rest : List Char}
    (hs : TextFormat.readLine F line = some i) (hunit : ∀ e ∈ i.toList, IsUnlabelled e)
    (hout : TextFormat.readLines F (TextFormat.lines (outputOf u line ++ rest)) = some out)
    (hlab : List.Forall₂ (LabelledAs u) (i.toList ++ doc) out) : Survives u line := by
  cases i with
  | none => exact survives_of_blank hs
  | some e =>
    obtain ⟨more, hmore⟩ := exists_outputOf u line
    have hfirst : '\n' ∉ firstLine (labelLine u (piece line)) := fun h => by
      simpa using List.mem_takeWhile_imp h
    rw [hmore, List.append_assoc, List.cons_append, TextFormat.lines_cons _ _ hfirst] at hout
    obtain ⟨i', o, hi', -, rfl⟩ := TextFormat.readLines_cons_eq_some.1 hout
    obtain ⟨hne, hback⟩ := survives_of_labelled hs (hunit e (by simp)) hi'
    obtain ⟨e', rfl⟩ := Option.ne_none_iff_exists'.1 hne
    simp only [Option.toList_some, List.singleton_append, List.forall₂_cons] at hlab
    exact hback e' rfl hlab.1

theorem forall₂_append_iff {α β : Type*} {r : α → β → Prop} {as bs : List α} {cs ds : List β}
    (h : List.Forall₂ r as cs) : List.Forall₂ r (as ++ bs) (cs ++ ds) ↔ List.Forall₂ r bs ds := by
  induction h with
  | nil => rfl
  | cons hr _ ih => simp [hr, ih]

/-- The output is read line by line as the labelled entries where every line can be labelled, and
only there. -/
theorem labelled_lines_iff (hunit : ∀ e ∈ doc, IsUnlabelled e) {ls : List (List Char)}
    (hnl : ∀ l ∈ ls, '\n' ∉ l) (hread : TextFormat.readLines F ls = some doc) :
    (∃ out, TextFormat.readLines F (TextFormat.lines (ls.flatMap (outputOf u))) = some out
        ∧ List.Forall₂ (LabelledAs u) doc out) ↔ ∀ l ∈ ls, Survives u l := by
  induction ls generalizing doc with
  | nil =>
    cases hread
    exact ⟨fun _ l hl => absurd hl List.not_mem_nil, fun _ => ⟨[], rfl, .nil⟩⟩
  | cons l ls ih =>
    rw [List.forall_mem_cons] at hnl ⊢
    obtain ⟨i, doc', hl, hls, rfl⟩ := TextFormat.readLines_cons_eq_some.1 hread
    rw [List.forall_mem_append] at hunit
    rw [← ih hunit.2 hnl.2 hls, List.flatMap_cons]
    constructor
    · rintro ⟨out, hout, hlab⟩
      have hsurv := survives_of_leading hl hunit.1 hout hlab
      obtain ⟨i', hi', hiff⟩ := exists_labelled hnl.1 hl hunit.1 hsurv
      obtain ⟨out', hout', rfl⟩ := (hiff _ _).1 hout
      exact ⟨hsurv, out', hout', (forall₂_append_iff hi').1 hlab⟩
    · rintro ⟨hsurv, out', hout', hlab⟩
      obtain ⟨i', hi', hiff⟩ := exists_labelled hnl.1 hl hunit.1 hsurv
      exact ⟨i'.toList ++ out', (hiff _ _).2 ⟨out', hout', rfl⟩,
        (forall₂_append_iff hi').2 hlab⟩

theorem exists_mem_of_forall₂ {α β : Type*} {r : α → β → Prop} {as : List α} {bs : List β}
    (h : List.Forall₂ r as bs) {b : β} (hb : b ∈ bs) : ∃ a ∈ as, r a b := by
  induction h with
  | nil => cases hb
  | @cons a b' as bs hr _ ih =>
    obtain rfl | hb := List.mem_cons.1 hb
    · exact ⟨a, List.mem_cons_self, hr⟩
    · obtain ⟨a', ha', hr'⟩ := ih hb
      exact ⟨a', List.mem_cons_of_mem a ha', hr'⟩

theorem sameSeries_of_labelled {a a' b b' : Entry} (ha : LabelledAs u a a')
    (hb : LabelledAs u b b') (h : a'.SameSeries b') : a.SameSeries b := by
  rcases a with _ | s <;> rcases a' with _ | s' <;> try exact ha.elim
  · exact h.elim
  rcases b with _ | x <;> rcases b' with _ | x' <;> try exact hb.elim
  · exact h.elim
  obtain ⟨hn, -, -, hl⟩ := ha
  obtain ⟨hn', -, -, hl'⟩ := hb
  exact ⟨hn.symm.trans (h.1.trans hn'),
    (List.perm_cons _).1 (hl.symm.trans (h.2.trans hl'))⟩

/-- What a format asks of a whole document is not touched. -/
theorem valid_of_labelled (hlab : List.Forall₂ (LabelledAs u) doc out)
    (h : TextFormat.Valid F doc) : TextFormat.Valid F out := by
  have houtline : out.map Entry.outline = doc.map Entry.outline := by
    clear h
    induction hlab with
    | nil => rfl
    | @cons a a' _ _ ha _ ih =>
      rw [List.map_cons, List.map_cons, ih]
      rcases a with _ | s <;> rcases a' with _ | s' <;> try exact ha.elim
      · rw [show _ = _ from ha]
      · simp [Entry.outline, ha.1]
  refine ⟨houtline ▸ h.orderly, ?_⟩
  have hdistinct := h.distinct
  clear h houtline
  induction hlab with
  | nil => exact .nil
  | @cons a a' as as' ha has ih =>
    rw [List.pairwise_cons] at hdistinct ⊢
    refine ⟨fun b' hb' hsame => ?_, ih hdistinct.2⟩
    obtain ⟨b, hb, hbb⟩ := exists_mem_of_forall₂ has hb'
    exact hdistinct.1 b hb (sameSeries_of_labelled ha hbb hsame)

/-- Labelling labels every sample and changes nothing else where every line is of the kind that
takes a label, and only there. -/
theorem labels_every_sample_iff (F : Format) (exposition unitName : List Char)
    (h : TextFormat.read F exposition = some doc) (hunit : ∀ e ∈ doc, IsUnlabelled e) :
    LabelsEverySample F exposition unitName doc ↔
      ∀ line ∈ TextFormat.lines exposition, Survives unitName line := by
  obtain ⟨hread, hended, hvalid⟩ := TextFormat.read_eq_some.1 h
  have hnl : ∀ l ∈ TextFormat.lines exposition, '\n' ∉ l :=
    fun l hl => TextFormat.newline_notMem_of_mem_lines hl
  have htext := TextFormat.flatMap_lines hended
  have hout : TextFormat.readLines F (TextFormat.lines (addUnitLabel exposition unitName)) =
      TextFormat.readLines F
        (TextFormat.lines ((TextFormat.lines exposition).flatMap (outputOf unitName))) := by
    by_cases hne : TextFormat.lines exposition = []
    · rw [hne, List.flatMap_nil] at htext
      subst htext
      rfl
    · rw [← addUnitLabel_eq unitName hne, htext]
  rw [← labelled_lines_iff hunit hnl hread, LabelsEverySample]
  constructor
  · rintro ⟨out, hr, hlab⟩
    exact ⟨out, hout ▸ (TextFormat.read_eq_some.1 hr).1, hlab⟩
  · rintro ⟨out, hr, hlab⟩
    refine ⟨out, TextFormat.read_eq_some.2 ⟨hout.trans hr, ?_, valid_of_labelled hlab hvalid⟩, hlab⟩
    simp [addUnitLabel]

def isDigits (v : List Char) : Bool := v ≠ [] && v.all TextFormat.isPlain

theorem plain_of_isDigits (v : List Char) (h : isDigits v = true) :
    ∀ c ∈ v, TextFormat.isPlain c = true :=
  List.all_eq_true.1 (Bool.and_eq_true_iff.1 h).2

/-- Any plain word is a number here, and any comment may stand anywhere. -/
def plainWords : Format where
  isValue := isDigits
  isTimestamp := isDigits
  isComment _ := true
  isOrderly _ := true
  value_plain := plain_of_isDigits
  timestamp_plain := plain_of_isDigits

def zones : List Char :=
  "# TYPE zone gauge\nzone\x7bname=\"\x7d pack\",kind=\"a\\\\b\"\x7d 27 5\n\nup 1\n".toList

def zoneEntries : List Entry :=
  [.comment "# TYPE zone gauge".toList,
    .sample ⟨"zone".toList, [("name".toList, "\x7d pack".toList), ("kind".toList, "a\\b".toList)],
      "27".toList, some "5".toList⟩,
    .sample ⟨"up".toList, [], "1".toList, none⟩]

theorem zones_labelled : LabelsEverySample plainWords zones "lab".toList zoneEntries ↔
    ∀ line ∈ TextFormat.lines zones, Survives "lab".toList line :=
  labels_every_sample_iff plainWords zones "lab".toList (by decide +kernel) (by
    intro e he s hs l hl
    subst hs
    simp only [zoneEntries, List.mem_cons, reduceCtorEq, Entry.sample.injEq, List.not_mem_nil,
      or_false, false_or] at he
    obtain rfl | rfl := he
    · simp only [List.mem_cons, List.not_mem_nil, or_false] at hl
      obtain rfl | rfl := hl <;> decide
    · cases hl)

/-- A label value that holds a next-line character is cut in two. -/
theorem next_line_cut :
    TextFormat.read plainWords "zone\x7bname=\"a\u0085b\"\x7d 1\n".toList =
        some [.sample ⟨"zone".toList, [("name".toList, "a\u0085b".toList)], "1".toList, none⟩]
      ∧ ¬LabelsEverySample plainWords "zone\x7bname=\"a\u0085b\"\x7d 1\n".toList "lab".toList
        [.sample ⟨"zone".toList, [("name".toList, "a\u0085b".toList)], "1".toList, none⟩] := by
  refine ⟨by decide +kernel, ?_⟩
  rintro ⟨out, hout, -⟩
  have hnone : TextFormat.read plainWords
      (addUnitLabel "zone\x7bname=\"a\u0085b\"\x7d 1\n".toList "lab".toList) = none := by
    decide +kernel
  rw [hnone] at hout
  cases hout

end Exposition

end Rackphone
