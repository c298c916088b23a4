import Rackphone.Proofs.Exposition
import Rackphone.Scrape

/-!
# What a scrape says

A chunk is whole lines, so the document is read chunk by chunk, and a unit's label keeps its series
apart from those of the others.
-/

namespace Rackphone

namespace Scrape

open TextFormat (Entry Format)
open Exposition (LabelledAs unitKey)

variable {F : Format} {a : Answer} {doc : List Entry}

/-! ## Lines -/

/-- Lines that are ended stay lines. -/
theorem lines_append (ls : List Text) (h : ∀ l ∈ ls, '\n' ∉ l) (t : Text) :
    TextFormat.lines (ls.flatMap (fun l => l ++ ['\n']) ++ t) = ls ++ TextFormat.lines t := by
  induction ls with
  | nil => rfl
  | cons l ls ih =>
    obtain ⟨hl, hls⟩ := List.forall_mem_cons.1 h
    rw [List.flatMap_cons, List.append_assoc, List.append_assoc, List.singleton_append,
      TextFormat.lines_cons l _ hl, ih hls, List.cons_append]

/-- A text whose last line is ended is read before what follows it. -/
theorem readLines_lines_append {s : Text} (h : s.getLast?.getD '\n' = '\n') (t : Text) :
    TextFormat.readLines F (TextFormat.lines (s ++ t)) = do
      let x ← TextFormat.readLines F (TextFormat.lines s)
      let y ← TextFormat.readLines F (TextFormat.lines t)
      return x ++ y := by
  have hlines := lines_append (TextFormat.lines s)
    (fun l hl => TextFormat.newline_notMem_of_mem_lines hl) t
  rw [TextFormat.flatMap_lines h] at hlines
  rw [hlines, TextFormat.readLines_append]

theorem words_plain {v : Text} (hne : v ≠ []) (h : ∀ c ∈ v, TextFormat.isPlain c) :
    TextFormat.words (' ' :: v) = [v] := by
  have hsep : ∀ c ∈ v, TextFormat.isSep c = false := by
    intro c hc
    by_contra hs
    obtain rfl | rfl := TextFormat.isSep_iff.1 (by simpa using hs) <;>
      exact absurd (h _ hc) (by decide)
  rw [TextFormat.words_sep (by decide), TextFormat.words, List.splitOnP_eq_singleton hsep]
  simp [hne]

/-- One of the bridge's own lines. -/
theorem readLines_ownLine {metric u v : Text} (hmetric : Exposition.Named metric)
    (hu : TextFormat.IsLiteral u) (hnl : '\n' ∉ u) (hne : v ≠ []) (hv : F.isValue v = true)
    (t : Text) :
    TextFormat.readLines F (TextFormat.lines (ownLine metric u v ++ t)) = do
      let y ← TextFormat.readLines F (TextFormat.lines t)
      return .sample ⟨metric, [(unitKey, u)], v, none⟩ :: y := by
  have hplain := F.value_plain v hv
  have hline : ownLine metric u v = Exposition.labelLine u (metric ++ ' ' :: v) ++ ['\n'] := by
    rw [Exposition.labelLine_bare hmetric (by decide), ownLine]
    simp
  have hread : TextFormat.readLine F (Exposition.labelLine u (metric ++ ' ' :: v))
      = some (some (.sample ⟨metric, [(unitKey, u)], v, none⟩)) := by
    rw [TextFormat.readLine, Exposition.run_labelled_bare hmetric (by decide) hu,
      TextFormat.Reader.finish_eq_sample]
    refine ⟨' ' :: v, rfl, by simp, ?_, rfl, rfl⟩
    rw [TextFormat.measure, words_plain hne hplain]
    simp [hv]
  have hnewline : '\n' ∉ Exposition.labelLine u (metric ++ ' ' :: v) := by
    refine Exposition.newline_notMem_labelLine hnl fun hm => ?_
    rcases List.mem_append.1 hm with hm | hm
    · exact hmetric.newline_notMem hm
    · rcases List.mem_cons.1 hm with hm | hm
      · exact absurd hm (by decide)
      · exact absurd (hplain _ hm) (by decide)
  rw [hline, List.append_assoc, List.singleton_append, TextFormat.lines_cons _ _ hnewline,
    TextFormat.readLines, hread]
  cases TextFormat.readLines F (TextFormat.lines t) <;> rfl

/-! ## One unit -/

theorem named_up : Exposition.Named UP := ⟨rfl, List.all_eq_true.1 rfl⟩

theorem named_duration : Exposition.Named COLLECT_DURATION := ⟨rfl, List.all_eq_true.1 rfl⟩

/-- What a unit answered, labelled. -/
theorem exists_body (h : Says F a doc) {body : Text} (hbody : a.body = some body) :
    ∃ out,
      TextFormat.readLines F (TextFormat.lines (Exposition.addUnitLabel body a.name)) = some out
      ∧ List.Forall₂ (LabelledAs a.name) doc out := by
  obtain ⟨hread, hended, -⟩ := TextFormat.read_eq_some.1 (h.read body hbody)
  have hunit : ∀ e ∈ doc, Exposition.IsUnlabelled e := by
    rintro e he s rfl
    exact h.unlabelled s he
  by_cases hne : TextFormat.lines body = []
  · rw [hne] at hread
    cases hread
    have hempty : body = [] := by rw [← TextFormat.flatMap_lines hended, hne, List.flatMap_nil]
    exact ⟨[], by rw [hempty]; rfl, .nil⟩
  · have hout := (Exposition.labelled_lines_iff hunit
      (fun l hl => TextFormat.newline_notMem_of_mem_lines hl) hread).2 (h.survives body hbody)
    rwa [← Exposition.addUnitLabel_eq a.name hne, TextFormat.flatMap_lines hended] at hout

theorem fixed3_ne_nil (n : ℕ) : fixed3 n ≠ [] := by simp [fixed3]

theorem up_ne_nil (a : Answer) : a.up ≠ [] := by
  unfold Answer.up
  split_ifs <;> exact List.cons_ne_nil _ _

theorem isValue_up (hF : TakesOwn F) (a : Answer) : F.isValue a.up = true := by
  unfold Answer.up
  split_ifs
  · exact hF.one
  · exact hF.zero

/-- The chunks of one unit are read as its labelled entries. -/
theorem exists_chunks (hF : TakesOwn F) (h : Says F a doc) :
    ∃ out, List.Forall₂ (LabelledAs a.name) (a.entries doc) out
      ∧ ∀ t, TextFormat.readLines F (TextFormat.lines (a.chunks ++ t)) = do
        let y ← TextFormat.readLines F (TextFormat.lines t)
        return out ++ y := by
  have hown : ∀ t, TextFormat.readLines F (TextFormat.lines
      (ownLine UP a.name a.up ++ (ownLine COLLECT_DURATION a.name (fixed3 a.elapsed) ++ t))) = do
        let y ← TextFormat.readLines F (TextFormat.lines t)
        return .sample ⟨UP, [(unitKey, a.name)], a.up, none⟩
          :: .sample ⟨COLLECT_DURATION, [(unitKey, a.name)], fixed3 a.elapsed, none⟩ :: y := by
    intro t
    rw [readLines_ownLine named_up h.literal.1 h.literal.2 (up_ne_nil a) (isValue_up hF a),
      readLines_ownLine named_duration h.literal.1 h.literal.2 (fixed3_ne_nil _) (hF.duration _)]
    cases TextFormat.readLines F (TextFormat.lines t) <;> rfl
  have hlast : List.Forall₂ (LabelledAs a.name)
      [.sample ⟨UP, [], a.up, none⟩, .sample ⟨COLLECT_DURATION, [], fixed3 a.elapsed, none⟩]
      [.sample ⟨UP, [(unitKey, a.name)], a.up, none⟩,
        .sample ⟨COLLECT_DURATION, [(unitKey, a.name)], fixed3 a.elapsed, none⟩] :=
    .cons ⟨rfl, rfl, rfl, .refl _⟩ (.cons ⟨rfl, rfl, rfl, .refl _⟩ .nil)
  rcases hbody : a.body with _ | body
  · rw [Answer.entries, h.silent hbody]
    refine ⟨_, hlast, fun t => ?_⟩
    rw [Answer.chunks, hbody, List.nil_append, List.append_assoc]
    exact hown t
  · obtain ⟨out, hout, hlabelled⟩ := exists_body h hbody
    refine ⟨_, List.rel_append hlabelled hlast, fun t => ?_⟩
    have hended : (Exposition.addUnitLabel body a.name).getLast?.getD '\n' = '\n' := by
      simp [Exposition.addUnitLabel]
    rw [Answer.chunks, hbody, List.append_assoc, List.append_assoc,
      readLines_lines_append hended, hout, hown t]
    cases TextFormat.readLines F (TextFormat.lines t) <;> simp

/-! ## All units -/

theorem exists_answers (hF : TakesOwn F) : ∀ {as : List (Answer × List Entry)},
    (∀ a ∈ as, Says F a.1 a.2) → ∃ outs : List (List Entry),
      List.Forall₂ (fun a out => List.Forall₂ (LabelledAs a.1.name) (a.1.entries a.2) out) as outs
        ∧ TextFormat.readLines F (TextFormat.lines ((as.map Prod.fst).flatMap Answer.chunks))
          = some outs.flatten
  | [], _ => ⟨[], .nil, rfl⟩
  | (a, doc) :: as, h => by
    obtain ⟨ha, has⟩ := List.forall_mem_cons.1 h
    obtain ⟨outs, houts, hread⟩ := exists_answers hF has
    obtain ⟨out, hout, hchunks⟩ := exists_chunks hF ha
    refine ⟨out :: outs, .cons hout houts, ?_⟩
    rw [List.map_cons, List.flatMap_cons, hchunks, hread]
    rfl

theorem readLines_header (hF : TakesOwn F) :
    TextFormat.readLines F EXPOSITION_HEADER = some (EXPOSITION_HEADER.map .comment) := by
  have hcomment : ∀ t, F.isComment ('#' :: t) = true →
      TextFormat.readLine F ('#' :: t) = some (some (.comment ('#' :: t))) := by
    intro t ht
    have hrun : TextFormat.Reader.start.run ('#' :: t) = ⟨[], [], .comment ('#' :: t)⟩ := by
      rw [TextFormat.Reader.run_cons]
      exact TextFormat.Reader.run_comment [] [] ['#'] t
    rw [TextFormat.readLine, hrun]
    simp [TextFormat.Reader.finish, ht]
  have hall : ∀ ls : List Text, (∀ l ∈ ls, F.isComment l = true ∧ l.head? = some '#') →
      TextFormat.readLines F ls = some (ls.map .comment) := by
    intro ls
    induction ls with
    | nil => exact fun _ => rfl
    | cons l ls ih =>
      intro h
      obtain ⟨⟨hl, hhash⟩, hls⟩ := List.forall_mem_cons.1 h
      obtain ⟨t, rfl⟩ := List.head?_eq_some_iff.1 hhash
      rw [TextFormat.readLines, hcomment t hl, ih hls]
      rfl
  refine hall _ fun l hl => ⟨hF.comments l hl, ?_⟩
  simp only [EXPOSITION_HEADER, List.mem_cons, List.not_mem_nil, or_false] at hl
  rcases hl with rfl | rfl | rfl | rfl <;> rfl

/-! ## Series -/

/-- The label that says whose the sample is. -/
def OwnedBy (u : Text) (e : Entry) : Prop :=
  ∀ s, e = .sample s → (unitKey, u) ∈ s.labels ∧ ∀ l ∈ s.labels, l.1 = unitKey → l.2 = u

theorem ownedBy_of_labelled {u : Text} {e e' : Entry} (h : LabelledAs u e e')
    (hunit : ∀ s, e = .sample s → ∀ l ∈ s.labels, l.1 ≠ unitKey) : OwnedBy u e' := by
  rintro t rfl
  rcases e with _ | s
  · exact h.elim
  · obtain ⟨-, -, -, hperm⟩ := h
    exact ⟨hperm.mem_iff.2 List.mem_cons_self, Exposition.eq_unit_of_perm (hunit s rfl) hperm⟩

theorem apart_of_owned {u u' : Text} (hne : u ≠ u') {e e' : Entry} (h : OwnedBy u e)
    (h' : OwnedBy u' e') : ¬ e.SameSeries e' := by
  rcases e with _ | s
  · exact id
  rcases e' with _ | t
  · exact id
  rintro ⟨-, hperm⟩
  obtain ⟨hmem, -⟩ := h s rfl
  obtain ⟨-, hunit⟩ := h' t rfl
  exact hne (hunit _ (hperm.mem_iff.1 hmem) rfl)

theorem pairwise_of_labelled {u : Text} {doc out : List Entry}
    (h : List.Forall₂ (LabelledAs u) doc out) (hdoc : doc.Pairwise fun a b => ¬ a.SameSeries b) :
    out.Pairwise fun a b => ¬ a.SameSeries b := by
  induction h with
  | nil => exact .nil
  | @cons a a' as as' ha has ih =>
    rw [List.pairwise_cons] at hdoc ⊢
    refine ⟨fun b' hb' hsame => ?_, ih hdoc.2⟩
    obtain ⟨b, hb, hbb⟩ := Exposition.exists_mem_of_forall₂ has hb'
    exact hdoc.1 b hb (Exposition.sameSeries_of_labelled ha hbb hsame)

/-- No two samples of one unit are of one series. -/
theorem pairwise_entries (h : Says F a doc) {out : List Entry}
    (hout : List.Forall₂ (LabelledAs a.name) (a.entries doc) out) :
    out.Pairwise fun a b => ¬ a.SameSeries b := by
  refine pairwise_of_labelled hout (List.pairwise_append.2 ⟨?_, ?_, ?_⟩)
  · rcases hbody : a.body with _ | body
    · rw [h.silent hbody]
      exact .nil
    · obtain ⟨-, -, hvalid⟩ := TextFormat.read_eq_some.1 (h.read body hbody)
      exact hvalid.distinct
  · rw [List.pairwise_pair]
    exact fun hsame => absurd (show UP = COLLECT_DURATION from hsame.1) (by decide)
  · intro e he e' he'
    rcases e with _ | s
    · exact id
    · obtain ⟨hup, hduration⟩ := h.foreign s he
      rcases List.mem_cons.1 he' with rfl | he'
      · exact fun hsame => hup hsame.1
      · rw [List.mem_singleton] at he'
        subst he'
        exact fun hsame => hduration hsame.1

theorem owned_entries (h : Says F a doc) {out : List Entry}
    (hout : List.Forall₂ (LabelledAs a.name) (a.entries doc) out) :
    ∀ e ∈ out, OwnedBy a.name e := by
  intro e' he'
  obtain ⟨e, he, hlabelled⟩ := Exposition.exists_mem_of_forall₂ hout he'
  refine ownedBy_of_labelled hlabelled ?_
  rintro s rfl
  rcases List.mem_append.1 he with he | he
  · exact h.unlabelled s he
  · simp only [List.mem_cons, Entry.sample.injEq, List.not_mem_nil, or_false] at he
    rcases he with rfl | rfl <;> exact List.forall_mem_nil _

theorem pairwise_outs : ∀ {as : List (Answer × List Entry)} {outs : List (List Entry)},
    (∀ a ∈ as, Says F a.1 a.2) → (as.map fun a => a.1.name).Nodup →
      List.Forall₂ (fun a out => List.Forall₂ (LabelledAs a.1.name) (a.1.entries a.2) out) as outs →
        outs.flatten.Pairwise fun a b => ¬ a.SameSeries b
  | [], _, _, _, .nil => .nil
  | (a, doc) :: as, out :: outs, h, hnames, .cons hout houts => by
    obtain ⟨ha, has⟩ := List.forall_mem_cons.1 h
    obtain ⟨hnew, hnames⟩ := List.nodup_cons.1 hnames
    rw [List.flatten_cons]
    refine List.pairwise_append.2 ⟨pairwise_entries ha hout, pairwise_outs has hnames houts, ?_⟩
    intro e he e' he'
    obtain ⟨out', hout', he'⟩ := List.mem_flatten.1 he'
    obtain ⟨b, hb, hlabelled⟩ := Exposition.exists_mem_of_forall₂ houts hout'
    have hne : a.name ≠ b.1.name := fun heq => hnew (List.mem_map.2 ⟨b, hb, heq.symm⟩)
    exact apart_of_owned hne (owned_entries ha hout e he)
      (owned_entries (has b hb) hlabelled e' he')

theorem getLast_collectMetrics : ∀ (p : Text) (answers : List Answer),
    p.getLast?.getD '\n' = '\n' →
      (p ++ answers.flatMap Answer.chunks).getLast?.getD '\n' = '\n'
  | p, [], h => by simpa using h
  | p, a :: answers, _ => by
    rw [List.flatMap_cons, ← List.append_assoc]
    refine getLast_collectMetrics _ answers ?_
    have hlast : (ownLine COLLECT_DURATION a.name (fixed3 a.elapsed)).getLast? = some '\n' :=
      List.getLast?_concat
    rw [Answer.chunks, ← List.append_assoc, List.getLast?_append, hlast]
    rfl

/-- Whatever the units answer, the merged document is read as the header and every unit's entries
under its own label; where no two units share a name, no two of its samples are of one series. -/
theorem collect_metrics_reads (hF : TakesOwn F) {as : List (Answer × List Entry)}
    (h : ∀ a ∈ as, Says F a.1 a.2) :
    ∃ doc, TextFormat.readLines F (TextFormat.lines (collectMetrics (as.map Prod.fst))) = some doc
      ∧ Merged as doc
      ∧ ((as.map fun a => a.1.name).Nodup → doc.Pairwise fun a b => ¬ a.SameSeries b)
      ∧ (collectMetrics (as.map Prod.fst)).getLast?.getD '\n' = '\n' := by
  obtain ⟨outs, houts, hread⟩ := exists_answers hF h
  have hheader : ∀ l ∈ EXPOSITION_HEADER, '\n' ∉ l := by
    simp only [EXPOSITION_HEADER, List.forall_mem_cons]
    decide
  refine ⟨_, ?_, ⟨outs, houts, rfl⟩, fun hnames => ?_, getLast_collectMetrics _ _ rfl⟩
  · rw [collectMetrics, lines_append _ hheader, TextFormat.readLines_append, readLines_header hF,
      hread]
    rfl
  · refine List.pairwise_append.2 ⟨?_, pairwise_outs h hnames houts, ?_⟩
    · exact List.pairwise_map.2 (List.pairwise_of_forall fun _ _ => id)
    · rintro e he e' -
      obtain ⟨l, -, rfl⟩ := List.mem_map.1 he
      exact id

theorem takesOwn_plainWords : TakesOwn Exposition.plainWords where
  zero := rfl
  one := rfl
  duration n := by
    have hdigit : ∀ d < 10, TextFormat.isPlain (Nat.digitChar d) = true := by decide
    have htext : ∀ c ∈ Nat.toDigits 10 (n / 1000), TextFormat.isPlain c = true := by
      intro c hc
      have hc' := Nat.isDigit_of_mem_toDigits (by omega) (by omega) hc
      simp [TextFormat.isPlain, Char.isAlphanum, hc']
    have hall : (fixed3 n).all TextFormat.isPlain = true := by
      rw [List.all_eq_true, fixed3, List.forall_mem_append]
      refine ⟨htext, ?_⟩
      simp only [List.forall_mem_cons]
      exact ⟨rfl, hdigit _ (by omega), hdigit _ (by omega), hdigit _ (by omega),
        List.forall_mem_nil _⟩
    show (fixed3 n ≠ [] && (fixed3 n).all TextFormat.isPlain) = true
    simp [hall, fixed3_ne_nil]
  comments _ _ := rfl

def lab : Answer := ⟨"lab".toList, some "load 1\n".toList, 1500⟩

def labEntries : List Entry := [.sample ⟨"load".toList, [], ['1'], none⟩]

/-- It did not answer. -/
def rack : Answer := ⟨"rack".toList, none, 45000⟩

theorem lab_printed : Says Exposition.plainWords lab labEntries where
  literal := by decide
  silent h := by cases h
  read body h := by
    obtain rfl := Option.some.inj h
    decide +kernel
  survives body h line hline := by
    obtain rfl := Option.some.inj h
    obtain rfl : line = "load 1".toList := by
      have hlines : TextFormat.lines "load 1\n".toList = ["load 1".toList] := by decide +kernel
      rw [hlines] at hline
      exact List.mem_singleton.1 hline
    exact ⟨by simp [isLineBreak], fun _ => by decide, fun _ => by decide, fun _ => by
      decide +kernel⟩
  unlabelled s h := by
    rw [labEntries, List.mem_singleton, Entry.sample.injEq] at h
    subst h
    exact List.forall_mem_nil _
  foreign s h := by
    rw [labEntries, List.mem_singleton, Entry.sample.injEq] at h
    subst h
    decide

theorem rack_printed : Says Exposition.plainWords rack [] where
  literal := by decide
  silent _ := rfl
  read body h := by cases h
  survives body h := by cases h
  unlabelled s h := absurd h List.not_mem_nil
  foreign s h := absurd h List.not_mem_nil

def labAndRack : List (Answer × List Entry) := [(lab, labEntries), (rack, [])]

theorem lab_and_rack_read : ∃ doc,
    TextFormat.readLines Exposition.plainWords
        (TextFormat.lines (collectMetrics (labAndRack.map Prod.fst))) = some doc
      ∧ Merged labAndRack doc
      ∧ ((labAndRack.map fun a => a.1.name).Nodup → doc.Pairwise fun a b => ¬ a.SameSeries b)
      ∧ (collectMetrics (labAndRack.map Prod.fst)).getLast?.getD '\n' = '\n' :=
  collect_metrics_reads takesOwn_plainWords
    (List.forall_mem_cons.2 ⟨lab_printed, List.forall_mem_singleton.2 rack_printed⟩)

end Scrape

end Rackphone
