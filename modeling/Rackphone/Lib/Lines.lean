import Mathlib

/-!
# Lines of a text

What splits a text into lines differs from language to language, so the characters that break a
line are a parameter. A carriage return and the line feed after it are one break, and a break at
the end of the text starts no line.
-/

namespace Lines

variable (brk space : Char → Bool)

def consHead (c : Char) : List (List Char) → List (List Char)
  | [] => [[c]]
  | l :: ls => (c :: l) :: ls

/-- The lines of a text, `cr` saying whether a carriage return just ended one. -/
def splitFrom : Bool → List Char → List (List Char)
  | _, [] => []
  | cr, c :: t =>
    if cr ∧ c = '\n' then splitFrom false t
    else if brk c then [] :: splitFrom (c = '\r') t
    else consHead c (splitFrom false t)

def split (t : List Char) : List (List Char) := splitFrom brk false t

def strip (t : List Char) : List Char := (t.dropWhile space).rdropWhile space

variable {brk space}

@[simp] theorem split_nil : split brk [] = [] := rfl

theorem split_break {l t : List Char} {b : Char} (hl : ∀ c ∈ l, brk c = false) (hb : brk b = true)
    (hr : b ≠ '\r') : split brk (l ++ b :: t) = l :: split brk t := by
  unfold split
  induction l with
  | nil => simp [splitFrom, hb, hr]
  | cons c l ih =>
    simp only [List.mem_cons, forall_eq_or_imp] at hl
    simp [splitFrom, hl.1, ih hl.2, consHead]

/-- Before its first break a text is one line. -/
theorem exists_split_cons {l t : List Char} {b : Char} (hl : ∀ c ∈ l, brk c = false)
    (hb : brk b = true) : ∃ ls, split brk (l ++ b :: t) = l :: ls := by
  unfold split
  induction l with
  | nil => exact ⟨_, by rw [List.nil_append, splitFrom, if_neg (by simp), if_pos hb]⟩
  | cons c l ih =>
    simp only [List.mem_cons, forall_eq_or_imp] at hl
    obtain ⟨ls, hls⟩ := ih hl.2
    refine ⟨ls, ?_⟩
    rw [List.cons_append, splitFrom, if_neg (by simp), if_neg (by simp [hl.1]), hls, consHead]

theorem split_of_forall {t : List Char} (hne : t ≠ []) (h : ∀ c ∈ t, brk c = false) :
    split brk t = [t] := by
  unfold split
  induction t with
  | nil => exact absurd rfl hne
  | cons c t ih =>
    simp only [List.mem_cons, forall_eq_or_imp] at h
    rw [splitFrom, if_neg (by simp), if_neg (by simp [h.1])]
    rcases t with _ | ⟨d, t⟩
    · rfl
    · rw [ih (by simp) h.2, consHead]

theorem exists_first_break (brk : Char → Bool) (t : List Char) :
    ∃ l m, t = l ++ m ∧ (∀ c ∈ l, brk c = false) ∧ (m = [] ∨ ∃ b q, m = b :: q ∧ brk b = true) := by
  refine ⟨t.takeWhile fun c => !brk c, t.dropWhile fun c => !brk c,
    List.takeWhile_append_dropWhile.symm, fun c hc => by simpa using List.mem_takeWhile_imp hc, ?_⟩
  rcases h : t.dropWhile fun c => !brk c with _ | ⟨b, q⟩
  · exact .inl rfl
  · have := List.head_dropWhile_not (fun c => !brk c) (l := t) (by simp [h])
    simp only [h, List.head_cons] at this
    exact .inr ⟨b, q, rfl, by simpa using this⟩

/-- Lines written one after the other read back one after the other. -/
theorem split_flatMap {α : Type*} {line : α → List Char} (hn : brk '\n' = true) :
    ∀ {xs : List α}, (∀ x ∈ xs, ∀ c ∈ line x, brk c = false) →
      split brk (xs.flatMap fun x => line x ++ ['\n']) = xs.map line
  | [], _ => rfl
  | x :: xs, h => by
    have hx := h x List.mem_cons_self
    rw [List.flatMap_cons, List.append_assoc, List.singleton_append, split_break hx hn (by decide),
      split_flatMap hn fun y hy => h y (List.mem_cons_of_mem _ hy), List.map_cons]

theorem splitFrom_false_ne_nil {t : List Char} (h : t ≠ []) : splitFrom brk false t ≠ [] := by
  rcases t with _ | ⟨c, t⟩
  · exact absurd rfl h
  · rw [splitFrom, if_neg (by simp)]
    split_ifs
    · exact List.cons_ne_nil _ _
    · cases splitFrom brk false t <;> exact List.cons_ne_nil _ _

/-- A line feed ends a line whatever stands before it. -/
theorem split_newline (hn : brk '\n' = true) (l t : List Char) :
    split brk (l ++ '\n' :: t) = split brk (l ++ ['\n']) ++ split brk t := by
  suffices h : ∀ cr, splitFrom brk cr (l ++ '\n' :: t) =
      splitFrom brk cr (l ++ ['\n']) ++ splitFrom brk false t from h false
  induction l with
  | nil => intro cr; cases cr <;> simp [splitFrom, hn]
  | cons c l ih =>
    intro cr
    rw [List.cons_append, List.cons_append, splitFrom, splitFrom]
    split_ifs
    · exact ih false
    · rw [ih, List.cons_append]
    · have hne : splitFrom brk false (l ++ ['\n']) ≠ [] := splitFrom_false_ne_nil (by simp)
      rw [ih]
      cases h : splitFrom brk false (l ++ ['\n']) with
      | nil => exact absurd h hne
      | cons m ms => rfl

theorem split_lines (hn : brk '\n' = true) : ∀ ls : List (List Char),
    split brk (ls.flatMap fun l => l ++ ['\n']) = ls.flatMap fun l => split brk (l ++ ['\n'])
  | [] => rfl
  | l :: ls => by
    rw [List.flatMap_cons, List.flatMap_cons, List.append_assoc, List.singleton_append,
      split_newline hn, split_lines hn ls]

theorem not_break_of_mem_split {t l : List Char} (h : l ∈ split brk t) :
    ∀ c ∈ l, brk c = false := by
  suffices hall : ∀ cr, ∀ l ∈ splitFrom brk cr t, ∀ c ∈ l, brk c = false from hall false l h
  clear h
  induction t with
  | nil => intro cr l hl; cases hl
  | cons d t ih =>
    intro cr l hl
    rw [splitFrom] at hl
    split_ifs at hl with hcr hd
    · exact ih false l hl
    · obtain rfl | hl := List.mem_cons.1 hl
      · exact fun c hc => absurd hc List.not_mem_nil
      · exact ih _ l hl
    · have hd : brk d = false := by simpa using hd
      cases hs : splitFrom brk false t with
      | nil =>
        rw [hs, consHead, List.mem_singleton] at hl
        subst hl
        simpa using hd
      | cons m ms =>
        rw [hs, consHead] at hl
        have hin := ih false
        rw [hs] at hin
        obtain rfl | hl := List.mem_cons.1 hl
        · exact List.forall_mem_cons.2 ⟨hd, hin m List.mem_cons_self⟩
        · exact hin l (List.mem_cons_of_mem _ hl)

theorem dropWhile_append_cons {a t : List Char} {c : Char} (hc : space c = false) :
    (a ++ c :: t).dropWhile space = a.dropWhile space ++ c :: t := by
  induction a with
  | nil => simp [hc]
  | cons d a ih =>
    rw [List.cons_append, List.dropWhile_cons, List.dropWhile_cons, ih]
    split <;> rfl

theorem rdropWhile_append_cons {a t : List Char} {c : Char} (hc : space c = false) :
    (a ++ c :: t).rdropWhile space = a ++ c :: t.rdropWhile space := by
  have h : (a ++ c :: t).reverse = t.reverse ++ c :: a.reverse := by simp
  rw [List.rdropWhile, h, dropWhile_append_cons hc]
  simp [List.rdropWhile]

theorem strip_append_cons {a t : List Char} {c : Char} (hc : space c = false) :
    strip space (a ++ c :: t) = a.dropWhile space ++ c :: t.rdropWhile space := by
  rw [strip, dropWhile_append_cons hc, rdropWhile_append_cons hc]

theorem strip_eq_self {c d : Char} {t : List Char} (hc : space c = false) (hd : space d = false) :
    strip space (c :: (t ++ [d])) = c :: (t ++ [d]) := by
  have h := strip_append_cons (a := []) (t := t ++ [d]) hc
  rwa [List.rdropWhile_concat_neg _ _ _ (by simp [hd])] at h

theorem strip_of_forall {t : List Char} (h : ∀ c ∈ t, space c = false) : strip space t = t := by
  have hdrop : t.dropWhile space = t := by
    rw [List.dropWhile_eq_self_iff]
    intro hne
    simpa using h _ (List.getElem_mem hne)
  rw [strip, hdrop, List.rdropWhile_eq_self_iff]
  intro hne
  simpa using h _ (List.getLast_mem hne)

theorem strip_sublist (t : List Char) : (strip space t).Sublist t :=
  (List.rdropWhile_prefix space (t.dropWhile space)).sublist.trans (List.dropWhile_sublist space)

@[simp] theorem strip_strip (t : List Char) : strip space (strip space t) = strip space t := by
  cases h : t.dropWhile space with
  | nil => simp [strip, h]
  | cons c u =>
    have hne : t.dropWhile space ≠ [] := by simp [h]
    have hc : space c = false := by
      have := List.head_dropWhile_not space hne
      simpa [h] using this
    have hstrip : strip space t = c :: u.rdropWhile space := by
      rw [strip, h]
      exact rdropWhile_append_cons (a := []) hc
    rw [hstrip]
    have hagain := strip_append_cons (a := []) (t := u.rdropWhile space) hc
    rwa [List.rdropWhile_idempotent] at hagain

/-- Lines joined with a line feed, and one at the end. -/
theorem intercalate_append {α : Type*} (line : α → List Char) : ∀ {xs : List α}, xs ≠ [] →
    ['\n'].intercalate (xs.map line) ++ ['\n'] = xs.flatMap fun x => line x ++ ['\n']
  | [x], _ => by simp [List.intercalate]
  | x :: y :: xs, _ => by
    have ih : ['\n'].intercalate ((y :: xs).map line) ++ ['\n'] = _ :=
      intercalate_append line (by simp)
    rw [List.flatMap_cons, ← ih]
    simp [List.intercalate]

end Lines
