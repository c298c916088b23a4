import Rackphone.Lib.Lines

/-!
# The text format of metrics

A document is lines, each ended by a line feed: a blank one, a comment, or a sample with its labels
in braces, its value and perhaps a timestamp, with blanks and tabs wherever two of these meet. A
line is read a character at a time. How numbers are spelt, what a comment says, and which comments
and metrics may follow which are parameters.
-/

namespace TextFormat

def isSep (c : Char) : Bool := c = ' ' ∨ c = '\t'

theorem isSep_iff {c : Char} : isSep c = true ↔ c = ' ' ∨ c = '\t' := decide_eq_true_iff

def isKeyStart (c : Char) : Bool := c.isAlpha || c = '_'

def isKeyChar (c : Char) : Bool := isKeyStart c || c.isDigit

def isNameStart (c : Char) : Bool := isKeyStart c || c = ':'

def isNameChar (c : Char) : Bool := isNameStart c || c.isDigit

/-- What numbers are spelt with. -/
def isPlain (c : Char) : Bool := c.isAlphanum || c = '+' || c = '-' || c = '.' || c = '_'

theorem toNat_of_isAlphanum {c : Char} (h : c.isAlphanum = true) :
    43 ≤ c.toNat ∧ c.toNat ≤ 122 := by
  simp only [Char.isAlphanum, Char.isAlpha, Char.isUpper, Char.isLower, Char.isDigit,
    Bool.or_eq_true, Bool.and_eq_true, decide_eq_true_eq, UInt32.le_iff_toNat_le] at h
  show 43 ≤ c.val.toNat ∧ c.val.toNat ≤ 122
  obtain (h | h) | h := h
  all_goals exact ⟨le_trans (by decide) h.1, le_trans h.2 (by decide)⟩

theorem toNat_of_isPlain {c : Char} (h : isPlain c = true) : 43 ≤ c.toNat ∧ c.toNat ≤ 122 := by
  simp only [isPlain, Bool.or_eq_true, decide_eq_true_eq] at h
  obtain (((h | rfl) | rfl) | rfl) | rfl := h
  · exact toNat_of_isAlphanum h
  all_goals decide

theorem toNat_of_isNameChar {c : Char} (h : isNameChar c = true) :
    43 ≤ c.toNat ∧ c.toNat ≤ 122 := by
  simp only [isNameChar, isNameStart, isKeyStart, Bool.or_eq_true, decide_eq_true_eq] at h
  obtain ((h | rfl) | rfl) | h := h
  · exact toNat_of_isAlphanum (by simp [Char.isAlphanum, h])
  · decide
  · decide
  · exact toNat_of_isAlphanum (by simp [Char.isAlphanum, h])

structure Format where
  isValue : List Char → Bool
  isTimestamp : List Char → Bool
  isComment : List Char → Bool
  /-- The comments and the metrics' names, in the order they stand in. -/
  isOrderly : List (List Char ⊕ List Char) → Bool
  value_plain : ∀ v, isValue v → ∀ c ∈ v, isPlain c
  timestamp_plain : ∀ t, isTimestamp t → ∀ c ∈ t, isPlain c

/-- A name and a decoded value. -/
abbrev Label := List Char × List Char

structure Sample where
  name : List Char
  labels : List Label
  value : List Char
  timestamp : Option (List Char)
deriving DecidableEq

inductive Entry where
  | comment (text : List Char)
  | sample (s : Sample)
deriving DecidableEq

/-! ## Reading a line -/

inductive Phase where
  | start
  | comment (text : List Char)
  | name
  | named
  | opened
  | key (k : List Char)
  | keyed (k : List Char)
  | equals (k : List Char)
  | quoted (k v : List Char)
  | escaped (k v : List Char)
  | closed
  | tail (text : List Char)
  | failed
deriving DecidableEq

/-- Between the braces of a sample. -/
def Phase.isInside : Phase → Bool
  | .opened | .key _ | .keyed _ | .equals _ | .quoted _ _ | .escaped _ _ | .closed => true
  | .start | .comment _ | .name | .named | .tail _ | .failed => false

/-- Past a sample's name and labels. -/
def Phase.isSettled : Phase → Bool
  | .comment _ | .tail _ | .failed => true
  | _ => false

def Phase.isResting : Phase → Bool
  | .opened | .closed | .quoted _ _ => true
  | _ => false

structure Reader where
  name : List Char
  labels : List Label
  phase : Phase
deriving DecidableEq

def unescape (c : Char) : Option Char :=
  if c = '\\' then some '\\' else if c = '"' then some '"' else if c = 'n' then some '\n' else none

namespace Reader

def start : Reader := ⟨[], [], .start⟩

def enter (r : Reader) (p : Phase) : Reader := { r with phase := p }

def stepNamed (r : Reader) (c : Char) : Reader :=
  if isSep c then r.enter .named
  else if c = '{' then r.enter .opened
  else r.enter (.tail [c])

def stepKeyed (r : Reader) (k : List Char) (c : Char) : Reader :=
  if isSep c then r.enter (.keyed k)
  else if c = '=' then r.enter (.equals k)
  else r.enter .failed

def step (r : Reader) (c : Char) : Reader :=
  match r.phase with
  | .start =>
    if isSep c then r
    else if c = '#' then r.enter (.comment [c])
    else if isNameStart c then ⟨[c], r.labels, .name⟩
    else r.enter .failed
  | .comment t => r.enter (.comment (t ++ [c]))
  | .name => if isNameChar c then { r with name := r.name ++ [c] } else r.stepNamed c
  | .named => r.stepNamed c
  | .opened =>
    if isSep c then r
    else if c = '}' then r.enter (.tail [])
    else if isKeyStart c then r.enter (.key [c])
    else r.enter .failed
  | .key k => if isKeyChar c then r.enter (.key (k ++ [c])) else r.stepKeyed k c
  | .keyed k => r.stepKeyed k c
  | .equals k =>
    if isSep c then r
    else if c = '"' then r.enter (.quoted k [])
    else r.enter .failed
  | .quoted k v =>
    if c = '"' then ⟨r.name, r.labels ++ [(k, v)], .closed⟩
    else if c = '\\' then r.enter (.escaped k v)
    else r.enter (.quoted k (v ++ [c]))
  | .escaped k v =>
    match unescape c with
    | some d => r.enter (.quoted k (v ++ [d]))
    | none => r.enter .failed
  | .closed =>
    if isSep c then r
    else if c = ',' then r.enter .opened
    else if c = '}' then r.enter (.tail [])
    else r.enter .failed
  | .tail t => r.enter (.tail (t ++ [c]))
  | .failed => r

def run (r : Reader) (t : List Char) : Reader := t.foldl step r

end Reader

def words (t : List Char) : List (List Char) := (t.splitOnP isSep).filter (· ≠ [])

/-- A value and perhaps a timestamp. -/
def measure (F : Format) (t : List Char) : Option (List Char × Option (List Char)) :=
  match words t with
  | [v] => if F.isValue v then some (v, none) else none
  | [v, s] => if F.isValue v ∧ F.isTimestamp s then some (v, some s) else none
  | _ => none

/-- What a whole line says, nothing where it is blank. -/
def Reader.finish (F : Format) (r : Reader) : Option (Option Entry) :=
  match r.phase with
  | .start => some none
  | .comment t => if F.isComment t then some (some (.comment t)) else none
  | .tail t =>
    if (r.labels.map Prod.fst).Nodup then
      (measure F t).map fun m => some (.sample ⟨r.name, r.labels, m.1, m.2⟩)
    else none
  | _ => none

def readLine (F : Format) (line : List Char) : Option (Option Entry) :=
  (Reader.start.run line).finish F

/-! ## Reading a document -/

def readLines (F : Format) : List (List Char) → Option (List Entry)
  | [] => some []
  | line :: lines => do
    let entry ← readLine F line
    let entries ← readLines F lines
    return entry.toList ++ entries

def lines (t : List Char) : List (List Char) := Lines.split (· == '\n') t

def Entry.outline : Entry → List Char ⊕ List Char
  | .comment text => .inl text
  | .sample s => .inr s.name

/-- Two samples of one metric with the same labels. -/
def Entry.SameSeries : Entry → Entry → Prop
  | .sample s, .sample t => s.name = t.name ∧ s.labels.Perm t.labels
  | _, _ => False

instance : DecidableRel Entry.SameSeries
  | .sample s, .sample t => inferInstanceAs (Decidable (s.name = t.name ∧ s.labels.Perm t.labels))
  | .comment _, _ => isFalse fun h => h
  | .sample _, .comment _ => isFalse fun h => h

structure Valid (F : Format) (doc : List Entry) : Prop where
  orderly : F.isOrderly (doc.map Entry.outline) = true
  distinct : doc.Pairwise fun a b => ¬ a.SameSeries b

instance (F : Format) (doc : List Entry) : Decidable (Valid F doc) :=
  decidable_of_iff (F.isOrderly (doc.map Entry.outline) = true
      ∧ doc.Pairwise fun a b => ¬ a.SameSeries b)
    ⟨fun h => ⟨h.1, h.2⟩, fun h => ⟨h.1, h.2⟩⟩

/-- A whole document; the last line must be ended as well. -/
def read (F : Format) (t : List Char) : Option (List Entry) := do
  let doc ← readLines F (lines t)
  if t.getLast?.getD '\n' = '\n' ∧ Valid F doc then return doc else none

/-- A quoted value, decoded, and the text after its closing quote. -/
def unquote : List Char → Option (List Char × List Char)
  | [] => none
  | [c] => if c = '"' then some ([], []) else none
  | c :: d :: t =>
    if c = '"' then some ([], d :: t)
    else if c = '\\' then do
      let e ← unescape d
      let m ← unquote t
      return (e :: m.1, m.2)
    else (unquote (d :: t)).map fun m => (c :: m.1, m.2)

/-- Text that stands for itself between quotes. -/
def IsLiteral (u : List Char) : Prop := '"' ∉ u ∧ '\\' ∉ u

instance (u : List Char) : Decidable (IsLiteral u) := inferInstanceAs (Decidable (_ ∧ _))

/-- A character that ends no word of the format and begins none. -/
def isQuiet (c : Char) : Bool :=
  !isNameChar c && c != '{' && c != '}' && c != '=' && c != ',' && c != '"' && c != '\\'

/-! ## What a reader goes through -/

namespace Reader

variable {r : Reader} {n k v : List Char} {ls : List Label} {c : Char} {s t : List Char}

theorem run_append (r : Reader) (s t : List Char) : r.run (s ++ t) = (r.run s).run t :=
  List.foldl_append

theorem run_cons (r : Reader) (c : Char) (t : List Char) : r.run (c :: t) = (r.step c).run t := rfl

/-- The same reader with more labels before those it has read. -/
def under (pre : List Label) (r : Reader) : Reader := { r with labels := pre ++ r.labels }

theorem step_under (pre : List Label) (r : Reader) (c : Char) :
    (r.under pre).step c = (r.step c).under pre := by
  obtain ⟨n, ls, p⟩ := r
  cases p with
  | escaped k v => simp only [step, under]; cases unescape c <;> rfl
  | _ => simp only [step, under, stepNamed, stepKeyed, enter] <;> split_ifs <;> simp

theorem run_under (pre : List Label) (r : Reader) (t : List Char) :
    (r.under pre).run t = (r.run t).under pre := by
  induction t generalizing r with
  | nil => rfl
  | cons c t ih => rw [run_cons, run_cons, step_under, ih]

/-- What has been read before plays no part in what is read next. -/
theorem run_labels (n : List Char) (ls : List Label) (p : Phase) (t : List Char) :
    run ⟨n, ls, p⟩ t = (run ⟨n, [], p⟩ t).under ls := by
  rw [← run_under]
  simp [under]

theorem run_tail (n : List Char) (ls : List Label) (s t : List Char) :
    run ⟨n, ls, .tail s⟩ t = ⟨n, ls, .tail (s ++ t)⟩ := by
  induction t generalizing s with
  | nil => simp [run]
  | cons c t ih => rw [run_cons, step]; simp [enter, ih]

theorem run_comment (n : List Char) (ls : List Label) (s t : List Char) :
    run ⟨n, ls, .comment s⟩ t = ⟨n, ls, .comment (s ++ t)⟩ := by
  induction t generalizing s with
  | nil => simp [run]
  | cons c t ih => rw [run_cons, step]; simp [enter, ih]

theorem run_failed (n : List Char) (ls : List Label) (t : List Char) :
    run ⟨n, ls, .failed⟩ t = ⟨n, ls, .failed⟩ := by
  induction t with
  | nil => rfl
  | cons c t ih => rw [run_cons, step, ih]

theorem run_of_failed (h : r.phase = .failed) (t : List Char) : r.run t = r := by
  obtain ⟨n, ls, p⟩ := r
  subst h
  exact run_failed n ls t

theorem run_settled (h : r.phase.isSettled = true) (t : List Char) :
    (r.run t).phase.isSettled = true := by
  obtain ⟨n, ls, p⟩ := r
  cases p with
  | comment s => rw [run_comment]; rfl
  | tail s => rw [run_tail]; rfl
  | failed => rw [run_failed]; rfl
  | _ => simp [Phase.isSettled] at h

theorem exists_tail (h : r.phase.isSettled = true) (ht : (r.run s).phase = .tail t) :
    ∃ u, r.phase = .tail u ∧ t = u ++ s := by
  obtain ⟨n, ls, p⟩ := r
  cases p with
  | comment u => simp [run_comment] at ht
  | tail u =>
    rw [run_tail, Phase.tail.injEq] at ht
    exact ⟨u, rfl, ht.symm⟩
  | failed => simp [run_failed] at ht
  | _ => simp [Phase.isSettled] at h

theorem run_name (hn : ∀ c ∈ s, isNameChar c = true) (n : List Char) (ls : List Label)
    (t : List Char) : run ⟨n, ls, .name⟩ (s ++ t) = run ⟨n ++ s, ls, .name⟩ t := by
  induction s generalizing n with
  | nil => simp
  | cons c s ih =>
    simp only [List.mem_cons, forall_eq_or_imp] at hn
    rw [List.cons_append, run_cons, step, if_pos hn.1, ih hn.2]
    simp

/-- Blanks before a line are passed over. -/
theorem run_start_seps (hs : ∀ c ∈ s, isSep c = true) (t : List Char) :
    start.run (s ++ t) = start.run t := by
  induction s with
  | nil => rfl
  | cons c s ih =>
    simp only [List.mem_cons, forall_eq_or_imp] at hs
    rw [List.cons_append, run_cons, step, start]
    simp only [hs.1, ↓reduceIte]
    exact ih hs.2

/-- A name is read from its first letter on. -/
theorem run_start_name {a : Char} (ha : isNameStart a = true) (hs : ∀ c ∈ s, isNameChar c = true)
    (t : List Char) : start.run (a :: s ++ t) = run ⟨a :: s, [], .name⟩ t := by
  have hsep : isSep a = false := by
    by_contra h
    obtain rfl | rfl := isSep_iff.1 (by simpa using h) <;> exact absurd ha (by decide)
  have hhash : a ≠ '#' := by
    rintro rfl
    exact absurd ha (by decide)
  rw [List.cons_append, run_cons, step, start]
  simp only [hsep, hhash, ha, Bool.false_eq_true, ↓reduceIte]
  exact run_name hs [a] [] t

/-! ### Quotes -/

theorem unquote_quote (t : List Char) : unquote ('"' :: t) = some ([], t) := by
  cases t <;> simp [unquote]

theorem unquote_escape (d : Char) (t : List Char) :
    unquote ('\\' :: d :: t) = do
      let e ← unescape d
      let m ← unquote t
      return (e :: m.1, m.2) := by
  simp [unquote]

theorem unquote_cons (hq : c ≠ '"') (he : c ≠ '\\') (t : List Char) :
    unquote (c :: t) = (unquote t).map fun m => (c :: m.1, m.2) := by
  cases t <;> simp [unquote, hq, he]

@[elab_as_elim]
theorem unquote_induction {motive : List Char → Prop} (nil : motive [])
    (quote : ∀ t, motive ('"' :: t)) (cut : motive ['\\'])
    (escape : ∀ d t, motive t → motive ('\\' :: d :: t))
    (plain : ∀ c t, c ≠ '"' → c ≠ '\\' → motive t → motive (c :: t)) : ∀ t, motive t
  | [] => nil
  | [c] => by
    by_cases hq : c = '"'
    · exact hq ▸ quote []
    by_cases he : c = '\\'
    · exact he ▸ cut
    · exact plain c [] hq he nil
  | c :: d :: t => by
    by_cases hq : c = '"'
    · exact hq ▸ quote (d :: t)
    by_cases he : c = '\\'
    · exact he ▸ escape d t (unquote_induction nil quote cut escape plain t)
    · exact plain c (d :: t) hq he (unquote_induction nil quote cut escape plain (d :: t))

theorem run_escape (n : List Char) (ls : List Label) (k v : List Char) (d : Char) (t : List Char) :
    run ⟨n, ls, .quoted k v⟩ ('\\' :: d :: t) =
      match unescape d with
      | some e => run ⟨n, ls, .quoted k (v ++ [e])⟩ t
      | none => ⟨n, ls, .failed⟩ := by
  rw [run_cons, run_cons]
  simp only [step, enter, Char.reduceEq, ↓reduceIte]
  cases unescape d with
  | some e => rfl
  | none => exact run_failed n ls t

theorem run_quoted_cons (n : List Char) (ls : List Label) (k v : List Char) (hq : c ≠ '"')
    (he : c ≠ '\\') (t : List Char) :
    run ⟨n, ls, .quoted k v⟩ (c :: t) = run ⟨n, ls, .quoted k (v ++ [c])⟩ t := by
  rw [run_cons, step]
  simp [enter, hq, he]

/-- A quoted value that is closed. -/
theorem run_quoted {x m : List Char} (n : List Char) (ls : List Label) (k v : List Char)
    (h : unquote t = some (x, m)) :
    run ⟨n, ls, .quoted k v⟩ t = run ⟨n, ls ++ [(k, v ++ x)], .closed⟩ m := by
  induction t using unquote_induction generalizing v x with
  | nil => simp [unquote] at h
  | quote t =>
    rw [unquote_quote] at h
    cases h
    rw [run_cons, step]
    simp
  | cut => simp [unquote] at h
  | escape d t ih =>
    rw [unquote_escape] at h
    simp only [Option.bind_eq_bind, Option.bind_eq_some_iff, Option.pure_def] at h
    obtain ⟨e, he, y, hy, heq⟩ := h
    cases heq
    rw [run_escape, he]
    dsimp only
    rw [ih _ hy, List.append_assoc, List.singleton_append]
  | plain c t hq he ih =>
    rw [unquote_cons hq he] at h
    obtain ⟨y, hy, heq⟩ := Option.map_eq_some_iff.1 h
    cases heq
    rw [run_quoted_cons n ls k v hq he, ih _ hy, List.append_assoc, List.singleton_append]

/-- Where the closing quote is missing there is no sample. -/
theorem run_quoted_none (n : List Char) (ls : List Label) (k v : List Char)
    (h : unquote t = none) (F : Format) : (run ⟨n, ls, .quoted k v⟩ t).finish F = none := by
  induction t using unquote_induction generalizing v with
  | nil => rfl
  | quote t => simp [unquote_quote] at h
  | cut => simp [run, step, enter, finish]
  | escape d t ih =>
    rw [unquote_escape] at h
    rw [run_escape]
    cases he : unescape d with
    | none => rfl
    | some e =>
      refine ih _ ?_
      cases hy : unquote t with
      | none => rfl
      | some y => simp [he, hy] at h
  | plain c t hq he ih =>
    rw [unquote_cons hq he] at h
    rw [run_quoted_cons n ls k v hq he]
    exact ih _ (Option.map_eq_none_iff.1 h)

theorem unquote_literal {u : List Char} (hu : IsLiteral u) (t : List Char) :
    unquote (u ++ '"' :: t) = some (u, t) := by
  induction u with
  | nil => exact unquote_quote t
  | cons c u ih =>
    simp only [IsLiteral, List.mem_cons, not_or] at hu
    rw [List.cons_append, unquote_cons (Ne.symm hu.1.1) (Ne.symm hu.2.1), ih ⟨hu.1.2, hu.2.2⟩]
    rfl

theorem eq_of_unescape {d : Char} (h : unescape d = some '\\') : d = '\\' := by
  unfold unescape at h
  split_ifs at h with h₁ h₂ h₃
  · exact h₁
  · simp at h
  · simp at h

/-- What is left of some text falls ever farther behind the backslashes it began with. -/
theorem unquote_ne_lag {u : List Char} (j : ℕ) {x m : List Char}
    (h : unquote (u ++ '"' :: t) = some (x, m)) : x ≠ List.replicate (j + 1) '\\' ++ u := by
  rintro rfl
  induction u using unquote_induction generalizing j with
  | nil => simp [unquote_quote] at h
  | quote u => simp [unquote_quote] at h
  | cut =>
    rw [List.cons_append, List.nil_append, unquote_escape, List.replicate_succ] at h
    cases hy : unquote t <;> simp [unescape, hy] at h
  | escape d u ih =>
    rw [List.cons_append, List.cons_append, unquote_escape, List.replicate_succ] at h
    simp only [Option.bind_eq_bind, Option.bind_eq_some_iff, Option.pure_def, List.cons_append,
      Option.some.injEq, Prod.mk.injEq, List.cons.injEq] at h
    obtain ⟨e, he, y, hy, ⟨rfl, hrest⟩, rfl⟩ := h
    have hd := eq_of_unescape he
    refine ih (j + 1) ?_
    rw [hy, show y = (y.1, y.2) from rfl, hrest, hd, List.replicate_succ', List.replicate_succ']
    simp
  | plain c u hq he ih =>
    rw [List.cons_append, unquote_cons hq he, List.replicate_succ] at h
    simp [he] at h

/-- Between quotes only literal text reads as itself. -/
theorem isLiteral_of_unquote {u m : List Char} (h : unquote (u ++ '"' :: t) = some (u, m)) :
    IsLiteral u := by
  induction u using unquote_induction with
  | nil => exact ⟨List.not_mem_nil, List.not_mem_nil⟩
  | quote u => simp [unquote_quote] at h
  | cut =>
    rw [List.cons_append, List.nil_append, unquote_escape] at h
    cases hy : unquote t <;> simp [unescape, hy] at h
  | escape d u ih =>
    rw [List.cons_append, List.cons_append, unquote_escape] at h
    simp only [Option.bind_eq_bind, Option.bind_eq_some_iff, Option.pure_def, Option.some.injEq,
      Prod.mk.injEq, List.cons.injEq] at h
    obtain ⟨e, he, y, hy, ⟨rfl, hrest⟩, rfl⟩ := h
    have hd := eq_of_unescape he
    exact absurd (by simp [hrest, hd]) (unquote_ne_lag 0 hy)
  | plain c u hq he ih =>
    rw [List.cons_append, unquote_cons hq he] at h
    obtain ⟨y, hy, heq⟩ := Option.map_eq_some_iff.1 h
    simp only [Prod.mk.injEq, List.cons.injEq, true_and] at heq
    obtain ⟨rfl, rfl⟩ := heq
    obtain ⟨h₁, h₂⟩ := ih hy
    exact ⟨by simp [h₁, Ne.symm hq], by simp [h₂, Ne.symm he]⟩

/-! ### Braces -/

theorem phase_enter (r : Reader) (p : Phase) : (r.enter p).phase = p := rfl

theorem step_inside (h : r.phase.isInside = true) (c : Char) :
    (r.step c).phase.isInside = true
      ∨ (c = '}' ∧ (r.phase = .opened ∨ r.phase = .closed) ∧ r.step c = r.enter (.tail []))
      ∨ (r.step c).phase = .failed := by
  obtain ⟨n, ls, p⟩ := r
  cases p with
  | escaped k v => simp only [step]; cases unescape c <;> simp [enter, Phase.isInside]
  | start | comment | name | named | tail | failed => simp [Phase.isInside] at h
  | _ => simp only [step, stepKeyed, enter]; split_ifs <;> simp_all [Phase.isInside]

/-- A set of labels ends at a brace. -/
theorem exists_close (h : r.phase.isInside = true) (ht : (r.run s).phase = .tail t) :
    ∃ a, s = a ++ '}' :: t ∧ ((r.run a).phase = .opened ∨ (r.run a).phase = .closed) := by
  induction s generalizing r with
  | nil =>
    rw [show r.run [] = r from rfl] at ht
    simp [ht, Phase.isInside] at h
  | cons c s ih =>
    rw [run_cons] at ht
    obtain hin | ⟨rfl, hp, hstep⟩ | hfail := step_inside h c
    · obtain ⟨a, rfl, ha⟩ := ih hin ht
      exact ⟨c :: a, rfl, ha⟩
    · rw [hstep, enter, run_tail, List.nil_append] at ht
      cases ht
      exact ⟨[], rfl, hp⟩
    · rw [run_of_failed hfail, hfail] at ht
      cases ht

theorem isQuiet_iff : isQuiet c = true ↔ isNameChar c = false ∧ c ≠ '{' ∧ c ≠ '}' ∧ c ≠ '='
    ∧ c ≠ ',' ∧ c ≠ '"' ∧ c ≠ '\\' := by
  simp [isQuiet, and_assoc]

theorem isNameStart_of_quiet (h : isNameChar c = false) : isNameStart c = false := by
  simp only [isNameChar, Bool.or_eq_false_iff] at h
  exact h.1

theorem isKeyStart_of_quiet (h : isNameChar c = false) : isKeyStart c = false := by
  have h := isNameStart_of_quiet h
  simp only [isNameStart, Bool.or_eq_false_iff] at h
  exact h.1

theorem isKeyChar_of_quiet (h : isNameChar c = false) : isKeyChar c = false := by
  have hk := isKeyStart_of_quiet h
  simp only [isNameChar, Bool.or_eq_false_iff] at h
  simp [isKeyChar, hk, h.2]

theorem unescape_of_quiet (h : isNameChar c = false) (hq : c ≠ '"') (hs : c ≠ '\\') :
    unescape c = none := by
  have hn : c ≠ 'n' := by
    rintro rfl
    exact absurd h (by decide)
  simp [unescape, hq, hs, hn]

/-- Only within quotes does a sample hold a closing brace before its last, or an odd character. -/
theorem quoted_or_settled (r : Reader) (hsep : isSep c = false)
    (h : isQuiet c = true ∨ c = '}') :
    (∃ k v, r.phase = .quoted k v) ∨ (r.step c).phase.isSettled = true := by
  have hc : isNameChar c = false ∧ c ≠ '{' ∧ c ≠ '=' ∧ c ≠ ',' ∧ c ≠ '"' ∧ c ≠ '\\' := by
    obtain h | rfl := h
    · obtain ⟨h₁, h₂, -, h₃⟩ := isQuiet_iff.1 h
      exact ⟨h₁, h₂, h₃⟩
    · decide
  obtain ⟨hn, hopen, heq, hcomma, hquote, hslash⟩ := hc
  obtain ⟨n, ls, p⟩ := r
  cases p with
  | quoted k v => exact .inl ⟨k, v, rfl⟩
  | escaped k v =>
    right
    simp [step, unescape_of_quiet hn hquote hslash, enter, Phase.isSettled]
  | start =>
    right
    simp only [step, hsep, isNameStart_of_quiet hn, Bool.false_eq_true, ↓reduceIte]
    split_ifs <;> rfl
  | opened =>
    right
    simp only [step, hsep, isKeyStart_of_quiet hn, Bool.false_eq_true, ↓reduceIte]
    split_ifs <;> rfl
  | closed =>
    right
    simp only [step, hsep, hcomma, Bool.false_eq_true, ↓reduceIte]
    split_ifs <;> rfl
  | _ =>
    right
    simp [step, stepNamed, stepKeyed, hsep, hn, isKeyChar_of_quiet hn, hopen, heq, hquote, enter,
      Phase.isSettled]

theorem settled_not_inside {p : Phase} (h : p.isSettled = true) : p.isInside = false := by
  cases p <;> simp_all [Phase.isSettled, Phase.isInside]

theorem mem_tail_of_step (r : Reader) (hc : isQuiet c = true) (h : (r.step c).phase = .tail t) :
    c ∈ t := by
  obtain ⟨hn, -, hclose, -, -, hquote, hslash⟩ := isQuiet_iff.1 hc
  obtain ⟨n, ls, p⟩ := r
  cases p with
  | escaped k v => simp [step, unescape_of_quiet hn hquote hslash, enter] at h
  | tail s =>
    simp only [step, enter, Phase.tail.injEq] at h
    simp [← h]
  | name | named =>
    simp only [step, hn, Bool.false_eq_true, ↓reduceIte, stepNamed] at h
    split_ifs at h <;> simp [enter] at h
    simp [← h]
  | comment | failed => simp [step, enter] at h
  | _ =>
    simp only [step, stepKeyed, hclose, ↓reduceIte] at h
    split_ifs at h <;> simp [enter] at h

/-- An odd character of a sample stands within quotes or behind the labels. -/
theorem quoted_of_odd {a b : List Char} (hsep : isSep c = false) (hc : isQuiet c = true)
    (h : (r.run (a ++ c :: b)).phase = .tail t) :
    (∃ k v, (r.run a).phase = .quoted k v) ∨ c ∈ t := by
  rw [run_append, run_cons] at h
  obtain hq | hs := quoted_or_settled (r.run a) hsep (.inl hc)
  · exact .inl hq
  · obtain ⟨s, hs, rfl⟩ := exists_tail hs h
    exact .inr (List.mem_append_left b (mem_tail_of_step _ hc hs))

theorem quoted_of_brace {a b : List Char} (h : (r.run (a ++ '}' :: b)).phase.isInside = true) :
    ∃ k v, (r.run a).phase = .quoted k v := by
  rw [run_append, run_cons] at h
  obtain hq | hs := quoted_or_settled (r.run a) (c := '}') (by decide) (.inr rfl)
  · exact hq
  · rw [settled_not_inside (run_settled hs b)] at h
    cases h

/-- What a quiet character does where it leaves a reader before a label, after one or in quotes. -/
theorem step_quiet (r : Reader) (h : isQuiet c = true) :
    (r.step c = r ∧ ∀ k v, r.phase ≠ .quoted k v)
      ∨ (∃ k v, r.phase = .quoted k v ∧ r.step c = r.enter (.quoted k (v ++ [c])))
      ∨ (r.step c).phase.isResting = false := by
  obtain ⟨hn, hopen, hclose, heq, hcomma, hquote, hslash⟩ := isQuiet_iff.1 h
  obtain ⟨n, ls, p⟩ := r
  cases p with
  | quoted k v => exact .inr (.inl ⟨k, v, rfl, by simp [step, hquote, hslash]⟩)
  | escaped k v =>
    right; right
    simp [step, unescape_of_quiet hn hquote hslash, enter, Phase.isResting]
  | start =>
    simp only [step, isNameStart_of_quiet hn, Bool.false_eq_true, ↓reduceIte]
    split_ifs <;> simp [enter, Phase.isResting]
  | opened =>
    simp only [step, hclose, isKeyStart_of_quiet hn, Bool.false_eq_true, ↓reduceIte]
    split_ifs <;> simp [enter, Phase.isResting]
  | closed =>
    simp only [step, hclose, hcomma, ↓reduceIte]
    split_ifs <;> simp [enter, Phase.isResting]
  | equals k =>
    simp only [step, hquote, ↓reduceIte]
    split_ifs <;> simp [enter, Phase.isResting]
  | comment | tail | failed => simp [step, enter, Phase.isResting]
  | _ =>
    right; right
    simp only [step, stepNamed, stepKeyed, hn, hopen, heq, isKeyChar_of_quiet hn,
      Bool.false_eq_true, ↓reduceIte]
    split_ifs <;> rfl

/-- Quiet characters at the end of a set of labels, or after a label in it, are blanks. -/
theorem run_quiet (hs : ∀ c ∈ s, isQuiet c = true)
    (h : (r.run s).phase = .opened ∨ (r.run s).phase = .closed) : r.run s = r := by
  induction s generalizing r with
  | nil => rfl
  | cons c s ih =>
    simp only [List.mem_cons, forall_eq_or_imp] at hs
    rw [run_cons] at h ⊢
    have hrun := ih hs.2 h
    rw [hrun] at h ⊢
    obtain ⟨hsame, -⟩ | ⟨k, v, -, hq⟩ | hrest := step_quiet r hs.1
    · exact hsame
    · simp [hq, enter] at h
    · obtain h | h := h <;> simp [h, Phase.isResting] at hrest

/-- Quiet characters at the end of what has been read of a quoted value belong to it. -/
theorem run_quiet_quoted (hs : ∀ c ∈ s, isQuiet c = true) (h : (r.run s).phase = .quoted k v) :
    ∃ v', r.phase = .quoted k v' ∧ v = v' ++ s ∧ r.run s = r.enter (.quoted k v) := by
  induction s generalizing r with
  | nil => exact ⟨v, h, by simp, by rw [enter, ← h]; rfl⟩
  | cons c s ih =>
    simp only [List.mem_cons, forall_eq_or_imp] at hs
    rw [run_cons] at h ⊢
    obtain ⟨v', hphase, rfl, hrun⟩ := ih hs.2 h
    obtain ⟨hsame, hp⟩ | ⟨k', w, hp, hq⟩ | hrest := step_quiet r hs.1
    · exact absurd (hsame ▸ hphase) (hp k v')
    · rw [hq, phase_enter, Phase.quoted.injEq] at hphase
      obtain ⟨rfl, rfl⟩ := hphase
      exact ⟨w, hp, by simp, by rw [hrun, hq]; rfl⟩
    · simp [hphase, Phase.isResting] at hrest

/-- Quiet characters before a label are blanks. -/
theorem run_opened_quiet (hs : ∀ c ∈ s, isQuiet c = true)
    (h : (run ⟨n, ls, .opened⟩ (s ++ t)).phase ≠ .failed) :
    run ⟨n, ls, .opened⟩ (s ++ t) = run ⟨n, ls, .opened⟩ t := by
  induction s with
  | nil => rfl
  | cons c s ih =>
    simp only [List.mem_cons, forall_eq_or_imp] at hs
    obtain ⟨hn, -, hclose, -⟩ := isQuiet_iff.1 hs.1
    have hstep : step ⟨n, ls, .opened⟩ c = ⟨n, ls, .opened⟩
        ∨ (step ⟨n, ls, .opened⟩ c).phase = .failed := by
      simp only [step, hclose, isKeyStart_of_quiet hn, Bool.false_eq_true, ↓reduceIte]
      split_ifs <;> simp [enter]
    rw [List.cons_append, run_cons] at h ⊢
    obtain hstep | hstep := hstep
    · rw [hstep] at h ⊢
      exact ih hs.2 h
    · exact absurd (by rw [run_of_failed hstep]; exact hstep) h

theorem length_lt_of_unquote {x m : List Char} (h : unquote t = some (x, m)) :
    x.length < t.length := by
  induction t using unquote_induction generalizing x with
  | nil => simp [unquote] at h
  | quote t =>
    rw [unquote_quote] at h
    cases h
    simp
  | cut => simp [unquote] at h
  | escape d t ih =>
    rw [unquote_escape] at h
    simp only [Option.bind_eq_bind, Option.bind_eq_some_iff, Option.pure_def] at h
    obtain ⟨e, he, y, hy, heq⟩ := h
    cases heq
    have := ih hy
    simp only [List.length_cons]
    omega
  | plain c t hq he ih =>
    rw [unquote_cons hq he] at h
    obtain ⟨y, hy, heq⟩ := Option.map_eq_some_iff.1 h
    cases heq
    simpa using ih hy

end Reader

/-! ## Values and timestamps -/

section Measure

variable {F : Format} {c : Char} {s t : List Char}

theorem words_sep (hc : isSep c = true) (t : List Char) : words (c :: t) = words t := by
  simp [words, List.splitOnP_cons_eq_if_modifyHead, hc]

theorem mem_words {p : List Char → Prop} (h : ∀ w ∈ words t, p w) (hc : c ∈ t) :
    isSep c = true ∨ ∃ w, p w ∧ c ∈ w := by
  have hsplit : ∀ t : List Char, c ∈ t → isSep c = true ∨ ∃ w ∈ t.splitOnP isSep, c ∈ w := by
    intro t ht
    induction t with
    | nil => cases ht
    | cons d t ih =>
      rw [List.splitOnP_cons_eq_if_modifyHead]
      by_cases hd : isSep d = true
      · rw [if_pos hd]
        obtain rfl | ht := List.mem_cons.1 ht
        · exact .inl hd
        · obtain hs | ⟨w, hw, hcw⟩ := ih ht
          · exact .inl hs
          · exact .inr ⟨w, List.mem_cons_of_mem _ hw, hcw⟩
      · rw [if_neg hd]
        have hne := List.splitOnP_ne_nil isSep t
        obtain ⟨w₀, ws, hws⟩ := List.exists_cons_of_ne_nil hne
        rw [hws] at ih ⊢
        obtain rfl | ht := List.mem_cons.1 ht
        · exact .inr ⟨c :: w₀, by simp, by simp⟩
        · obtain hs | ⟨w, hw, hcw⟩ := ih ht
          · exact .inl hs
          · obtain rfl | hw := List.mem_cons.1 hw
            · exact .inr ⟨d :: w, by simp, by simp [hcw]⟩
            · exact .inr ⟨w, by simp [hw], hcw⟩
  obtain hs | ⟨w, hw, hcw⟩ := hsplit t hc
  · exact .inl hs
  · exact .inr ⟨w, h w (List.mem_filter.2 ⟨hw, by simpa using List.ne_nil_of_mem hcw⟩), hcw⟩

/-- A value and a timestamp are spelt with plain characters. -/
theorem plain_of_measure {m : List Char × Option (List Char)} (h : measure F t = some m)
    (hc : c ∈ t) : isSep c = true ∨ isPlain c = true := by
  have hall : ∀ w ∈ words t, ∀ d ∈ w, isPlain d = true := by
    unfold measure at h
    split at h
    · rename_i v hw
      split_ifs at h with hv
      simpa [hw] using F.value_plain v hv
    · rename_i v s hw
      split_ifs at h with hv
      simpa [hw] using ⟨F.value_plain v hv.1, F.timestamp_plain s hv.2⟩
    · cases h
  obtain hs | ⟨w, hw, hcw⟩ := mem_words (p := fun w => ∀ d ∈ w, isPlain d = true) hall hc
  · exact .inl hs
  · exact .inr (hw c hcw)

namespace Reader

variable {n : List Char} {ls : List Label}

theorem finish_eq_sample {r : Reader} {x : Sample} :
    r.finish F = some (some (.sample x)) ↔ ∃ t, r.phase = .tail t
      ∧ (r.labels.map Prod.fst).Nodup ∧ measure F t = some (x.value, x.timestamp)
      ∧ r.name = x.name ∧ r.labels = x.labels := by
  obtain ⟨n, ls, p⟩ := r
  obtain ⟨n', ls', v, s⟩ := x
  cases p with
  | comment t => simp [finish]
  | tail t =>
    cases hm : measure F t with
    | none => simp [finish, hm]
    | some m =>
      obtain ⟨v', s'⟩ := m
      simp only [finish, hm, Option.map_some]
      split_ifs with hn
      · simp [hn, hm]
        tauto
      · simp [hn]
  | _ => simp [finish]

/-- Neither blank so far nor a comment. -/
def begun (p : Phase) : Bool :=
  match p with
  | .start | .comment _ => false
  | _ => true

theorem step_begun {r : Reader} (h : begun r.phase = true) (c : Char) :
    begun (r.step c).phase = true := by
  obtain ⟨n, ls, p⟩ := r
  cases p with
  | start | comment => cases h
  | escaped k v => simp only [step]; cases unescape c <;> rfl
  | tail | failed => rfl
  | _ => simp only [step, stepNamed, stepKeyed, enter]; split_ifs <;> rfl

theorem run_begun {r : Reader} (h : begun r.phase = true) (t : List Char) :
    begun (r.run t).phase = true := by
  induction t generalizing r with
  | nil => exact h
  | cons c t ih => exact ih (step_begun h c)

theorem finish_begun {r : Reader} {i : Option Entry} (h : begun r.phase = true)
    (hi : r.finish F = some i) : ∃ x, i = some (.sample x) := by
  obtain ⟨n, ls, p⟩ := r
  cases p with
  | start | comment => cases h
  | tail t =>
    simp only [finish] at hi
    split_ifs at hi
    obtain ⟨m, -, rfl⟩ := Option.map_eq_some_iff.1 hi
    exact ⟨_, rfl⟩
  | _ => cases hi

theorem finish_tail (h : words t = words s) :
    (Reader.mk n ls (.tail t)).finish F = (Reader.mk n ls (.tail s)).finish F := by
  simp [finish, measure, h]

theorem run_named (ht : (t.dropWhile isSep).head? ≠ some '{') :
    (run ⟨n, ls, .named⟩ t).finish F = (Reader.mk n ls (.tail t)).finish F := by
  induction t with
  | nil => simp [run, finish, measure, words]
  | cons c t ih =>
    rw [run_cons, step, stepNamed]
    by_cases hc : isSep c = true
    · rw [List.dropWhile_cons_of_pos hc] at ht
      simp only [hc, ↓reduceIte]
      exact (ih ht).trans (finish_tail (words_sep hc t).symm)
    · rw [List.dropWhile_cons_of_neg hc, List.head?_cons, ne_eq, Option.some.injEq] at ht
      simp only [hc, ht, ↓reduceIte, enter, run_tail, List.singleton_append, Bool.false_eq_true]

/-- A sample without braces: what follows its name is its value. -/
theorem run_bare (ht : (t.dropWhile isSep).head? ≠ some '{')
    (hn : ∀ c ∈ t.head?, isNameChar c = false) :
    (run ⟨n, ls, .name⟩ t).finish F = (Reader.mk n ls (.tail t)).finish F := by
  cases t with
  | nil => simp [run, finish, measure, words]
  | cons c t =>
    have hc : isNameChar c = false := hn c rfl
    have hstep : step ⟨n, ls, .name⟩ c = step ⟨n, ls, .named⟩ c := by
      simp [step, hc, stepNamed, enter]
    rw [run_cons, hstep, ← run_cons]
    exact run_named ht

end Reader

open Reader in
/-- What a line begins with says what it is. -/
theorem readLine_cases {line : List Char} {i : Option Entry} (h : readLine F line = some i) :
    (i = none ∧ ∀ c ∈ line, isSep c = true)
      ∨ (∃ w t, line = w ++ '#' :: t ∧ (∀ c ∈ w, isSep c = true)
        ∧ i = some (.comment ('#' :: t)))
      ∨ ∃ w c t x, line = w ++ c :: t ∧ (∀ c ∈ w, isSep c = true) ∧ isNameStart c = true
        ∧ i = some (.sample x) := by
  have hline := List.takeWhile_append_dropWhile (p := isSep) (l := line)
  have hw : ∀ c ∈ line.takeWhile isSep, isSep c = true := fun c hc => List.mem_takeWhile_imp hc
  rw [readLine, ← hline, run_start_seps hw] at h
  rcases hd : line.dropWhile isSep with _ | ⟨c, t⟩
  · rw [hd, List.append_nil] at hline
    rw [hd] at h
    cases h
    exact .inl ⟨rfl, hline ▸ hw⟩
  · have hsep := List.head_dropWhile_not isSep (l := line) (by simp [hd])
    simp only [hd, List.head_cons] at hsep
    rw [hd] at hline h
    rw [run_cons, step, start] at h
    simp only [hsep, Bool.false_eq_true, ↓reduceIte] at h
    right
    split_ifs at h with hhash hstart
    · left
      rw [enter, run_comment] at h
      simp only [finish] at h
      split_ifs at h with hcom
      simp only [Option.some.injEq] at h
      exact ⟨_, t, by rw [← hhash, hline], hw, by simp [← h, hhash]⟩
    · right
      obtain ⟨x, rfl⟩ := finish_begun (run_begun rfl t) h
      exact ⟨_, c, t, x, hline.symm, hw, hstart, rfl⟩
    · rw [run_of_failed rfl] at h
      cases h

end Measure

/-! ## Lines of a document -/

section Lines

variable {F : Format} {l t : List Char}

theorem lines_cons (l t : List Char) (hl : '\n' ∉ l) : lines (l ++ '\n' :: t) = l :: lines t :=
  Lines.split_break (fun c hc => by simpa using fun h : c = '\n' => hl (h ▸ hc)) rfl (by decide)

theorem newline_notMem_of_mem_lines (h : l ∈ lines t) : '\n' ∉ l := fun hn => by
  simpa using Lines.not_break_of_mem_split h '\n' hn

/-- A text whose last line is ended is its lines, each ended. -/
theorem flatMap_lines {t : List Char} (h : t.getLast?.getD '\n' = '\n') :
    (lines t).flatMap (fun l => l ++ ['\n']) = t := by
  obtain ⟨l, m, ht, hl, hm⟩ := Lines.exists_first_break (· == '\n') t
  have hnl : '\n' ∉ l := fun hc => by simpa using hl _ hc
  obtain rfl | ⟨b, q, rfl, hb⟩ := hm
  · rcases List.eq_nil_or_concat' l with rfl | ⟨l', c, rfl⟩
    · rw [ht]
      rfl
    · rw [ht] at h
      simp only [List.append_nil, List.getLast?_append, List.getLast?_singleton] at h
      exact absurd (by simpa using Or.inr h.symm) hnl
  · have hb : b = '\n' := by simpa using hb
    subst hb
    have hq : q.getLast?.getD '\n' = '\n' := by
      rw [ht] at h
      cases q with
      | nil => rfl
      | cons d q =>
        rw [List.getLast?_append, List.getLast?_cons_cons] at h
        simpa [List.getLast?_eq_some_getLast] using h
    have hlt : q.length < t.length := by simp [ht]; omega
    rw [ht, lines_cons l q hnl, List.flatMap_cons, flatMap_lines hq]
    simp
termination_by t.length

theorem readLines_append (a b : List (List Char)) :
    readLines F (a ++ b) = do
      let x ← readLines F a
      let y ← readLines F b
      return x ++ y := by
  induction a with
  | nil => cases h : readLines F b <;> simp [readLines, h]
  | cons l a ih =>
    rw [List.cons_append, readLines, readLines, ih]
    cases readLine F l <;> cases readLines F a <;> cases readLines F b <;> simp

theorem readLines_cons_eq_some {a : List (List Char)} {es : List Entry} :
    readLines F (l :: a) = some es ↔
      ∃ i es', readLine F l = some i ∧ readLines F a = some es' ∧ es = i.toList ++ es' := by
  rw [readLines]
  cases readLine F l <;> cases readLines F a <;> simp [eq_comm]

theorem read_eq_some {doc : List Entry} : read F t = some doc ↔
    readLines F (lines t) = some doc ∧ t.getLast?.getD '\n' = '\n' ∧ Valid F doc := by
  unfold read
  cases h : readLines F (lines t) with
  | none => simp
  | some es =>
    simp only [Option.bind_eq_bind, Option.bind_some, Option.pure_def]
    split_ifs with hv
    · constructor
      · rintro ⟨⟩
        exact ⟨rfl, hv⟩
      · rintro ⟨⟨⟩, -⟩
        rfl
    · constructor
      · rintro ⟨⟩
      · rintro ⟨⟨⟩, hgood⟩
        exact absurd hgood hv

end Lines

end TextFormat
