import Mathlib

/-!
# The words of a shell command

The words a POSIX shell splits a command into, where it is made of blanks, quotes, backslashes and
characters that stand for themselves. Whatever else a command has in it would make the shell do
more than split it, and then nothing stands for its words. A word is quoted so that the shell reads
it back.
-/

namespace Shell

inductive Mode where
  | bare
  | single
  | double
  | escape
  | doubleEscape
deriving DecidableEq

/-- A reader of a command: the word it is in, if one has begun, and the words before it. -/
structure Reader where
  mode : Mode
  word : Option (List Char)
  done : List (List Char)
deriving DecidableEq

namespace Reader

variable (plain : Char → Bool) (r : Reader)

def start : Reader := ⟨.bare, none, []⟩

def enter (mode : Mode) : Reader := { r with mode, word := some (r.word.getD []) }

def push (t : List Char) : Reader := { r with word := some (r.word.getD [] ++ t) }

/-- The words there are when the word that is read ends. -/
def words : List (List Char) := r.done ++ r.word.toList

def close : Reader := ⟨.bare, none, r.words⟩

/-- One character; `plain` are the ones that stand for themselves outside of quotes. -/
def step (c : Char) : Option Reader :=
  match r.mode with
  | .bare =>
    if c = ' ' ∨ c = '\t' then some r.close
    else if c = '\'' then some (r.enter .single)
    else if c = '"' then some (r.enter .double)
    else if c = '\\' then some (r.enter .escape)
    else if plain c then some (r.push [c])
    else none
  | .single => if c = '\'' then some (r.enter .bare) else some (r.push [c])
  | .double =>
    if c = '"' then some (r.enter .bare)
    else if c = '\\' then some (r.enter .doubleEscape)
    -- an expansion
    else if c = '$' ∨ c.toNat = 96 then none
    else some (r.push [c])
  -- a line that is continued has the newline taken out of it
  | .escape => if c = '\n' then none else some ((r.push [c]).enter .bare)
  | .doubleEscape =>
    if c = '\n' then none
    else if c = '"' ∨ c = '\\' ∨ c = '$' ∨ c.toNat = 96 then some ((r.push [c]).enter .double)
    else some ((r.push ['\\', c]).enter .double)

def run : Reader → List Char → Option Reader
  | r, [] => some r
  | r, c :: t => (r.step plain c).bind fun r => run r t

end Reader

variable (plain : Char → Bool)

def words (t : List Char) : Option (List (List Char)) :=
  (Reader.start.run plain t).bind fun r => if r.mode = .bare then some r.words else none

/-- A quote in the text ends the quoted part, stands in double quotes and begins another. -/
def quoteChar (c : Char) : List Char := if c = '\'' then "'\"'\"'".toList else [c]

def quote (t : List Char) : List Char :=
  if t ≠ [] ∧ t.all plain then t else '\'' :: (t.flatMap quoteChar ++ ['\''])

def join : List (List Char) → List Char
  | [] => []
  | [w] => w
  | w :: ws => w ++ ' ' :: join ws

/-! ## Reading back -/

namespace Reader

variable {plain} {d : List (List Char)}

theorem run_append (s t : List Char) :
    ∀ r : Reader, r.run plain (s ++ t) = (r.run plain s).bind fun r => r.run plain t := by
  induction s with
  | nil => exact fun r => rfl
  | cons c s ih =>
    intro r
    rw [List.cons_append, run, run, Option.bind_assoc]
    exact congrArg _ (funext ih)

/-- In a word, what pushes itself character by character is pushed. -/
theorem run_push {mode : Mode} {p : Char → Prop}
    (hstep : ∀ w c, p c → step plain ⟨mode, some w, d⟩ c = some ⟨mode, some (w ++ [c]), d⟩) :
    ∀ (t w : List Char), (∀ c ∈ t, p c) →
      run plain ⟨mode, some w, d⟩ t = some ⟨mode, some (w ++ t), d⟩
  | [], w, _ => by rw [run, List.append_nil]
  | c :: t, w, ht => by
    rw [run, hstep w c (ht c List.mem_cons_self), Option.bind_some,
      run_push hstep t _ fun c hc => ht c (List.mem_cons_of_mem _ hc), List.append_assoc]
    rfl

end Reader

/-- What stands for itself is neither a blank nor a quote. -/
def PlainWords (plain : Char → Bool) : Prop :=
  ∀ c, plain c → c ≠ ' ' ∧ c ≠ '\t' ∧ c ≠ '\'' ∧ c ≠ '"' ∧ c ≠ '\\'

section

open Reader

variable {plain} {d : List (List Char)} (hplain : PlainWords plain)
include hplain

theorem step_plain (word : Option (List Char)) {c : Char} (hc : plain c) :
    Reader.step plain ⟨.bare, word, d⟩ c = some ⟨.bare, some (word.getD [] ++ [c]), d⟩ := by
  obtain ⟨h1, h2, h3, h4, h5⟩ := hplain c hc
  simp [Reader.step, h1, h2, h3, h4, h5, hc, push]

theorem run_plain {t : List Char} (hne : t ≠ []) (ht : ∀ c ∈ t, plain c) :
    Reader.run plain ⟨.bare, none, d⟩ t = some ⟨.bare, some t, d⟩ := by
  rcases t with _ | ⟨c, t⟩
  · exact absurd rfl hne
  · rw [Reader.run, step_plain hplain none (ht c List.mem_cons_self), Option.bind_some]
    exact run_push (fun w c hc => step_plain hplain (some w) hc) t _ fun c hc =>
      ht c (List.mem_cons_of_mem _ hc)

omit hplain in
theorem run_quoteChar (w : List Char) (c : Char) :
    Reader.run plain ⟨.single, some w, d⟩ (quoteChar c)
      = some ⟨.single, some (w ++ [c]), d⟩ := by
  unfold quoteChar
  split_ifs with h
  · subst h
    simp [Reader.run, Reader.step, enter, push]
  · simp [Reader.run, Reader.step, push, h]

omit hplain in
theorem run_quoteChars : ∀ (t w : List Char),
    Reader.run plain ⟨.single, some w, d⟩ (t.flatMap quoteChar)
      = some ⟨.single, some (w ++ t), d⟩
  | [], w => by rw [List.flatMap_nil, Reader.run, List.append_nil]
  | c :: t, w => by
    rw [List.flatMap_cons, run_append, run_quoteChar, Option.bind_some, run_quoteChars t,
      List.append_assoc]
    rfl

theorem run_quote (t : List Char) :
    Reader.run plain ⟨.bare, none, d⟩ (quote plain t) = some ⟨.bare, some t, d⟩ := by
  unfold quote
  split_ifs with h
  · exact run_plain hplain h.1 (List.all_eq_true.1 h.2)
  · have henter : Reader.step plain ⟨.bare, none, d⟩ '\'' = some ⟨.single, some [], d⟩ := by
      simp [Reader.step, enter]
    have hleave : Reader.step plain ⟨.single, some t, d⟩ '\'' = some ⟨.bare, some t, d⟩ := by
      simp [Reader.step, enter]
    rw [Reader.run, henter, Option.bind_some, run_append, run_quoteChars, Option.bind_some,
      List.nil_append, Reader.run, hleave, Option.bind_some, Reader.run]

/-- Words that are each read back are read back together. -/
theorem run_join : ∀ (ws : List (List Char)) (d : List (List Char)),
    ∃ r, Reader.run plain ⟨.bare, none, d⟩ (join (ws.map (quote plain))) = some r
      ∧ r.mode = .bare ∧ r.words = d ++ ws
  | [], d => ⟨_, rfl, rfl, by simp [Reader.words]⟩
  | [w], d => ⟨_, run_quote hplain w, rfl, by simp [Reader.words]⟩
  | w :: w' :: ws, d => by
    obtain ⟨r, hrun, hmode, hwords⟩ := run_join (w' :: ws) (d ++ [w])
    have hblank : Reader.step plain ⟨.bare, some w, d⟩ ' ' = some ⟨.bare, none, d ++ [w]⟩ := by
      simp [Reader.step, close, Reader.words]
    refine ⟨r, ?_, hmode, by rw [hwords, List.append_assoc]; rfl⟩
    rw [List.map_cons, List.map_cons, join, run_append, run_quote hplain, Option.bind_some,
      Reader.run, hblank, Option.bind_some, ← List.map_cons, hrun]
    simp

/-- Any words at all are read back from the command that quotes them. -/
theorem words_join_quote (ws : List (List Char)) :
    words plain (join (ws.map (quote plain))) = some ws := by
  obtain ⟨r, hrun, hmode, hwords⟩ := run_join hplain ws []
  rw [words, Reader.start, hrun, Option.bind_some, if_pos hmode, hwords, List.nil_append]

end

end Shell
