import Mathlib

/-!
# Writing flat JSON objects

A record of named scalars as a writer prints it on one line. Writers differ in what they put
between the fields and in whether they escape the slash, which a `Style` says; they agree on every
other escape: the quote, the backslash and the characters below U+0020.
-/

namespace Json

/-- What a field of a flat object holds. -/
inductive Scalar where
  | null
  | num (n : ℤ)
  | str (s : String)
deriving DecidableEq

/-- How a writer lays an object out: whether a blank follows a comma or a colon, and whether the
slash is escaped. -/
structure Style where
  spaced : Bool
  escapesSlash : Bool

namespace Style

def gap (st : Style) : List Char := if st.spaced then [' '] else []

def comma (st : Style) : List Char := ',' :: st.gap

def colon (st : Style) : List Char := ':' :: st.gap

end Style

/-- The short escape of a control character, where it has one. -/
def shortEscape (c : Char) : Option Char :=
  if c = '\t' then some 't'
  else if c = '\n' then some 'n'
  else if c = '\r' then some 'r'
  else if c = Char.ofNat 0x08 then some 'b'
  else if c = Char.ofNat 0x0c then some 'f'
  else none

/-- One character of a string, between the quotes. -/
def escapeChar (st : Style) (c : Char) : List Char :=
  if c = '"' ∨ c = '\\' ∨ (c = '/' ∧ st.escapesSlash) then ['\\', c]
  else match shortEscape c with
    | some e => ['\\', e]
    | none =>
      if c.toNat < 0x20 then
        ['\\', 'u', '0', '0', Nat.digitChar (c.toNat / 16), Nat.digitChar (c.toNat % 16)]
      else [c]

def printString (st : Style) (s : List Char) : List Char :=
  '"' :: s.flatMap (escapeChar st) ++ ['"']

def printNum : ℤ → List Char
  | .ofNat n => Nat.toDigits 10 n
  | .negSucc n => '-' :: Nat.toDigits 10 (n + 1)

def printScalar (st : Style) : Scalar → List Char
  | .null => ['n', 'u', 'l', 'l']
  | .num n => printNum n
  | .str s => printString st s.toList

def printField (st : Style) (f : String × Scalar) : List Char :=
  printString st f.1.toList ++ st.colon ++ printScalar st f.2

def printFields (st : Style) : List (String × Scalar) → List Char
  | [] => []
  | [f] => printField st f
  | f :: g :: fs => printField st f ++ st.comma ++ printFields st (g :: fs)

def printObject (st : Style) (fs : List (String × Scalar)) : List Char :=
  '{' :: printFields st fs ++ ['}']

end Json
