import Rackphone.CallReceiver

/-!
# Numbers as people write them

What `Numbers.sanitise` is for: dialable numbers, and the texts that are one of them with
punctuation anywhere in it.
-/

namespace Rackphone

/-- No character is a digit and something else. -/
structure KotlinChars.Lawful (K : KotlinChars) : Prop where
  digit_not_whitespace : ∀ c, K.isDigit c → K.isWhitespace c = false
  digit_not_punctuation : ∀ c, K.isDigit c → c ∉ Numbers.PUNCTUATION
  plus_not_digit : K.isDigit '+' = false
  plus_not_whitespace : K.isWhitespace '+' = false

namespace Numbers

variable (K : KotlinChars)

/-- An optional leading plus and 1 to 20 digits. -/
def Dialable (number : List Char) : Prop :=
  ∃ plus digits, number = plus ++ digits ∧ (plus = [] ∨ plus = ['+'])
    ∧ (∀ c ∈ digits, K.isDigit c) ∧ 1 ≤ digits.length ∧ digits.length ≤ 20

/-- The second text is the first with punctuation inserted. -/
inductive Inserted : List Char → List Char → Prop
  | nil : Inserted [] []
  | keep (c : Char) {number text : List Char} : Inserted number text →
      Inserted (c :: number) (c :: text)
  | insert {p : Char} {number text : List Char} : p ∈ PUNCTUATION → Inserted number text →
      Inserted number (p :: text)

/-- Where there is a plus, only whitespace stands before the first one. -/
def PlusFirst (text : List Char) : Prop :=
  '+' ∈ text → ∀ c ∈ text.takeWhile fun c => c ≠ '+', K.isWhitespace c

end Numbers

/-! ## The characters of the Basic Multilingual Plane -/

/-- The zeros of the decimal digits. -/
def digitZeros : List ℕ :=
  [0x30, 0x660, 0x6f0, 0x7c0, 0x966, 0x9e6, 0xa66, 0xae6, 0xb66, 0xbe6, 0xc66, 0xce6, 0xd66, 0xde6,
    0xe50, 0xed0, 0xf20, 0x1040, 0x1090, 0x17e0, 0x1810, 0x1946, 0x19d0, 0x1a80, 0x1a90, 0x1b50,
    0x1bb0, 0x1c40, 0x1c50, 0xa620, 0xa8d0, 0xa900, 0xa9d0, 0xa9f0, 0xaa50, 0xabf0, 0xff10]

/-- `Char.isDigit` and `Char.isWhitespace` of the JVM, on a UTF-16 unit. -/
def unicodeChars : KotlinChars where
  isDigit c := digitZeros.any fun n => n ≤ c.toNat && c.toNat ≤ n + 9
  isWhitespace c :=
    c.toNat ∈ [0x09, 0x0a, 0x0b, 0x0c, 0x0d, 0x1c, 0x1d, 0x1e, 0x1f, 0x20, 0xa0, 0x1680, 0x2028,
      0x2029, 0x202f, 0x205f, 0x3000] ∨ 0x2000 ≤ c.toNat ∧ c.toNat ≤ 0x200a

end Rackphone
