import Mathlib

/-!
# Bytes in hexadecimal

Two lower-case digits a byte. They are read in either case, with blanks between the bytes.
-/

namespace Hex

def digits (b : UInt8) : List Char :=
  [Nat.digitChar (b.toNat / 16), Nat.digitChar (b.toNat % 16)]

def encode (bs : List UInt8) : List Char := bs.flatMap digits

def value (c : Char) : Option ℕ :=
  if '0' ≤ c ∧ c ≤ '9' then some (c.toNat - 48)
  else if 'a' ≤ c ∧ c ≤ 'f' then some (c.toNat - 87)
  else if 'A' ≤ c ∧ c ≤ 'F' then some (c.toNat - 55)
  else none

def isBlank (c : Char) : Bool := c ∈ ['\t', '\n', '\x0b', '\x0c', '\r', ' ']

def decode : List Char → Option (List UInt8)
  | [] => some []
  | c :: d :: text =>
    if isBlank c then decode (d :: text)
    else
      match value c, value d with
      | some x, some y => (decode text).map (UInt8.ofNat (16 * x + y) :: ·)
      | _, _ => none
  | [c] => if isBlank c then some [] else none

theorem value_digitChar : ∀ d < 16, value (Nat.digitChar d) = some d := by decide

theorem not_isBlank_digitChar : ∀ d < 16, isBlank (Nat.digitChar d) = false := by decide

/-- Bytes are read back. -/
@[simp] theorem decode_encode : ∀ bs : List UInt8, decode (encode bs) = some bs
  | [] => rfl
  | b :: bs => by
    have hb := b.toNat_lt
    have hhigh : b.toNat / 16 < 16 := by omega
    have hlow : b.toNat % 16 < 16 := by omega
    have hbyte : 16 * (b.toNat / 16) + b.toNat % 16 = b.toNat := by omega
    show decode (Nat.digitChar (b.toNat / 16) :: Nat.digitChar (b.toNat % 16) :: encode bs) = _
    simp [decode, not_isBlank_digitChar _ hhigh, value_digitChar _ hhigh, value_digitChar _ hlow,
      decode_encode bs, hbyte]

end Hex
