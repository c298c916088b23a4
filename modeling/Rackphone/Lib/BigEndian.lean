import Mathlib

/-!
# Numbers of a fixed number of bytes

The most significant byte comes first.
-/

namespace BigEndian

def bytes : ℕ → ℕ → List UInt8
  | 0, _ => []
  | width + 1, n => UInt8.ofNat (n / 256 ^ width) :: bytes width n

def valueFrom (acc : ℕ) (bs : List UInt8) : ℕ := bs.foldl (fun n b => n * 256 + b.toNat) acc

def value (bs : List UInt8) : ℕ := valueFrom 0 bs

@[simp] theorem length_bytes : ∀ width n, (bytes width n).length = width
  | 0, _ => rfl
  | width + 1, n => congrArg (· + 1) (length_bytes width n)

theorem valueFrom_bytes : ∀ (width n acc : ℕ),
    valueFrom acc (bytes width n) = acc * 256 ^ width + n % 256 ^ width
  | 0, n, acc => by simp [valueFrom, bytes, Nat.mod_one]
  | width + 1, n, acc => by
    have h : valueFrom acc (bytes (width + 1) n)
        = valueFrom (acc * 256 + n / 256 ^ width % 256) (bytes width n) := rfl
    have hmod : n % 256 ^ (width + 1)
        = n % 256 ^ width + 256 ^ width * (n / 256 ^ width % 256) := by
      rw [pow_succ, Nat.mod_mul]
    rw [h, valueFrom_bytes width, hmod]
    ring

/-- A number that fits is read back. -/
theorem value_bytes {width n : ℕ} (h : n < 256 ^ width) : value (bytes width n) = n := by
  rw [value, valueFrom_bytes, Nat.zero_mul, Nat.zero_add, Nat.mod_eq_of_lt h]

end BigEndian
