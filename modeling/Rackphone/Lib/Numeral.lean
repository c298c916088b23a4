import Rackphone.Lib.Json
import Rackphone.Lib.Lines

/-!
# Integers as an interpreter reads and writes them

Read leniently: blanks around, a sign, decimal digits of any script and single underscores between
digits. A numeral with more digits than the limit is neither written nor read.
-/

/-- What an interpreter knows of characters. -/
structure Numeral where
  isSpace : Char → Bool
  decimal : Char → Option ℕ
  limit : ℕ
  decimal_digitChar : ∀ d < 10, decimal (Nat.digitChar d) = some d
  isSpace_digitChar : ∀ d < 10, isSpace (Nat.digitChar d) = false
  isSpace_minus : isSpace '-' = false

namespace Numeral

variable (N : Numeral)

/-- The digits from one on, `last` saying whether the character before was a digit. -/
def digits : Bool → ℕ → List Char → Option ℕ
  | last, n, [] => if last then some n else none
  | last, n, c :: text =>
    if c = '_' then if last then digits false n text else none
    else
      match N.decimal c with
      | some d => digits true (10 * n + d) text
      | none => none

def nat (text : List Char) : Option ℕ :=
  if N.limit < (text.filter fun c => c ≠ '_').length then none else N.digits false 0 text

def int (text : List Char) : Option ℤ :=
  match Lines.strip N.isSpace text with
  | '-' :: text => (N.nat text).map fun n => -(n : ℤ)
  | '+' :: text => (N.nat text).map fun n => (n : ℤ)
  | text => (N.nat text).map fun n => (n : ℤ)

def str (n : ℤ) : Option (List Char) :=
  if N.limit < (Nat.toDigits 10 n.natAbs).length then none else some (Json.printNum n)

variable {N}

/-! ## Reading back -/

theorem exists_digitChar {c : Char} {n : ℕ} (h : c ∈ Nat.toDigits 10 n) :
    ∃ d < 10, c = Nat.digitChar d := by
  have hdigit := Nat.isDigit_of_mem_toDigits (by omega) (by omega) h
  have hrange : 48 ≤ c.toNat ∧ c.toNat ≤ 57 := by
    simpa [Char.isDigit, Char.le_def, UInt32.le_iff_toNat_le] using hdigit
  refine ⟨c.toNat - 48, by omega, Char.toNat_inj.1 ?_⟩
  rw [Nat.toNat_digitChar_of_lt_ten (by omega)]
  omega

theorem digitChar_ne : ∀ d < 10, Nat.digitChar d ≠ '_' ∧ Nat.digitChar d ≠ '-'
    ∧ Nat.digitChar d ≠ '+' ∧ Nat.digitChar d ≠ ':' := by decide

theorem digits_of_forall : ∀ {text : List Char} (last : Bool) (n : ℕ),
    (∀ c ∈ text, ∃ d < 10, c = Nat.digitChar d) → text ≠ [] →
      N.digits last n text = some (Nat.ofDigitChars 10 text n)
  | [], _, _, _, hne => absurd rfl hne
  | c :: text, last, n, h, _ => by
    obtain ⟨⟨d, hd, rfl⟩, htext⟩ := List.forall_mem_cons.1 h
    have hnext : 10 * n + d = 10 * n + ((Nat.digitChar d).toNat - '0'.toNat) := by
      rw [Nat.toNat_digitChar_of_lt_ten hd]
      show 10 * n + d = 10 * n + (48 + d - 48)
      omega
    rw [digits, if_neg (digitChar_ne d hd).1, N.decimal_digitChar d hd, Nat.ofDigitChars_cons,
      ← hnext]
    rcases text with _ | ⟨c', text⟩
    · rfl
    · exact digits_of_forall true _ htext (List.cons_ne_nil _ _)

theorem nat_toDigits {n : ℕ} (h : (Nat.toDigits 10 n).length ≤ N.limit) :
    N.nat (Nat.toDigits 10 n) = some n := by
  have hfilter : ((Nat.toDigits 10 n).filter fun c => c ≠ '_').length ≤ N.limit :=
    (List.length_filter_le _ _).trans h
  rw [nat, if_neg (by omega), digits_of_forall false 0 (fun c => exists_digitChar)
    (by simp [Nat.toDigits_ne_nil]), Nat.ofDigitChars_ten_toDigits]

theorem mem_printNum {c : Char} {n : ℤ} (h : c ∈ Json.printNum n) :
    c = '-' ∨ ∃ d < 10, c = Nat.digitChar d := by
  cases n with
  | ofNat n => exact .inr (exists_digitChar h)
  | negSucc n =>
    rcases List.mem_cons.1 h with rfl | h
    · exact .inl rfl
    · exact .inr (exists_digitChar h)

theorem isSpace_of_mem_printNum {c : Char} {n : ℤ} (h : c ∈ Json.printNum n) :
    N.isSpace c = false := by
  rcases mem_printNum h with rfl | ⟨d, hd, rfl⟩
  · exact N.isSpace_minus
  · exact N.isSpace_digitChar d hd

/-- A number that is written is read back. -/
theorem int_str {n : ℤ} {text : List Char} (h : N.str n = some text) : N.int text = some n := by
  unfold str at h
  split_ifs at h with hlimit
  obtain rfl := Option.some.inj h
  have hlength : (Nat.toDigits 10 n.natAbs).length ≤ N.limit := by omega
  rw [int, Lines.strip_of_forall fun c => isSpace_of_mem_printNum]
  cases n with
  | ofNat n =>
    have hnat : N.nat (Nat.toDigits 10 n) = some n := nat_toDigits hlength
    have hfirst : ∀ c ∈ Nat.toDigits 10 n, c ≠ '-' ∧ c ≠ '+' := by
      intro c hc
      obtain ⟨d, hd, rfl⟩ := exists_digitChar hc
      exact ⟨(digitChar_ne d hd).2.1, (digitChar_ne d hd).2.2.1⟩
    show (match Nat.toDigits 10 n with
      | '-' :: text => (N.nat text).map fun n => -(n : ℤ)
      | '+' :: text => (N.nat text).map fun n => (n : ℤ)
      | text => (N.nat text).map fun n => (n : ℤ)) = some (n : ℤ)
    split
    · rename_i text heq
      exact absurd rfl (hfirst '-' (by simp [heq])).1
    · rename_i text heq
      exact absurd rfl (hfirst '+' (by simp [heq])).2
    · rw [hnat]
      rfl
  | negSucc n =>
    have hnat : N.nat (Nat.toDigits 10 (n + 1)) = some (n + 1) := nat_toDigits hlength
    show (N.nat (Nat.toDigits 10 (n + 1))).map (fun n => -(n : ℤ)) = some (.negSucc n)
    rw [hnat]
    rfl

end Numeral
