import Mathlib

/-!
# Base64

Three bytes are four digits. The encoder spells the last two digits `-` and `_`; the decoder takes
either alphabet, and padding only where the last group needs it.
-/

namespace Base64

def digit (n : ℕ) : Char :=
  if n < 26 then Char.ofNat (65 + n)
  else if n < 52 then Char.ofNat (71 + n)
  else if n < 62 then Char.ofNat (n - 4)
  else if n = 62 then '-'
  else '_'

def value (c : Char) : Option ℕ :=
  if 'A' ≤ c ∧ c ≤ 'Z' then some (c.toNat - 65)
  else if 'a' ≤ c ∧ c ≤ 'z' then some (c.toNat - 71)
  else if '0' ≤ c ∧ c ≤ '9' then some (c.toNat + 4)
  else if c = '+' ∨ c = '-' then some 62
  else if c = '/' ∨ c = '_' then some 63
  else none

def encode : List UInt8 → List Char
  | [] => []
  | [a] => [digit (a.toNat / 4), digit (a.toNat % 4 * 16), '=', '=']
  | [a, b] =>
    [digit (a.toNat / 4), digit (a.toNat % 4 * 16 + b.toNat / 16), digit (b.toNat % 16 * 4), '=']
  | a :: b :: c :: bytes =>
    digit (a.toNat / 4) :: digit (a.toNat % 4 * 16 + b.toNat / 16)
      :: digit (b.toNat % 16 * 4 + c.toNat / 64) :: digit (c.toNat % 64) :: encode bytes

def decode : List Char → Option (List UInt8)
  | [] => some []
  | p :: q :: r :: s :: text =>
    match value p, value q with
    | some x, some y =>
      if r = '=' ∧ s = '=' ∧ text = [] then some [UInt8.ofNat (x * 4 + y / 16)]
      else
        match value r with
        | none => none
        | some z =>
          if s = '=' ∧ text = [] then
            some [UInt8.ofNat (x * 4 + y / 16), UInt8.ofNat (y % 16 * 16 + z / 4)]
          else
            match value s, decode text with
            | some w, some bytes =>
              some (UInt8.ofNat (x * 4 + y / 16) :: UInt8.ofNat (y % 16 * 16 + z / 4)
                :: UInt8.ofNat (z % 4 * 64 + w) :: bytes)
            | _, _ => none
    | _, _ => none
  | _ => none

/-! ## Without padding -/

def encodeUnpadded (bytes : List UInt8) : List Char := (encode bytes).rdropWhile (· = '=')

/-- The padding that makes the length a multiple of four. -/
def pad (text : List Char) : List Char :=
  text ++ List.replicate (-(text.length : ℤ) % 4).toNat '='

/-- The encoding up to its padding. -/
def body : List UInt8 → List Char
  | [] => []
  | [a] => [digit (a.toNat / 4), digit (a.toNat % 4 * 16)]
  | [a, b] =>
    [digit (a.toNat / 4), digit (a.toNat % 4 * 16 + b.toNat / 16), digit (b.toNat % 16 * 4)]
  | a :: b :: c :: bytes =>
    digit (a.toNat / 4) :: digit (a.toNat % 4 * 16 + b.toNat / 16)
      :: digit (b.toNat % 16 * 4 + c.toNat / 64) :: digit (c.toNat % 64) :: body bytes

theorem value_digit : ∀ n < 64, value (digit n) = some n := by decide

theorem digit_spec : ∀ n < 64, digit n ≠ '=' ∧ digit n ≠ '.' ∧ (digit n).toNat < 128 := by decide

theorem ofNat_eq {n : ℕ} {b : UInt8} (h : n = b.toNat) : UInt8.ofNat n = b := by
  rw [h, UInt8.ofNat_toNat]

/-- Bytes are read back. -/
@[simp] theorem decode_encode : ∀ bytes : List UInt8, decode (encode bytes) = some bytes
  | [] => rfl
  | [a] => by
    have ha := a.toNat_lt
    have hx := value_digit (a.toNat / 4) (by omega)
    have hy := value_digit (a.toNat % 4 * 16) (by omega)
    have hbyte : UInt8.ofNat (a.toNat / 4 * 4 + a.toNat % 4 * 16 / 16) = a := ofNat_eq (by omega)
    simp only [encode, decode, hx, hy, hbyte, true_and, ↓reduceIte]
  | [a, b] => by
    have ha := a.toNat_lt
    have hb := b.toNat_lt
    have hx := value_digit (a.toNat / 4) (by omega)
    have hy := value_digit (a.toNat % 4 * 16 + b.toNat / 16) (by omega)
    have hz := value_digit (b.toNat % 16 * 4) (by omega)
    have hne := (digit_spec (b.toNat % 16 * 4) (by omega)).1
    have hfirst : UInt8.ofNat (a.toNat / 4 * 4 + (a.toNat % 4 * 16 + b.toNat / 16) / 16) = a :=
      ofNat_eq (by omega)
    have hsecond :
        UInt8.ofNat ((a.toNat % 4 * 16 + b.toNat / 16) % 16 * 16 + b.toNat % 16 * 4 / 4) = b :=
      ofNat_eq (by omega)
    simp only [encode, decode, hx, hy, hz, hne, hfirst, hsecond, false_and, ↓reduceIte, true_and]
  | a :: b :: c :: bytes => by
    have ha := a.toNat_lt
    have hb := b.toNat_lt
    have hc := c.toNat_lt
    have hx := value_digit (a.toNat / 4) (by omega)
    have hy := value_digit (a.toNat % 4 * 16 + b.toNat / 16) (by omega)
    have hz := value_digit (b.toNat % 16 * 4 + c.toNat / 64) (by omega)
    have hw := value_digit (c.toNat % 64) (by omega)
    have hzne := (digit_spec (b.toNat % 16 * 4 + c.toNat / 64) (by omega)).1
    have hwne := (digit_spec (c.toNat % 64) (by omega)).1
    have hfirst : UInt8.ofNat (a.toNat / 4 * 4 + (a.toNat % 4 * 16 + b.toNat / 16) / 16) = a :=
      ofNat_eq (by omega)
    have hsecond : UInt8.ofNat ((a.toNat % 4 * 16 + b.toNat / 16) % 16 * 16
        + (b.toNat % 16 * 4 + c.toNat / 64) / 4) = b := ofNat_eq (by omega)
    have hthird : UInt8.ofNat ((b.toNat % 16 * 4 + c.toNat / 64) % 4 * 64 + c.toNat % 64) = c :=
      ofNat_eq (by omega)
    simp only [encode, decode, hx, hy, hz, hw, hzne, hwne, hfirst, hsecond, hthird,
      decode_encode bytes, false_and, ↓reduceIte]

/-- The padding is what makes the length a multiple of four. -/
theorem encode_eq_pad : ∀ bytes : List UInt8, encode bytes = pad (body bytes)
  | [] => rfl
  | [_] => rfl
  | [_, _] => rfl
  | a :: b :: c :: bytes => by
    have hlength : (-((body bytes).length + 1 + 1 + 1 + 1 : ℤ)) % 4
        = -((body bytes).length : ℤ) % 4 := by omega
    simp only [encode, body, pad, encode_eq_pad bytes, List.length_cons, Nat.cast_add, Nat.cast_one,
      hlength, List.cons_append]

theorem mem_body {c : Char} : ∀ {bytes : List UInt8}, c ∈ body bytes → ∃ n < 64, c = digit n
  | [], h => absurd h List.not_mem_nil
  | [a], h => by
    have ha := a.toNat_lt
    simp only [body, List.mem_cons, List.not_mem_nil, or_false] at h
    rcases h with rfl | rfl
    · exact ⟨_, by omega, rfl⟩
    · exact ⟨_, by omega, rfl⟩
  | [a, b], h => by
    have ha := a.toNat_lt
    have hb := b.toNat_lt
    simp only [body, List.mem_cons, List.not_mem_nil, or_false] at h
    rcases h with rfl | rfl | rfl
    · exact ⟨_, by omega, rfl⟩
    · exact ⟨_, by omega, rfl⟩
    · exact ⟨_, by omega, rfl⟩
  | a :: b :: c' :: bytes, h => by
    have ha := a.toNat_lt
    have hb := b.toNat_lt
    have hc := c'.toNat_lt
    simp only [body, List.mem_cons] at h
    rcases h with rfl | rfl | rfl | rfl | h
    · exact ⟨_, by omega, rfl⟩
    · exact ⟨_, by omega, rfl⟩
    · exact ⟨_, by omega, rfl⟩
    · exact ⟨_, by omega, rfl⟩
    · exact mem_body h

/-- Only the padding is taken off. -/
theorem encodeUnpadded_eq_body (bytes : List UInt8) : encodeUnpadded bytes = body bytes := by
  have hbody : ∀ c ∈ body bytes, c ≠ '=' := by
    intro c hc
    obtain ⟨n, hn, rfl⟩ := mem_body hc
    exact (digit_spec n hn).1
  have hself : (body bytes).rdropWhile (· = '=') = body bytes := by
    rw [List.rdropWhile_eq_self_iff]
    intro hne
    simpa using hbody _ (List.getLast_mem hne)
  rw [encodeUnpadded, encode_eq_pad, pad]
  generalize (-((body bytes).length : ℤ) % 4).toNat = n
  induction n with
  | zero => simpa using hself
  | succ n ih =>
    rw [List.replicate_succ', ← List.append_assoc, List.rdropWhile_concat_pos _ _ _ (by simp), ih]

theorem decode_pad_encodeUnpadded (bytes : List UInt8) :
    decode (pad (encodeUnpadded bytes)) = some bytes := by
  rw [encodeUnpadded_eq_body, ← encode_eq_pad, decode_encode]

/-- Bytes in base64 are ASCII, and no dot is among them. -/
theorem mem_encodeUnpadded {bytes : List UInt8} {c : Char} (h : c ∈ encodeUnpadded bytes) :
    c ≠ '.' ∧ c.toNat < 128 := by
  rw [encodeUnpadded_eq_body] at h
  obtain ⟨n, hn, rfl⟩ := mem_body h
  exact (digit_spec n hn).2

end Base64
