import Rackphone.Lib.Transducer

/-!
# Decoding UTF-8

A decoder that takes one byte at a time and gives out a character at the last byte of each. It
refuses what is not the encoding of a character, overlong encodings included, and nothing comes
after. A decoder of a stream drops a byte order mark at its start.
-/

namespace Utf8

open Transducer

inductive Decoder where
  | between
  /-- The bits so far, how many bytes are to come, and the least character of that length. -/
  | within (value remaining least : ℕ)
  | failed
deriving DecidableEq

namespace Decoder

def finish (value least : ℕ) : Decoder × List Char :=
  if least ≤ value ∧ value.isValidChar then (between, [Char.ofNat value]) else (failed, [])

def first (b : ℕ) : Decoder × List Char :=
  if b < 0x80 then (between, [Char.ofNat b])
  else if b < 0xc0 then (failed, [])
  else if b < 0xe0 then (within (b - 0xc0) 1 0x80, [])
  else if b < 0xf0 then (within (b - 0xe0) 2 0x800, [])
  else if b < 0xf8 then (within (b - 0xf0) 3 0x10000, [])
  else (failed, [])

def step (s : Decoder) (b : UInt8) : Decoder × List Char :=
  match s with
  | between => first b.toNat
  | within value remaining least =>
    if 0x80 ≤ b.toNat ∧ b.toNat < 0xc0 then
      let value := value * 64 + (b.toNat - 0x80)
      if remaining ≤ 1 then finish value least else (within value (remaining - 1) least, [])
    else (failed, [])
  | failed => (failed, [])

end Decoder

/-- Drops a byte order mark that comes first. -/
def dropMark (first : Bool) (c : Char) : Bool × List Char :=
  (false, if first ∧ c = '\ufeff' then [] else [c])

def withoutMark : List Char → List Char
  | [] => []
  | c :: s => if c = '\ufeff' then s else c :: s

def encode (s : List Char) : List UInt8 := s.flatMap String.utf8EncodeChar

/-- The text some bytes are, without a byte order mark. -/
def decode (bytes : List UInt8) : Option (List Char) :=
  match run Decoder.step .between bytes with
  | (.between, chars) => some (withoutMark chars)
  | _ => none

/-- The text some bytes are, a byte order mark being a character of it. -/
def decodeExact (bytes : List UInt8) : Option (List Char) :=
  match run Decoder.step .between bytes with
  | (.between, chars) => some chars
  | _ => none

theorem step_lead {n : ℕ} (hn : n < 256) :
    Decoder.step .between (UInt8.ofNat n) = Decoder.first n := by
  rw [Decoder.step, UInt8.toNat_ofNat_of_lt' hn]

theorem step_tail (value remaining least : ℕ) {n : ℕ} (hn : n < 0x40) :
    Decoder.step (.within value remaining least) (UInt8.ofNat (n + 0x80))
      = if remaining ≤ 1 then Decoder.finish (value * 64 + n) least
        else (.within (value * 64 + n) (remaining - 1) least, []) := by
  have hlt : n + 0x80 < 256 := by omega
  simp only [Decoder.step, UInt8.toNat_ofNat_of_lt' hlt]
  rw [if_pos (by omega), Nat.add_sub_cancel]

theorem finish_toNat (c : Char) {least : ℕ} (h : least ≤ c.toNat) :
    Decoder.finish c.toNat least = (.between, [c]) := by
  rw [Decoder.finish, if_pos ⟨h, c.valid⟩, Char.ofNat_toNat]

theorem run_utf8EncodeChar (c : Char) :
    run Decoder.step .between (String.utf8EncodeChar c) = (.between, [c]) := by
  have hvalid : c.toNat < 0xd800 ∨ 0xdfff < c.toNat ∧ c.toNat < 0x110000 := c.valid
  have hval : c.val.toNat = c.toNat := rfl
  unfold String.utf8EncodeChar
  simp only [hval]
  -- one branch for each number of bytes
  split_ifs with h1 h2 h3
  · rw [run_cons, step_lead (by omega), Decoder.first, if_pos (by omega), Char.ofNat_toNat]
    rfl
  · have hv : c.toNat / 64 % 0x20 * 64 + c.toNat % 0x40 = c.toNat := by omega
    rw [run_cons, step_lead (by omega), Decoder.first, if_neg (by omega), if_neg (by omega),
      if_pos (by omega), Nat.add_sub_cancel, run_cons, step_tail _ _ _ (by omega), if_pos le_rfl,
      hv, finish_toNat c (by omega)]
    rfl
  · have hv : (c.toNat / 4096 % 0x10 * 64 + c.toNat / 64 % 0x40) * 64 + c.toNat % 0x40
        = c.toNat := by omega
    rw [run_cons, step_lead (by omega), Decoder.first, if_neg (by omega), if_neg (by omega),
      if_neg (by omega), if_pos (by omega), Nat.add_sub_cancel, run_cons,
      step_tail _ _ _ (by omega), if_neg (by omega), run_cons, step_tail _ _ _ (by omega),
      if_pos (by omega), hv, finish_toNat c (by omega)]
    rfl
  · have hv : ((c.toNat / 262144 % 0x08 * 64 + c.toNat / 4096 % 0x40) * 64
        + c.toNat / 64 % 0x40) * 64 + c.toNat % 0x40 = c.toNat := by omega
    rw [run_cons, step_lead (by omega), Decoder.first, if_neg (by omega), if_neg (by omega),
      if_neg (by omega), if_neg (by omega), if_pos (by omega), Nat.add_sub_cancel, run_cons,
      step_tail _ _ _ (by omega), if_neg (by omega), run_cons, step_tail _ _ _ (by omega),
      if_neg (by omega), run_cons, step_tail _ _ _ (by omega), if_pos (by omega), hv,
      finish_toNat c (by omega)]
    rfl

theorem run_encode (s : List Char) : run Decoder.step .between (encode s) = (.between, s) := by
  rw [encode, run_flatMap run_utf8EncodeChar, List.flatMap_singleton']

theorem run_dropMark_false (s : List Char) : run dropMark false s = (false, s) := by
  induction s with
  | nil => rfl
  | cons c s ih => rw [run_cons, show dropMark false c = (false, [c]) by simp [dropMark], ih]; rfl

theorem decode_encode (s : List Char) : decode (encode s) = some (withoutMark s) := by
  rw [decode, run_encode]

theorem decodeExact_encode (s : List Char) : decodeExact (encode s) = some s := by
  rw [decodeExact, run_encode]

theorem mem_utf8EncodeChar {c : Char} (hc : c ≠ '\x00') : ∀ b ∈ String.utf8EncodeChar c, b ≠ 0 := by
  have hne : c.toNat ≠ 0 := fun h => hc (Char.toNat_inj.1 h)
  have hval : c.val.toNat = c.toNat := rfl
  have hof : ∀ n : ℕ, 0 < n → n < 256 → UInt8.ofNat n ≠ 0 := by
    intro n h0 hn h
    have : (UInt8.ofNat n).toNat = 0 := congrArg UInt8.toNat h
    rw [UInt8.toNat_ofNat_of_lt' hn] at this
    omega
  unfold String.utf8EncodeChar
  simp only [hval]
  split_ifs with h1 h2 h3 <;>
    simp only [List.forall_mem_cons, List.not_mem_nil, false_imp_iff, implies_true, and_true]
  · exact hof _ (by omega) (by omega)
  · exact ⟨hof _ (by omega) (by omega), hof _ (by omega) (by omega)⟩
  · exact ⟨hof _ (by omega) (by omega), hof _ (by omega) (by omega), hof _ (by omega) (by omega)⟩
  · exact ⟨hof _ (by omega) (by omega), hof _ (by omega) (by omega), hof _ (by omega) (by omega),
      hof _ (by omega) (by omega)⟩

/-- Only the NUL has a zero byte, so a padded text up to its first zero byte is the text up to its
first NUL. -/
theorem takeWhile_encode (n : ℕ) : ∀ s : List Char,
    (encode s ++ List.replicate n 0).takeWhile (fun b => b ≠ 0)
      = encode (s.takeWhile fun c => c ≠ '\x00')
  | [] => by cases n <;> simp [encode, List.replicate_succ]
  | c :: s => by
    by_cases hc : c = '\x00'
    · subst hc
      rfl
    · have h : encode (c :: s) = String.utf8EncodeChar c ++ encode s := rfl
      rw [h, List.append_assoc, List.takeWhile_append_of_pos
        (by simpa using mem_utf8EncodeChar hc), takeWhile_encode n s, List.takeWhile_cons,
        if_pos (by simpa using hc)]
      rfl

end Utf8
