import Rackphone.Lib.BigEndian
import Rackphone.Lib.JsonDumps

/-!
# Credential verifiers

`verify_password`, `totp_code`, `verify_totp` and `hash_token` of `gateway/auth.py` on any string.
What `int`, `base64`, `hashlib` and `hmac` compute is a parameter; a text's bytes are its UTF-8
encoding, which a lone surrogate does not have.
-/

namespace Rackphone

open Json (codes IsText)

/-- A string, as its code points. -/
abbrev Str := List ℕ

inductive TextError where
  | typeError
  | encode
deriving DecidableEq

def IsAscii (s : Str) : Prop := ∀ u ∈ s, u < 128

instance : DecidablePred IsAscii := fun s => inferInstanceAs (Decidable (∀ u ∈ s, u < 128))

/-- `hmac.compare_digest` on strings. -/
def compareDigest (a b : Str) : Except TextError Bool :=
  if IsAscii a ∧ IsAscii b then .ok (a = b) else .error .typeError

/-- `str.encode`, the bytes given as the text they encode. -/
def encode (s : Str) : Except TextError String :=
  match Json.text s with
  | some t => .ok (String.ofList t)
  | none => .error .encode

def SCRYPT_MIN_N : ℤ := 2 ^ 12

def SCRYPT_MAX_FACTOR : ℤ := 32

def SCRYPT_MAX_MEMORY_BYTES : ℤ := 128 * 2 ^ 20

def MIN_SALT_BYTES : ℕ := 8

def MIN_HASH_BYTES : ℕ := 16

def TOTP_STEP : ℤ := 30

def TOTP_DIGITS : ℕ := 6

/-- What the standard library computes; nothing stands for an exception that the verifiers catch. -/
structure Crypto where
  int : Str → Option ℤ
  b64decode : Str → Option (List UInt8)
  b32decode : Str → Option (List UInt8)
  scrypt (password : String) (salt : List UInt8) (n r p : ℤ) (dklen : ℕ) : Option (List UInt8)
  hmacSha1 (key message : List UInt8) : List UInt8
  sha256Hex : String → String

def isSupportedCost (n r p : ℤ) : Bool :=
  if n < SCRYPT_MIN_N ∨ n.toNat &&& (n.toNat - 1) ≠ 0 then false
  else if ¬ (1 ≤ r ∧ r ≤ SCRYPT_MAX_FACTOR) ∨ ¬ (1 ≤ p ∧ p ≤ SCRYPT_MAX_FACTOR) then false
  else 128 * n * r ≤ SCRYPT_MAX_MEMORY_BYTES

namespace Crypto

variable (C : Crypto)

/-- The body of `verify_password`'s `try`, with the comparison after it. -/
def matchesRecord (password encoded : Str) : Option Bool :=
  match encoded.splitOn '$'.toNat with
  | [scheme, nText, rText, pText, saltText, hashText] =>
    if scheme ≠ codes "scrypt".toList then some false
    else do
      let n ← C.int nText
      let r ← C.int rText
      let p ← C.int pText
      if !isSupportedCost n r p then return false
      let salt ← C.b64decode saltText
      let expected ← C.b64decode hashText
      if salt.length < MIN_SALT_BYTES ∨ expected.length < MIN_HASH_BYTES then return false
      let bytes ← (encode password).toOption
      let derived ← C.scrypt bytes salt n r p expected.length
      return derived = expected
  | _ => none

def verifyPassword (password encoded : Str) : Bool := (C.matchesRecord password encoded).getD false

def digits (n width : ℕ) : Str :=
  let ds := Nat.toDigits 10 n
  codes (List.replicate (width - ds.length) '0' ++ ds)

def totpCode (secret : String) (t : ℤ) : Option Str := do
  let padding := List.replicate (-(secret.length : ℤ) % 8).toNat '='
  let key ← C.b32decode (codes (secret.toList ++ padding))
  let counter := t / TOTP_STEP
  if 0 ≤ counter ∧ counter < 2 ^ 64 then
    let digest := C.hmacSha1 key (BigEndian.bytes 8 counter.toNat)
    let offset := (digest.getLastD 0).toNat % 16
    let value := BigEndian.value ((digest.drop offset).take 4) % 2 ^ 31
    return digits (value % 10 ^ TOTP_DIGITS) TOTP_DIGITS
  else none

def matchesStep (secret : String) (code : Str) : List ℤ → Option Bool
  | [] => some false
  | t :: ts => do
    let expected ← C.totpCode secret t
    if ← (compareDigest code expected).toOption then return true
    else matchesStep secret code ts

/-- The times of the steps that `verify_totp` accepts. -/
def steps (now : ℤ) : List ℤ := [now - TOTP_STEP, now, now + TOTP_STEP].filter fun t => 0 ≤ t

def verifyTotp (secret : String) (code : Str) (now : ℤ) : Bool :=
  if code.length ≠ TOTP_DIGITS ∨ ¬ IsAscii code ∨ ¬ ∀ u ∈ code, '0'.toNat ≤ u ∧ u ≤ '9'.toNat then
    false
  else (C.matchesStep secret code (steps now)).getD false

def hashToken (token : Str) : Except TextError String := do return C.sha256Hex (← encode token)

end Crypto

end Rackphone
