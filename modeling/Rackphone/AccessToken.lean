import Rackphone.Lib.Base64
import Rackphone.Lib.Numeral
import Rackphone.Lib.Utf8
import Rackphone.Verifiers

/-!
# Access tokens

`issue_access_token` and `verify_access_token` of `gateway/auth.py`. The keyed digest is a
parameter, and so is what the interpreter knows of characters; nothing stands for an exception.
-/

namespace Rackphone

open Json (codes)

namespace AccessToken

structure AccessClaims where
  refreshId : ℤ
  scope : Str
  expiresAt : ℤ
deriving DecidableEq

def urlsafeEncode (value : List UInt8) : List Char := Base64.encodeUnpadded value

def urlsafeDecode (value : Str) : Option (List UInt8) :=
  if IsAscii value then Base64.decode (Base64.pad (value.map Char.ofNat)) else none

variable (N : Numeral) (digest : List UInt8 → List UInt8 → List UInt8)

/-- The bytes that are signed for some claims, where they can be written. -/
def payload (claims : AccessClaims) : Option (List UInt8) := do
  let refreshId ← N.str claims.refreshId
  let scope ← Json.text claims.scope
  let expiresAt ← N.str claims.expiresAt
  return Utf8.encode ('v' :: '1' :: ':' :: (refreshId ++ ':' :: (scope ++ ':' :: expiresAt)))

def issueAccessToken (key : List UInt8) (refreshId : ℤ) (scope : Str) (expiresAt : ℤ) :
    Option Str := do
  let payload ← payload N ⟨refreshId, scope, expiresAt⟩
  let signature := digest key payload
  return codes (urlsafeEncode payload ++ '.' :: urlsafeEncode signature)

/-- `verify_access_token` once the signature has been compared. -/
def readClaims (payload : List UInt8) (now : ℤ) : Option AccessClaims := do
  let text ← Utf8.decodeExact payload
  match text.splitOn ':' with
  | [version, refreshText, scope, expiryText] =>
    if version ≠ ['v', '1'] then none
    else
      let refreshId ← N.int refreshText
      let expiresAt ← N.int expiryText
      if expiresAt ≤ now then none else some ⟨refreshId, codes scope, expiresAt⟩
  | _ => none

def verifyAccessToken (key : List UInt8) (token : Str) (now : ℤ) : Option AccessClaims :=
  match token.splitOn '.'.toNat with
  | [payloadText, signatureText] => do
    let payload ← urlsafeDecode payloadText
    let signature ← urlsafeDecode signatureText
    let expected := digest key payload
    if signature ≠ expected then none else readClaims N payload now
  | _ => none

/-! ## What a token carries -/

/-- The token is these bytes and this signature, in some spelling. -/
def Carries (token : Str) (payload signature : List UInt8) : Prop :=
  ∃ payloadText signatureText, token.splitOn '.'.toNat = [payloadText, signatureText]
    ∧ urlsafeDecode payloadText = some payload ∧ urlsafeDecode signatureText = some signature

/-- Nobody but the signer makes a MAC: the token has one of a signed payload, or none. -/
def Unforged (key : List UInt8) (signed : Set (List UInt8)) (token : Str) : Prop :=
  ∀ payload, Carries token payload (digest key payload) → payload ∈ signed

/-- What the key signs where it signs for these claims alone. -/
def payloads (issued : Set AccessClaims) : Set (List UInt8) :=
  {p | ∃ claims ∈ issued, payload N claims = some p}

end AccessToken

end Rackphone
