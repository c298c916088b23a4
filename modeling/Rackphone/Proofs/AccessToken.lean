import Rackphone.AccessToken

/-!
# Access tokens carry what was issued

A payload is taken apart at its colons. Neither numeral has one, so a scope without any is read
back as it is, and with one there are too many parts. Whatever the spelling of a token, its MAC is
compared on the payload that is then read.
-/

namespace Rackphone.AccessToken

open Json (codes)

variable {N : Numeral} {digest : List UInt8 → List UInt8 → List UInt8} {key : List UInt8}
  {token : Str} {now : ℤ} {claims : AccessClaims}

/-! ## The spelling -/

theorem map_ofNat_codes (text : List Char) : (codes text).map Char.ofNat = text := by
  rw [codes, List.map_map]
  exact List.map_id'' Char.ofNat_toNat text

theorem codes_of_text : ∀ {s : Str} {text : List Char}, Json.text s = some text → codes text = s
  | [], text, h => by
    obtain rfl : [] = text := by simpa [Json.text] using h
    rfl
  | u :: s, text, h => by
    unfold Json.text at h
    rw [List.mapM_cons] at h
    split_ifs at h with hu
    · obtain ⟨rest, hrest, h⟩ := Option.bind_eq_some_iff.1 (by simpa using h)
      obtain rfl := Option.some.inj h
      have ih : codes rest = s := codes_of_text hrest
      have hhead : (Char.ofNat u).toNat = u := by rw [Char.toNat_ofNat, if_pos hu]
      show (Char.ofNat u).toNat :: codes rest = u :: s
      rw [hhead, ih]
    · simp at h

theorem mem_codes {u : ℕ} {text : List Char} (h : u ∈ codes text) : ∃ c ∈ text, c.toNat = u :=
  List.mem_map.1 h

theorem urlsafeDecode_encode (value : List UInt8) :
    urlsafeDecode (codes (urlsafeEncode value)) = some value := by
  have hascii : IsAscii (codes (urlsafeEncode value)) := by
    intro u hu
    obtain ⟨c, hc, rfl⟩ := mem_codes hu
    exact (Base64.mem_encodeUnpadded hc).2
  rw [urlsafeDecode, if_pos hascii, map_ofNat_codes]
  exact Base64.decode_pad_encodeUnpadded value

theorem dot_not_mem (value : List UInt8) : '.'.toNat ∉ codes (urlsafeEncode value) := by
  intro h
  obtain ⟨c, hc, hdot⟩ := mem_codes h
  exact (Base64.mem_encodeUnpadded hc).1 (Char.toNat_inj.1 hdot)

/-- An issued token carries its payload and the digest of it. -/
theorem splitOn_issued (payload signature : List UInt8) :
    (codes (urlsafeEncode payload ++ '.' :: urlsafeEncode signature)).splitOn '.'.toNat
      = [codes (urlsafeEncode payload), codes (urlsafeEncode signature)] := by
  have hcodes : codes (urlsafeEncode payload ++ '.' :: urlsafeEncode signature)
      = codes (urlsafeEncode payload) ++ '.'.toNat :: codes (urlsafeEncode signature) := by
    simp [codes]
  rw [hcodes, List.splitOn_append_cons_self_of_not_mem (dot_not_mem payload),
    List.splitOn_eq_singleton (dot_not_mem signature)]

/-! ## The payload -/

theorem payload_eq_some {p : List UInt8} (h : payload N claims = some p) :
    ∃ refreshId scope expiresAt, N.str claims.refreshId = some refreshId
      ∧ Json.text claims.scope = some scope ∧ N.str claims.expiresAt = some expiresAt
      ∧ p = Utf8.encode
        ('v' :: '1' :: ':' :: (refreshId ++ ':' :: (scope ++ ':' :: expiresAt))) := by
  unfold payload at h
  cases hid : N.str claims.refreshId with
  | none => simp [hid] at h
  | some refreshId =>
    cases hscope : Json.text claims.scope with
    | none => simp [hid, hscope] at h
    | some scope =>
      cases hexp : N.str claims.expiresAt with
      | none => simp [hid, hscope, hexp] at h
      | some expiresAt =>
        simp only [hid, hscope, hexp] at h
        exact ⟨refreshId, scope, expiresAt, rfl, rfl, rfl, (Option.some.inj h).symm⟩

theorem colon_not_mem {n : ℤ} {text : List Char} (h : N.str n = some text) : ':' ∉ text := by
  unfold Numeral.str at h
  split_ifs at h
  obtain rfl := Option.some.inj h
  intro hmem
  rcases Numeral.mem_printNum hmem with hminus | ⟨d, hd, hdigit⟩
  · exact absurd hminus (by decide)
  · exact (Numeral.digitChar_ne d hd).2.2.2 hdigit.symm

/-- The parts of a payload: the version, the first numeral, those of the scope, and the last. -/
theorem splitOn_payload {refreshId scope expiresAt : List Char} (hid : ':' ∉ refreshId)
    (hexp : ':' ∉ expiresAt) :
    ('v' :: '1' :: ':' :: (refreshId ++ ':' :: (scope ++ ':' :: expiresAt))).splitOn ':'
      = ['v', '1'] :: refreshId :: (scope.splitOn ':' ++ [expiresAt]) := by
  have hversion : ':' ∉ ['v', '1'] := by decide
  show (['v', '1'] ++ ':' :: (refreshId ++ ':' :: (scope ++ ':' :: expiresAt))).splitOn ':' = _
  rw [List.splitOn_append_cons_self_of_not_mem hversion,
    List.splitOn_append_cons_self_of_not_mem hid, List.splitOn_append_cons_self,
    List.splitOn_eq_singleton hexp]

/-- A payload is read back where its scope has no colon, and is refused where it has one. -/
theorem readClaims_payload {p : List UInt8} (h : payload N claims = some p) (now : ℤ) :
    readClaims N p now
      = if ':'.toNat ∉ claims.scope ∧ now < claims.expiresAt then some claims else none := by
  obtain ⟨refreshId, scope, expiresAt, hid, hscope, hexp, rfl⟩ := payload_eq_some h
  have hcolon : ':'.toNat ∈ claims.scope ↔ ':' ∈ scope := by
    rw [← codes_of_text hscope]
    constructor
    · intro hmem
      obtain ⟨c, hc, hcolon⟩ := mem_codes hmem
      rwa [← Char.toNat_inj.1 hcolon]
    · exact fun hmem => List.mem_map_of_mem hmem
  unfold readClaims
  rw [Utf8.decodeExact_encode, Option.bind_eq_bind, Option.bind_some,
    splitOn_payload (colon_not_mem hid) (colon_not_mem hexp)]
  by_cases hmem : ':' ∈ scope
  · obtain ⟨before, after, rfl⟩ := List.append_of_mem hmem
    rw [if_neg (fun hnot => hnot.1 (hcolon.2 hmem)), List.splitOn_append_cons_self]
    rcases hb : before.splitOn ':' with _ | ⟨b, bs⟩
    · exact absurd hb (List.splitOn_ne_nil _ _)
    · rcases ha : after.splitOn ':' with _ | ⟨a, as⟩
      · exact absurd ha (List.splitOn_ne_nil _ _)
      · rcases bs with _ | ⟨b', bs⟩ <;> rcases as with _ | ⟨a', as⟩ <;> simp
  · rw [List.splitOn_eq_singleton hmem]
    simp only [List.cons_append, List.nil_append, Numeral.int_str hid, Numeral.int_str hexp,
      Option.bind_eq_bind, Option.bind_some, codes_of_text hscope, hcolon, hmem,
      not_false_eq_true, true_and, ne_eq, not_true_eq_false, ↓reduceIte]
    by_cases hexpired : claims.expiresAt ≤ now
    · rw [if_pos hexpired, if_neg (not_lt.2 hexpired)]
    · rw [if_neg hexpired, if_pos (not_le.1 hexpired)]

/-! ## Issuing and verifying -/

theorem verify_issued {refreshId expiresAt : ℤ} {scope : Str} (hscope : ':'.toNat ∉ scope)
    (h : issueAccessToken N digest key refreshId scope expiresAt = some token) (now : ℤ) :
    verifyAccessToken N digest key token now
      = if now < expiresAt then some ⟨refreshId, scope, expiresAt⟩ else none := by
  unfold issueAccessToken at h
  obtain ⟨p, hp, htoken⟩ := Option.bind_eq_some_iff.1 h
  obtain rfl := Option.some.inj htoken
  unfold verifyAccessToken
  rw [splitOn_issued]
  simp only [urlsafeDecode_encode, Option.bind_eq_bind, Option.bind_some, ne_eq, not_true_eq_false,
    ↓reduceIte, readClaims_payload hp, hscope, not_false_eq_true, true_and]

/-- What is accepted carries the MAC of the payload its claims are read from. -/
theorem verify_eq_some (h : verifyAccessToken N digest key token now = some claims) :
    ∃ p, Carries token p (digest key p) ∧ readClaims N p now = some claims := by
  unfold verifyAccessToken at h
  split at h
  · rename_i payloadText signatureText hsplit
    obtain ⟨p, hp, h⟩ := Option.bind_eq_some_iff.1 h
    obtain ⟨signature, hsignature, h⟩ := Option.bind_eq_some_iff.1 h
    dsimp only at h
    split_ifs at h with heq
    rw [ne_eq, not_not] at heq
    exact ⟨p, ⟨payloadText, signatureText, hsplit, hp, by rw [hsignature, heq]⟩, h⟩
  · simp at h

theorem verify_unforged {issued : Set AccessClaims}
    (hunforged : Unforged digest key (payloads N issued) token)
    (h : verifyAccessToken N digest key token now = some claims) : claims ∈ issued := by
  obtain ⟨p, hcarries, hread⟩ := verify_eq_some h
  obtain ⟨claims', hissued, hp⟩ := hunforged p hcarries
  rw [readClaims_payload hp] at hread
  split_ifs at hread
  obtain rfl := Option.some.inj hread
  exact hissued

/-- Tokens round-trip, and no spelling of one says anything that was not issued. -/
theorem access_tokens_sound (N : Numeral) (digest : List UInt8 → List UInt8 → List UInt8)
    (key : List UInt8) :
    (∀ refreshId scope expiresAt token, ':'.toNat ∉ scope →
        issueAccessToken N digest key refreshId scope expiresAt = some token →
        ∀ now, verifyAccessToken N digest key token now
          = if now < expiresAt then some ⟨refreshId, scope, expiresAt⟩ else none)
      ∧ ∀ token now claims, verifyAccessToken N digest key token now = some claims →
        (∃ p, Carries token p (digest key p) ∧ readClaims N p now = some claims)
          ∧ ∀ issued, Unforged digest key (payloads N issued) token → claims ∈ issued :=
  ⟨fun _ _ _ _ hscope h now => verify_issued hscope h now,
    fun _ _ _ h => ⟨verify_eq_some h, fun _ hunforged => verify_unforged hunforged h⟩⟩

/-! ## A token in ASCII -/

def asciiDecimal (c : Char) : Option ℕ :=
  if '0' ≤ c ∧ c ≤ '9' then some (c.toNat - 48) else none

theorem asciiDecimal_digitChar : ∀ d < 10, asciiDecimal (Nat.digitChar d) = some d := by decide

theorem isWhitespace_digitChar : ∀ d < 10, (Nat.digitChar d).isWhitespace = false := by decide

theorem isWhitespace_minus : '-'.isWhitespace = false := rfl

def ascii : Numeral :=
  ⟨Char.isWhitespace, asciiDecimal, 4300, asciiDecimal_digitChar, isWhitespace_digitChar,
    isWhitespace_minus⟩

def joined (key payload : List UInt8) : List UInt8 := key ++ payload.take 2

def readToken : Str := codes "djE6NDI6cmVhZDoyMDAw.AXYx".toList

theorem read_token_verified :
    verifyAccessToken ascii joined [1] readToken 1999 = some ⟨42, codes "read".toList, 2000⟩ :=
  (access_tokens_sound ascii joined [1]).1 42 (codes "read".toList) 2000 readToken (by decide)
    (by decide +kernel) 1999

end Rackphone.AccessToken
