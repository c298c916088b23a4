import Rackphone.BusyClose

/-!
# Which refusals reach the client

The label is cut at 64 characters and the frame holds 123 bytes, 13 of them the token and a blank.
What is sent is read back as it was built by either socket.
-/

namespace Rackphone.BusyClose

variable {label text : List Char}

/-! ## Reading a refusal -/

theorem removeFirst_append {pattern : List Char} (hne : pattern ≠ []) (text : List Char) :
    removeFirst pattern (pattern ++ text) = text := by
  cases pattern with
  | nil => exact absurd rfl hne
  | cons c pattern =>
    have hprefix : (c :: pattern).isPrefixOf (c :: (pattern ++ text)) = true :=
      List.isPrefixOf_iff_prefix.2 (List.prefix_append (c :: pattern) text)
    show removeFirst (c :: pattern) (c :: (pattern ++ text)) = text
    rw [removeFirst, if_pos hprefix]
    exact List.drop_left

theorem trimmedName_cons {c : Char} (hc : isDartSpace c = true) (text : List Char) :
    trimmedName (c :: text) = trimmedName text := by
  have hstrip : Lines.strip isDartSpace (c :: text) = Lines.strip isDartSpace text := by
    rw [Lines.strip, List.dropWhile_cons_of_pos hc, Lines.strip]
  rw [trimmedName, hstrip, trimmedName]

/-- Whoever's token it is, a refusal is classified by it and gives the label back. -/
theorem told_closeReasonOf (label lost : List Char) (closeRequested : Bool) :
    Told label (some (closeReasonOf SESSION_BUSY_REASON lost closeRequested (some WS_POLICY)
      (some (reason label)))) (CloseReason.holder SESSION_BUSY_REASON) := by
  have hprefix : SESSION_BUSY_REASON.isPrefixOf (reason label) = true :=
    List.isPrefixOf_iff_prefix.2 (List.prefix_append _ _)
  have hclose : closeReasonOf SESSION_BUSY_REASON lost closeRequested (some WS_POLICY)
      (some (reason label)) = ⟨.heldByAnotherDevice, reason label⟩ := by
    simp [closeReasonOf, hprefix]
  refine ⟨_, rfl, by rw [hclose], ?_⟩
  rw [hclose, CloseReason.holder, if_neg (by simp), reason, removeFirst_append (by decide),
    trimmedName_cons (by decide)]

/-! ## Sending one -/

theorem length_encode_append (a b : List Char) :
    (Utf8.encode (a ++ b)).length = (Utf8.encode a).length + (Utf8.encode b).length := by
  rw [Utf8.encode, List.flatMap_append, List.length_append]
  rfl

theorem length_encode_reason (label : List Char) :
    (Utf8.encode (reason label)).length = 13 + (Utf8.encode (label.take 64)).length := by
  have hsplit : reason label = (SESSION_BUSY_REASON ++ [' ']) ++ label.take 64 := by
    rw [reason, List.append_assoc]
    rfl
  have htoken : (Utf8.encode (SESSION_BUSY_REASON ++ [' '])).length = 13 := by decide
  rw [hsplit, length_encode_append, htoken]

theorem decode_reason (label : List Char) :
    Utf8.decode (Utf8.encode (reason label)) = some (reason label) := by
  rw [Utf8.decode_encode]
  rfl

/-- A refusal reaches the client exactly where the label, cut to 64 characters, takes no more bytes
than the token leaves. -/
theorem reaches_iff (label : List Char) :
    Reaches label ↔ (Utf8.encode (label.take 64)).length ≤ 110 := by
  constructor
  · rintro ⟨frame, hframe, -⟩
    unfold CloseFrame.encode at hframe
    split_ifs at hframe with hfits
    rw [length_encode_reason, MAX_REASON_BYTES] at hfits
    omega
  · intro hlabel
    have hfits : (Utf8.encode (reason label)).length ≤ MAX_REASON_BYTES := by
      rw [length_encode_reason, MAX_REASON_BYTES]
      omega
    refine ⟨⟨WS_POLICY, Utf8.encode (reason label)⟩, if_pos hfits, fun closeRequested => ?_,
      fun closeRequested ready => ?_⟩
    · rw [decode_reason]
      exact told_closeReasonOf label _ closeRequested
    · rw [decode_reason]
      exact told_closeReasonOf label _ closeRequested

/-- A label of Cyrillic letters, two bytes each. -/
theorem cyrillic_label_not_reaches : ¬ Reaches (List.replicate 64 'я') := by
  rintro ⟨frame, hframe, -⟩
  have hnone : CloseFrame.encode WS_POLICY (reason (List.replicate 64 'я')) = none :=
    if_neg (by decide +kernel)
  rw [hnone] at hframe
  cases hframe

end Rackphone.BusyClose
