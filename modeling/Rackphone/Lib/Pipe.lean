import Mathlib

/-!
# A stream on its way

What was sent is what was delivered, what is on the way and what is still behind, while the way is
`live`. Once it is not, what is on the way may be cut short and what comes behind it is lost, but
what is delivered stays the beginning of what was sent.
-/

variable {α : Type*}

structure Intact (live : Prop) (delivered waiting behind sent : List α) : Prop where
  isPrefix : delivered ++ waiting <+: sent
  whole : live → delivered ++ waiting ++ behind = sent

namespace Intact

variable {live live' : Prop} {delivered waiting waiting' behind behind' sent sent' x : List α}

theorem empty : Intact live ([] : List α) [] [] [] := ⟨List.prefix_rfl, fun _ => rfl⟩

theorem delivered_prefix (h : Intact live delivered waiting behind sent) : delivered <+: sent :=
  (List.prefix_append delivered waiting).trans h.isPrefix

theorem send (h : Intact live delivered waiting behind sent) :
    Intact live delivered waiting (behind ++ x) (sent ++ x) where
  isPrefix := h.isPrefix.trans (List.prefix_append sent x)
  whole hl := by rw [← List.append_assoc, h.whole hl]

theorem forward (h : Intact live delivered waiting (x ++ behind) sent) (hl : live) :
    Intact live delivered (waiting ++ x) behind sent := by
  have hw : delivered ++ (waiting ++ x) ++ behind = sent := by
    rw [← h.whole hl]
    simp
  exact ⟨hw ▸ List.prefix_append _ _, fun _ => hw⟩

theorem deliver (h : Intact live delivered (x ++ waiting) behind sent) :
    Intact live (delivered ++ x) waiting behind sent := by
  have hx : delivered ++ (x ++ waiting) = delivered ++ x ++ waiting := by simp
  exact ⟨hx ▸ h.isPrefix, fun hl => hx ▸ h.whole hl⟩

theorem push (h : Intact live delivered waiting [] sent) (hl : live) :
    Intact live delivered (waiting ++ x) [] (sent ++ x) := by
  have hx : Intact live delivered waiting (x ++ []) (sent ++ x) := by
    rw [List.append_nil]
    exact h.send
  exact hx.forward hl

/-- The way is no longer live. -/
theorem lose (h : Intact live delivered waiting behind sent) (hl : ¬ live')
    (hw : waiting' <+: waiting) (hs : sent <+: sent') :
    Intact live' delivered waiting' behind' sent' where
  isPrefix := ((List.prefix_append_right_inj delivered).2 hw).trans (h.isPrefix.trans hs)
  whole hl' := absurd hl' hl

theorem mono (h : Intact live delivered waiting behind sent) (hl : live' → live) :
    Intact live' delivered waiting behind sent :=
  ⟨h.isPrefix, fun hl' => h.whole (hl hl')⟩

end Intact
