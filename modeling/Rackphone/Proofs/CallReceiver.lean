import Rackphone.CallReceiver

/-!
# No call leaves anything behind

Everything kept about a call is clear when no number is kept, since a number that is kept is never
the empty text. `finish` clears it all, so only an idle broadcast that is not collected can leave
it.
-/

namespace Rackphone

theorem Numbers.sanitise_ne {K : KotlinChars} {raw : Option String} {number : String}
    (h : sanitise K raw = some number) : number ≠ "" := by
  unfold sanitise at h
  rcases raw with _ | raw
  · cases h
  · simp only at h
    split_ifs at h with htrim
    rcases hclean : clean K true (Lines.strip K.isWhitespace raw.toList) with _ | cleaned
    · simp [hclean] at h
    · simp only [hclean] at h
      split_ifs at h with hdigits
      rintro rfl
      have hnil : cleaned = [] := by simpa using congrArg String.toList (Option.some.inj h)
      exact hdigits (.inl (by simp [hnil]))

namespace CallReceiver

variable {K : KotlinChars} {s : CallReceiver}

theorem callerOf_ne (b : RingingBroadcast) : callerOf K b ≠ "" := by
  unfold callerOf
  rcases h : (Numbers.sanitise K (some (b.number.getD ""))).or
      (Numbers.sanitise K (some (b.ringingNumber.getD ""))) with _ | number
  · decide
  · rcases Option.or_eq_some_iff.1 h with h | ⟨-, h⟩ <;> exact Numbers.sanitise_ne h

/-- Nothing is kept without a number, nor of a call that is over. -/
structure Inv (s : CallReceiver) : Prop where
  clear : s.ringingFrom = "" → s.Clear
  ended : s.ended = true → s.ringingFrom = ""

theorem inv_start : Inv start := ⟨fun _ => ⟨rfl, rfl, rfl, rfl, rfl, rfl⟩, fun _ => rfl⟩

theorem clear_finish (s : CallReceiver) (now : ℤ) : (s.finish now).Clear := by
  unfold finish
  split_ifs <;> exact ⟨rfl, rfl, rfl, rfl, rfl, rfl⟩

theorem writeCurrentCall_ringingFrom (caller : String) :
    (s.writeCurrentCall caller).ringingFrom = s.ringingFrom := by
  unfold writeCurrentCall
  split_ifs <;> rfl

/-- A ringing broadcast that is collected leaves a number. -/
theorem ringingFrom_startRinging (s : CallReceiver) (b : RingingBroadcast) :
    (s.startRinging K b).ringingFrom ≠ "" := by
  have hcaller := @callerOf_ne K b
  unfold startRinging
  simp only
  by_cases hlate : namesCallerLate (s.ringingFrom ≠ "") s.ringingFrom
      (if callerOf K b = UNKNOWN_CALLER then none else some (callerOf K b)) = true
  · rw [if_pos hlate]
    simpa only [recordRinging, writeCurrentCall_ringingFrom] using hcaller
  · rw [if_neg hlate]
    split_ifs with hnew
    · simpa only [recordRinging, writeCurrentCall_ringingFrom] using hcaller
    · simpa [shouldRecordRinging] using hnew

theorem Clear.opened (h : s.Clear) (b : RingingBroadcast) : Opened K s b (s.startRinging K b) := by
  have hcaller := @callerOf_ne K b
  unfold startRinging
  simp only [h.ringingFrom, h.callId, ne_eq, not_true, decide_false, namesCallerLate,
    Bool.false_and, Bool.false_eq_true, if_false, shouldRecordRinging, Bool.not_false, if_true,
    correlatedCallId]
  unfold writeCurrentCall
  rw [if_neg hcaller]
  exact ⟨rfl, rfl, rfl, rfl, rfl⟩

theorem Clear.frame (h : s.Clear) (ended : Bool) : Clear { s with ended } :=
  ⟨h.ringingFrom, h.ringingSinceMs, h.callAnsweredMs, h.ringingSub, h.callId, h.currentCall⟩

theorem Inv.idle (h : Inv s) {now : ℤ} (hidle : s.IdleCollected (.idle now)) :
    (s.step K (.idle now)).Clear := by
  simp only [step, onReceive]
  split_ifs with hcollect
  · exact (clear_finish s now).frame true
  · exact (h.clear (hidle (Bool.eq_false_iff.2 hcollect))).frame true

theorem Inv.step (h : Inv s) (a : Action) (hidle : s.IdleCollected a) : Inv (s.step K a) := by
  cases a with
  | ringing b =>
    simp only [CallReceiver.step, onReceive]
    split_ifs with hcollect
    · have hne := @ringingFrom_startRinging K s b
      exact ⟨fun hnone => absurd hnone hne, fun hended => by simp [hcollect] at hended⟩
    · refine ⟨fun hnone => (h.clear hnone).frame _, fun hended => h.ended ?_⟩
      exact (Bool.and_eq_true_iff.1 hended).1
  | offhook now =>
    simp only [CallReceiver.step, onReceive]
    split_ifs with hcall
    · exact ⟨fun hnone => absurd hnone hcall.2.1, h.ended⟩
    · exact h
  | idle now =>
    have hclear := h.idle (K := K) hidle
    exact ⟨fun _ => hclear, fun _ => hclear.ringingFrom⟩
  | setCollectCalls value =>
    refine ⟨fun hnone => ?_, h.ended⟩
    have hclear := h.clear hnone
    exact ⟨hclear.ringingFrom, hclear.ringingSinceMs, hclear.callAnsweredMs, hclear.ringingSub,
      hclear.callId, hclear.currentCall⟩

theorem dial_not_busy (h : s.ringingFrom = "") {phone : Phone} (hphone : phone.activeCall = false)
    (callee : String) (sub now : ℤ) : (s.dial K phone callee sub now).error ≠ some "busy" := by
  unfold dial
  split
  · decide
  · rw [if_neg (by simp [hphone, isRinging, h])]
    split_ifs <;> simp

theorem Inv.tidy (h : Inv s) (a : Action) (hidle : s.IdleCollected a) : Tidy K s a where
  idle now ha := by
    subst ha
    exact h.idle hidle
  ringing b ha hcollect hended := by
    subst ha
    have hopened := (h.clear (h.ended hended)).opened (K := K) b
    simp only [CallReceiver.step, onReceive, hcollect, if_true]
    exact ⟨hopened.ringingFrom, hopened.ringingSinceMs, hopened.callAnsweredMs, hopened.callId,
      hopened.recorded⟩
  dial hended phone callee sub now hphone :=
    dial_not_busy ((h.step a hidle).ended hended) hphone callee sub now

theorem Tidy.idleCollected {a : Action} (h : Tidy K s a) : s.IdleCollected a := by
  cases a with
  | idle now =>
    intro hcollect
    have hclear := (h.idle now rfl).ringingFrom
    simpa [CallReceiver.step, onReceive, hcollect] using hclear
  | ringing b => trivial
  | offhook now => trivial
  | setCollectCalls value => trivial

/-- No call leaves anything behind exactly in the runs where no idle broadcast comes, with
collecting off, while a call is tracked. -/
theorem meets_tidy_iff (K : KotlinChars) (as : List Action) :
    Run.Meets (step K) (Tidy K) start as ↔ Run.Meets (step K) IdleCollected start as :=
  Run.meets_iff_meets (fun _ a h hc => h.step a hc)
    (fun _ a h => ⟨fun ht => ht.idleCollected, h.tidy a⟩) as inv_start

def ringing (number : String) (now : ℤ) : RingingBroadcast where
  number := some number
  subscription := 1
  ringingNumber := none
  accountSub := SUB_DEFAULT
  generated := s!"call-{now}"
  now := now

/-- Collecting is switched off while the phone rings and on again after the call: the next call is
taken for a repeat of the first, nothing of it is recorded, and a dial is refused. -/
theorem switched_off_while_ringing :
    (¬ ∀ (K : KotlinChars) (as : List Action), Run.Meets (step K) (Tidy K) start as)
    ∧ (Run.final (step asciiChars) start [.ringing (ringing "+100" 5), .setCollectCalls false,
        .idle 9, .setCollectCalls true, .ringing (ringing "+200" 60)]).recorded
      = (Run.final (step asciiChars) start [.ringing (ringing "+100" 5)]).recorded
    ∧ ((Run.final (step asciiChars) start [.ringing (ringing "+100" 5), .setCollectCalls false,
        .idle 9]).dial asciiChars ⟨false, true, [], SUB_DEFAULT, 1, true⟩ "+300" 1 20).error
      = some "busy" := by
  refine ⟨fun h => ?_, by decide +kernel, by decide +kernel⟩
  have hmeets := h asciiChars [.ringing (ringing "+100" 5), .setCollectCalls false, .idle 9]
  exact absurd (hmeets.2.2.1.idle 9 rfl).ringingFrom (by decide +kernel)

end CallReceiver

end Rackphone
