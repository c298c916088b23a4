import Rackphone.Proofs.Lockout
import Rackphone.RecoveryCodes

/-!
# When a recovery code is used once

A hash is inserted once and no `UPDATE` clears `used_at`, so a code that was consumed is never
accepted again. An enrolment's codes are gone once a later call has deleted them, unless the
enrolment was still inserting: two calls that overlap may delete first and insert afterwards.
-/

namespace Rackphone

namespace RecoveryCodes

variable {G : Gate} {s : RecoveryCodes}

/-- The hash is one of a call's, and the call is past inserting it. -/
def Inserted (s : RecoveryCodes) (h : String) : Prop :=
  ∃ (i : ℕ) (c : TotpCall), s.calls[i]? = some c ∧ h ∈ c.change.hashes ∧ h ∉ c.toInsert

structure Codes (s : RecoveryCodes) : Prop where
  unique : ∀ (i j : ℕ) (c d : TotpCall) (h : String), s.calls[i]? = some c →
    s.calls[j]? = some d → h ∈ c.change.hashes → h ∈ d.change.hashes → i = j
  toInsert : ∀ c ∈ s.calls, c.toInsert.Nodup ∧ c.toInsert ⊆ c.change.hashes
  turn_lt : ∀ c ∈ s.calls, ∀ t ∈ c.turn, t < s.turns
  accepted : ∀ h, s.Accepts h → s.Inserted h
  redeemed : ∀ h ∈ s.redeemed.map Prod.snd, s.Inserted h ∧ ¬ s.Accepts h
  once : (s.redeemed.map Prod.snd).Nodup
  replaced : ∀ c ∈ s.calls, s.Over c → ∀ h ∈ c.change.hashes, ¬ s.Accepts h

theorem codes_start (tables : LoginStore) : Codes (start tables) where
  unique _ _ _ _ _ h := by simp [start] at h
  toInsert _ h := absurd h List.not_mem_nil
  turn_lt _ h := absurd h List.not_mem_nil
  accepted _ h := by simp [Accepts, start] at h
  redeemed _ h := absurd h List.not_mem_nil
  once := List.nodup_nil
  replaced _ h := absurd h List.not_mem_nil

/-- What no statement of the calls reads or writes. -/
theorem Codes.frame (h : Codes s) {store : LoginStore} (attempts : List FactorAttempt)
    (hcodes : store.recoveryCodes = s.store.recoveryCodes) :
    Codes { s with store, attempts } := by
  have hacc : ∀ x, ({ s with store, attempts } : RecoveryCodes).Accepts x ↔ s.Accepts x := by
    simp [Accepts, hcodes]
  refine ⟨h.unique, h.toInsert, h.turn_lt, fun x hx => h.accepted x ((hacc x).1 hx),
    fun x hx => ⟨(h.redeemed x hx).1, fun hx' => (h.redeemed x hx).2 ((hacc x).1 hx')⟩, h.once,
    fun c hc hover x hx hx' => h.replaced c hc hover x hx ((hacc x).1 hx')⟩

theorem accepts_consume {code : String} {now : ℤ}
    (h : (s.store.consumeRecoveryCode code now).2 = true) :
    s.Accepts code ∧ (s.store.consumeRecoveryCode code now).1.recoveryCodes
      = s.store.recoveryCodes.set code (some now) := by
  unfold LoginStore.consumeRecoveryCode at h ⊢
  unfold Accepts
  split at h
  · rename_i hget
    exact ⟨hget, rfl⟩
  · exact absurd h Bool.false_ne_true

theorem get_set_eq_some_none {codes : Dict String (Option ℤ)} {code x : String} {now : ℤ}
    (h : (codes.set code (some now)).get x = some none) : x ≠ code ∧ codes.get x = some none := by
  rw [Dict.get_set] at h
  split_ifs at h with hx
  · simp at h
  · exact ⟨hx, h⟩

/-- A code that satisfies an attempt is spent. -/
theorem Codes.redeem (h : Codes s) {code : String} {now : ℤ} (i : ℕ)
    (attempts : List FactorAttempt) (hused : (s.store.consumeRecoveryCode code now).2 = true) :
    Codes { s with
      store := (s.store.consumeRecoveryCode code now).1
      attempts
      redeemed := s.redeemed ++ [(i, code)] } := by
  obtain ⟨hcode, hset⟩ := accepts_consume hused
  have hacc : ∀ x, (s.store.consumeRecoveryCode code now).1.recoveryCodes.get x = some none →
      x ≠ code ∧ s.Accepts x := fun x hx => get_set_eq_some_none (hset ▸ hx)
  refine ⟨h.unique, h.toInsert, h.turn_lt, fun x hx => h.accepted x (hacc x hx).2, fun x hx => ?_,
    ?_, fun c hc hover x hx hx' => h.replaced c hc hover x hx (hacc x hx').2⟩
  · rw [List.map_append, List.mem_append] at hx
    rcases hx with hx | hx
    · exact ⟨(h.redeemed x hx).1, fun hx' => (h.redeemed x hx).2 (hacc x hx').2⟩
    · rw [List.mem_singleton.1 hx]
      exact ⟨h.accepted code hcode, fun hx' => (hacc code hx').1 rfl⟩
  · refine Table.nodup_concat h.once fun hmem => ?_
    exact (h.redeemed code hmem).2 hcode

section Calls

variable {j : ℕ} {c : TotpCall} {phase : TotpPhase}

theorem getElem?_moveOn (s : RecoveryCodes) (hj : s.calls[j]? = some c) (i : ℕ) :
    (s.moveOn j c phase).calls[i]? = if i = j then some { c with phase } else s.calls[i]? := by
  obtain ⟨hlt, -⟩ := List.getElem?_eq_some_iff.1 hj
  simp only [moveOn, List.getElem?_set, hlt, if_true]
  simp only [eq_comm]

theorem mem_moveOn (hj : s.calls[j]? = some c) {d : TotpCall}
    (hd : d ∈ (s.moveOn j c phase).calls) :
    d = { c with phase } ∨ ∃ i ≠ j, s.calls[i]? = some d := by
  obtain ⟨i, hi⟩ := List.mem_iff_getElem?.1 hd
  rw [getElem?_moveOn s hj] at hi
  split_ifs at hi with h
  · exact .inl (Option.some.inj hi).symm
  · exact .inr ⟨i, h, hi⟩

/-- What a call's statement has to keep: it takes from what the call has to insert, and accepts
only what it took. -/
theorem Codes.moveOn (h : Codes s) (hj : s.calls[j]? = some c) {store : LoginStore} {turns : ℕ}
    (hto : ({ c with phase } : TotpCall).toInsert.Sublist c.toInsert)
    (hle : s.turns ≤ turns) (hturn : ∀ t ∈ ({ c with phase } : TotpCall).turn, t < turns)
    (hacc : ∀ x, store.recoveryCodes.get x = some none →
      s.Accepts x ∨ x ∈ c.toInsert ∧ x ∉ ({ c with phase } : TotpCall).toInsert)
    (hover : ∀ d ∈ (s.moveOn j c phase).calls, (s.moveOn j c phase).Over d →
      ∀ x ∈ d.change.hashes, store.recoveryCodes.get x ≠ some none) :
    Codes ({ s with store, turns }.moveOn j c phase) := by
  have hmem : c ∈ s.calls := List.mem_of_getElem? hj
  have hget : ∀ (i : ℕ) (d : TotpCall), (s.moveOn j c phase).calls[i]? = some d →
      ∃ d₀, s.calls[i]? = some d₀ ∧ d₀.change = d.change ∧ d.toInsert.Sublist d₀.toInsert := by
    intro i d hi
    rw [getElem?_moveOn s hj] at hi
    split_ifs at hi with hij
    · obtain rfl := Option.some.inj hi
      exact ⟨c, hij ▸ hj, rfl, hto⟩
    · exact ⟨d, hi, rfl, List.Sublist.refl _⟩
  have hkeep : ∀ x, s.Inserted x → (s.moveOn j c phase).Inserted x := by
    rintro x ⟨i, d, hi, hx, hnot⟩
    by_cases hij : i = j
    · subst hij
      obtain rfl := Option.some.inj (hj.symm.trans hi)
      refine ⟨i, { c with phase }, ?_, hx, fun hx' => hnot (hto.subset hx')⟩
      rw [getElem?_moveOn s hj, if_pos rfl]
    · exact ⟨i, d, by rw [getElem?_moveOn s hj, if_neg hij, hi], hx, hnot⟩
  refine ⟨fun i i' d d' x hi hi' hx hx' => ?_, fun d hd => ?_, fun d hd t ht => ?_, fun x hx => ?_,
    fun x hx => ⟨hkeep x (h.redeemed x hx).1, fun hx' => ?_⟩, h.once, hover⟩
  · obtain ⟨d₀, h₀, hd, -⟩ := hget i d hi
    obtain ⟨d₁, h₁, hd', -⟩ := hget i' d' hi'
    exact h.unique i i' d₀ d₁ x h₀ h₁ (hd ▸ hx) (hd' ▸ hx')
  · obtain ⟨i, hi⟩ := List.mem_iff_getElem?.1 hd
    obtain ⟨d₀, h₀, hchange, hsub⟩ := hget i d hi
    obtain ⟨hnd, hsubset⟩ := h.toInsert d₀ (List.mem_of_getElem? h₀)
    exact ⟨hnd.sublist hsub, fun x hx => hchange ▸ hsubset (hsub.subset hx)⟩
  · rcases mem_moveOn hj hd with rfl | ⟨i, -, hi⟩
    · exact hturn t ht
    · exact (h.turn_lt d (List.mem_of_getElem? hi) t ht).trans_le hle
  · rcases hacc x hx with hold | ⟨hin, hout⟩
    · exact hkeep x (h.accepted x hold)
    · refine ⟨j, { c with phase }, ?_, (h.toInsert c hmem).2 hin, hout⟩
      exact (getElem?_moveOn s hj j).trans (if_pos rfl)
  · obtain ⟨⟨i, d, hi, hxd, hnot⟩, hspent⟩ := h.redeemed x hx
    rcases hacc x hx' with hold | ⟨hin, -⟩
    · exact hspent hold
    · obtain rfl := h.unique i j d c x hi hj hxd ((h.toInsert c hmem).2 hin)
      obtain rfl := Option.some.inj (hj.symm.trans hi)
      exact hnot hin

/-- A call that keeps its turn, and has deleted before and after, ends no other enrolment. -/
theorem over_moveOn_iff (hj : s.calls[j]? = some c)
    (hturn : ({ c with phase } : TotpCall).turn = c.turn)
    (hdel : ({ c with phase } : TotpCall).HasDeleted ↔ c.HasDeleted) (d : TotpCall) :
    (s.moveOn j c phase).Over d ↔ s.Over d := by
  constructor
  · rintro ⟨e, he, hdeleted, t, ht, u, hu, hlt⟩
    rcases mem_moveOn hj he with rfl | ⟨i, -, hi⟩
    · exact ⟨c, List.mem_of_getElem? hj, hdel.1 hdeleted, t, ht, u, hturn ▸ hu, hlt⟩
    · exact ⟨e, List.mem_of_getElem? hi, hdeleted, t, ht, u, hu, hlt⟩
  · rintro ⟨e, he, hdeleted, t, ht, u, hu, hlt⟩
    obtain ⟨i, hi⟩ := List.mem_iff_getElem?.1 he
    have hmem : ∀ {d}, (s.moveOn j c phase).calls[i]? = some d →
        d ∈ (s.moveOn j c phase).calls := List.mem_of_getElem?
    by_cases hij : i = j
    · obtain rfl := Option.some.inj (hj.symm.trans (hij ▸ hi))
      refine ⟨{ c with phase }, hmem ?_, hdel.2 hdeleted, t, ht, u, hturn.symm ▸ hu, hlt⟩
      exact (getElem?_moveOn s hj i).trans (if_pos hij)
    · exact ⟨e, hmem ((getElem?_moveOn s hj i).trans ((if_neg hij).trans hi)), hdeleted, t, ht, u,
        hu, hlt⟩

theorem over_congr {d d' : TotpCall} (h : d.turn = d'.turn) : s.Over d ↔ s.Over d' := by
  unfold Over
  rw [h]

/-- Where no call has just deleted and no turn is new, nothing more is over. -/
theorem Codes.replaced_moveOn (h : Codes s) (hj : s.calls[j]? = some c)
    (hturn : ({ c with phase } : TotpCall).turn = c.turn)
    (hdel : ({ c with phase } : TotpCall).HasDeleted ↔ c.HasDeleted) :
    ∀ d ∈ (s.moveOn j c phase).calls, (s.moveOn j c phase).Over d →
      ∀ x ∈ d.change.hashes, ¬ s.Accepts x := by
  intro d hd hover x hx
  rw [over_moveOn_iff hj hturn hdel] at hover
  rcases mem_moveOn hj hd with rfl | ⟨i, -, hi⟩
  · exact h.replaced c (List.mem_of_getElem? hj) ((over_congr hturn).1 hover) x hx
  · exact h.replaced d (List.mem_of_getElem? hi) hover x hx

/-- The statement that sets or deletes the secret. -/
theorem Codes.store (h : Codes s) (hj : s.calls[j]? = some c) (hphase : c.phase = .started)
    {store : LoginStore} (hcodes : store.recoveryCodes = s.store.recoveryCodes) :
    Codes ({ s with store, turns := s.turns + 1 }.moveOn j c (.stored s.turns)) := by
  have hto : ({ c with phase := .stored s.turns } : TotpCall).toInsert = c.toInsert := by
    simp only [TotpCall.toInsert, hphase]
  refine h.moveOn hj (hto ▸ List.Sublist.refl _) (Nat.le_succ _) (fun t ht => ?_)
    (fun x hx => .inl (by unfold Accepts; rwa [← hcodes])) fun d hd hover x hx => ?_
  · obtain rfl := Option.some.inj ht
    exact Nat.lt_succ_self _
  · -- the call itself has deleted nothing, and no turn is above its own
    obtain ⟨e, he, hdeleted, t, ht, u, hu, hlt⟩ := hover
    rcases mem_moveOn hj he with rfl | ⟨i, -, hi⟩
    · exact hdeleted.elim
    · rw [hcodes]
      rcases mem_moveOn hj hd with rfl | ⟨i', -, hi'⟩
      · obtain rfl := Option.some.inj ht
        exact absurd hlt (h.turn_lt e (List.mem_of_getElem? hi) u hu).asymm
      · exact h.replaced d (List.mem_of_getElem? hi')
          ⟨e, List.mem_of_getElem? hi, hdeleted, t, ht, u, hu, hlt⟩ x hx

/-- `DELETE FROM recovery_codes`. -/
theorem Codes.delete (h : Codes s) (hj : s.calls[j]? = some c) {turn : ℕ}
    (hphase : c.phase = .stored turn) :
    Codes ({ s with store := { s.store with recoveryCodes := .empty } }.moveOn j c
      (.inserting turn c.change.hashes)) := by
  have hto : ({ c with phase := .inserting turn c.change.hashes } : TotpCall).toInsert
      = c.toInsert := by
    simp only [TotpCall.toInsert, hphase]
  have hturn : ({ c with phase := .inserting turn c.change.hashes } : TotpCall).turn = c.turn := by
    simp only [TotpCall.turn, hphase]
  refine @Codes.moveOn s j c _ h hj _ s.turns (hto ▸ List.Sublist.refl _) le_rfl ?_ ?_ ?_
  · rw [hturn]
    exact h.turn_lt c (List.mem_of_getElem? hj)
  · exact fun x hx => absurd hx (by simp)
  · exact fun d _ _ x _ => by simp

/-- The insert of one code, made while the enrolment is not over. -/
theorem Codes.insert (h : Codes s) (hj : s.calls[j]? = some c) {turn : ℕ} {code : String}
    {rest : List String} (hphase : c.phase = .inserting turn (code :: rest))
    (hcurrent : ¬ s.Over c) :
    Codes ({ s with store := { s.store with
      recoveryCodes := s.store.recoveryCodes.set code none } }.moveOn j c
        (.inserting turn rest)) := by
  have hmem : c ∈ s.calls := List.mem_of_getElem? hj
  have hall : c.toInsert = code :: rest := by simp only [TotpCall.toInsert, hphase]
  have hnot : code ∉ rest := (List.nodup_cons.1 (hall ▸ (h.toInsert c hmem).1)).1
  have hturn : ({ c with phase := .inserting turn rest } : TotpCall).turn = c.turn := by
    simp only [TotpCall.turn, hphase]
  have hdel : ({ c with phase := .inserting turn rest } : TotpCall).HasDeleted ↔ c.HasDeleted := by
    simp only [TotpCall.HasDeleted, hphase]
  refine @Codes.moveOn s j c _ h hj _ s.turns ?_ le_rfl ?_ (fun x hx => ?_)
    fun d hd hover x hx hx' => ?_
  · rw [hall]
    exact List.sublist_cons_self code rest
  · rw [hturn]
    exact h.turn_lt c hmem
  · rw [Dict.get_set] at hx
    split_ifs at hx with hxc
    · rw [hall, hxc]
      exact .inr ⟨List.mem_cons_self, hnot⟩
    · exact .inl hx
  · rw [Dict.get_set] at hx'
    split_ifs at hx' with hxc
    · -- the code is this call's alone, and this call's enrolment is not over
      rw [over_moveOn_iff hj hturn hdel] at hover
      rcases mem_moveOn hj hd with rfl | ⟨i, hij, hi⟩
      · exact hcurrent ((over_congr hturn).1 hover)
      · have hcode : code ∈ c.change.hashes :=
          (h.toInsert c hmem).2 (hall ▸ List.mem_cons_self)
        exact hij (h.unique i j d c code hi hj (hxc ▸ hx) hcode)
    · exact h.replaced_moveOn hj hturn hdel d hd hover x hx hx'

theorem Codes.commit (h : Codes s) (hj : s.calls[j]? = some c) {turn : ℕ}
    (hphase : c.phase = .inserting turn []) : Codes (s.moveOn j c (.committed turn)) := by
  have hturn : ({ c with phase := .committed turn } : TotpCall).turn = c.turn := by
    simp only [TotpCall.turn, hphase]
  have hdel : ({ c with phase := .committed turn } : TotpCall).HasDeleted ↔ c.HasDeleted := by
    simp only [TotpCall.HasDeleted, hphase]
  refine @Codes.moveOn s j c _ h hj s.store s.turns (List.nil_sublist _) le_rfl ?_
    (fun x hx => .inl hx) (h.replaced_moveOn hj hturn hdel)
  rw [hturn]
  exact h.turn_lt c (List.mem_of_getElem? hj)

end Calls

/-- A call that begins with codes of its own. -/
theorem Codes.call (h : Codes s) {change : TotpChange} (hfresh : s.FreshCodes (.call change)) :
    Codes { s with calls := s.calls ++ [⟨change, .started⟩] } := by
  obtain ⟨hnd, hnew⟩ := hfresh
  have hmem : ∀ {d}, d ∈ s.calls ++ [⟨change, .started⟩] → d ∈ s.calls ∨ d = ⟨change, .started⟩ :=
    fun hd => (List.mem_append.1 hd).imp_right List.mem_singleton.1
  have hget : ∀ (i : ℕ) (d : TotpCall), (s.calls ++ [⟨change, .started⟩])[i]? = some d →
      s.calls[i]? = some d ∨ i = s.calls.length ∧ d = ⟨change, .started⟩ := by
    intro i d hi
    rw [List.getElem?_append] at hi
    split_ifs at hi with hlt
    · exact .inl hi
    · rw [List.getElem?_singleton] at hi
      split_ifs at hi with hz
      exact .inr ⟨by omega, (Option.some.inj hi).symm⟩
  have hkeep : ∀ x, s.Inserted x →
      ({ s with calls := s.calls ++ [⟨change, .started⟩] } : RecoveryCodes).Inserted x := by
    rintro x ⟨i, d, hi, hx, hnot⟩
    have hlt := (List.getElem?_eq_some_iff.1 hi).1
    exact ⟨i, d, (List.getElem?_append_left hlt).trans hi, hx, hnot⟩
  refine ⟨fun i j c d x hi hj hx hx' => ?_, fun d hd => ?_, fun d hd t ht => ?_,
    fun x hx => hkeep x (h.accepted x hx),
    fun x hx => ⟨hkeep x (h.redeemed x hx).1, (h.redeemed x hx).2⟩, h.once,
    fun d hd hover x hx => ?_⟩
  · rcases hget i c hi with hi | ⟨rfl, rfl⟩ <;> rcases hget j d hj with hj | ⟨rfl, rfl⟩
    · exact h.unique i j c d x hi hj hx hx'
    · exact absurd hx (hnew c (List.mem_of_getElem? hi) x hx')
    · exact absurd hx' (hnew d (List.mem_of_getElem? hj) x hx)
    · rfl
  · rcases hmem hd with hd | rfl
    · exact h.toInsert d hd
    · exact ⟨hnd, List.Subset.refl _⟩
  · rcases hmem hd with hd | rfl
    · exact h.turn_lt d hd t ht
    · exact absurd ht (by simp [TotpCall.turn])
  · obtain ⟨e, he, hdeleted, t, ht, u, hu, hlt⟩ := hover
    have he : e ∈ s.calls := (hmem he).resolve_right fun he => by
      simp [he, TotpCall.HasDeleted] at hdeleted
    rcases hmem hd with hd | rfl
    · exact h.replaced d hd ⟨e, he, hdeleted, t, ht, u, hu, hlt⟩ x hx
    · exact absurd ht (by simp [TotpCall.turn])

/-- Past the check of the name and the password, and not refused since. -/
def Known (a : FactorAttempt) : Prop :=
  match a.phase with
  | .verified | .challenged _ | .redeemed => True
  | _ => False

variable (G) in
structure Attempts (attempts : List FactorAttempt) (redeemed : List (ℕ × String)) : Prop where
  verified : ∀ a ∈ attempts, Known a →
    a.credentials.username = G.adminUsername ∧ G.verifyPassword a.credentials.password = true
  earned : ∀ r ∈ redeemed, ∃ a ∈ attempts[r.1]?, a.phase = .redeemed

theorem attempts_nil : Attempts G [] [] :=
  ⟨fun _ h => absurd h List.not_mem_nil, fun _ h => absurd h List.not_mem_nil⟩

theorem Attempts.begin (h : Attempts G s.attempts s.redeemed) (credentials : Credentials)
    (now : ℤ) : Attempts G (s.attempts ++ [⟨credentials, now, .started⟩]) s.redeemed := by
  refine ⟨fun b hb hk => ?_, fun r hr => ?_⟩
  · rcases List.mem_append.1 hb with hb | hb
    · exact h.verified b hb hk
    · rw [List.mem_singleton.1 hb] at hk
      exact hk.elim
  · obtain ⟨b, hb, hphase⟩ := h.earned r hr
    have hlt := (List.getElem?_eq_some_iff.1 hb).1
    exact ⟨b, (List.getElem?_append_left hlt).trans hb, hphase⟩

section Check

variable {i : ℕ} {a : FactorAttempt} {phase : FactorPhase}

theorem getElem?_goto (hi : s.attempts[i]? = some a) (k : ℕ) :
    (s.goto i a phase).attempts[k]? = if i = k then some { a with phase } else s.attempts[k]? := by
  obtain ⟨hlt, -⟩ := List.getElem?_eq_some_iff.1 hi
  simp only [goto, List.getElem?_set, hlt, if_true]

/-- An attempt that has not used a code moves on, to where its credentials allow. -/
theorem Attempts.goto (h : Attempts G s.attempts s.redeemed) (hi : s.attempts[i]? = some a)
    (hphase : a.phase ≠ .redeemed)
    (hknown : Known { a with phase } → a.credentials.username = G.adminUsername
      ∧ G.verifyPassword a.credentials.password = true) :
    Attempts G (s.goto i a phase).attempts s.redeemed := by
  refine ⟨fun b hb hk => ?_, fun r hr => ?_⟩
  · rcases List.mem_or_eq_of_mem_set hb with hb | rfl
    · exact h.verified b hb hk
    · exact hknown hk
  · obtain ⟨b, hb, hbphase⟩ := h.earned r hr
    refine ⟨b, ?_, hbphase⟩
    rw [Option.mem_def, getElem?_goto hi, if_neg]
    · exact hb
    · rintro rfl
      exact hphase (Option.some.inj (hi.symm.trans hb) ▸ hbphase)

theorem Attempts.redeem (h : Attempts G s.attempts s.redeemed) (hi : s.attempts[i]? = some a)
    (hphase : a.phase ≠ .redeemed) (hknown : Known a) (code : String) :
    Attempts G (s.goto i a .redeemed).attempts (s.redeemed ++ [(i, code)]) := by
  have hmove : Attempts G (s.goto i a .redeemed).attempts s.redeemed :=
    h.goto hi hphase fun _ => h.verified a (List.mem_of_getElem? hi) hknown
  refine ⟨hmove.verified, fun r hr => ?_⟩
  rcases List.mem_append.1 hr with hr | hr
  · exact hmove.earned r hr
  · rw [List.mem_singleton.1 hr]
    exact ⟨{ a with phase := .redeemed }, (getElem?_goto hi i).trans (if_pos rfl), rfl⟩

end Check

variable (G) in
structure Inv (s : RecoveryCodes) : Prop where
  codes : Codes s
  attempts : Attempts G s.attempts s.redeemed

theorem inv_start (tables : LoginStore) : Inv G (start tables) :=
  ⟨codes_start tables, attempts_nil⟩

section Check

variable {i : ℕ} {a : FactorAttempt}

theorem Inv.goto (h : Inv G s) (hi : s.attempts[i]? = some a) {phase : FactorPhase}
    (hphase : a.phase ≠ .redeemed)
    (hknown : Known { a with phase } → a.credentials.username = G.adminUsername
      ∧ G.verifyPassword a.credentials.password = true) : Inv G (s.goto i a phase) :=
  ⟨h.codes.frame _ rfl, h.attempts.goto hi hphase hknown⟩

theorem Inv.checkCode (h : Inv G s) (hi : s.attempts[i]? = some a) {secret : String}
    (hphase : a.phase = .challenged secret) : Inv G (s.checkCode G i a secret) := by
  have hopen : a.phase ≠ .redeemed := by simp [hphase]
  have hknown : Known a := by simp only [Known, hphase]
  unfold RecoveryCodes.checkCode
  split
  · exact h.goto hi hopen fun hk => hk.elim
  · split_ifs
    · exact h.goto hi hopen fun hk => hk.elim
    · split
      · exact h.goto hi hopen fun hk => hk.elim
      · rename_i code hcode
        by_cases hused : (s.store.consumeRecoveryCode (G.hashToken code) a.now).2 = true
        · simp only [hused, if_true]
          exact ⟨h.codes.redeem i _ hused, h.attempts.redeem hi hopen hknown _⟩
        · have hsame := LoginStore.consumeRecoveryCode_false (Bool.not_eq_true _ ▸ hused)
          simp only [hused, hsame, Bool.false_eq_true, if_false]
          exact h.goto hi hopen fun hk => hk.elim

theorem Inv.check (h : Inv G s) (hi : s.attempts[i]? = some a) : Inv G (s.check G i a) := by
  have hmem : a ∈ s.attempts := List.mem_of_getElem? hi
  unfold RecoveryCodes.check
  split
  case h_1 hphase =>
    split_ifs <;> exact h.goto hi (by simp [hphase]) fun hk => hk.elim
  case h_2 hphase =>
    split <;> exact h.goto hi (by simp [hphase]) fun hk => hk.elim
  case h_3 hphase =>
    split_ifs with hbad
    · exact h.goto hi (by simp [hphase]) fun hk => hk.elim
    · rw [not_or, not_not, Bool.not_eq_false] at hbad
      exact h.goto hi (by simp [hphase]) fun _ => hbad
  case h_4 hphase =>
    have hknown := h.attempts.verified a hmem (by simp only [Known, hphase])
    split <;> exact h.goto hi (by simp [hphase]) fun _ => hknown
  case h_5 hphase => exact h.checkCode hi hphase
  all_goals exact h

end Check

theorem Inv.runCall (h : Inv G s) {j : ℕ} {c : TotpCall} (hj : s.calls[j]? = some c)
    (hcurrent : c.HasDeleted → c.toInsert ≠ [] → ¬ s.Over c) : Inv G (s.runCall j c) := by
  unfold RecoveryCodes.runCall
  split
  case h_1 hphase => exact ⟨h.codes.store hj hphase rfl, h.attempts⟩
  case h_2 hphase => exact ⟨h.codes.delete hj hphase, h.attempts⟩
  case h_3 hphase =>
    refine ⟨h.codes.insert hj hphase (hcurrent ?_ ?_), h.attempts⟩
    · simp only [TotpCall.HasDeleted, hphase]
    · simp [TotpCall.toInsert, hphase]
  case h_4 hphase => exact ⟨h.codes.commit hj hphase, h.attempts⟩
  case h_5 => exact h

theorem Inv.step (h : Inv G s) (a : Action) (hfresh : s.FreshCodes a)
    (hcurrent : s.InsertsCurrent a) : Inv G (s.step G a) := by
  cases a with
  | begin a now => exact ⟨h.codes.frame _ rfl, h.attempts.begin _ now⟩
  | attempt i =>
    simp only [RecoveryCodes.step]
    rcases hi : s.attempts[i]? with _ | a
    · exact h
    · exact h.check hi
  | call change => exact ⟨h.codes.call hfresh, h.attempts⟩
  | change j =>
    simp only [RecoveryCodes.step]
    rcases hj : s.calls[j]? with _ | c
    · exact h
    · exact h.runCall hj (hcurrent c hj)
  | elsewhere tables => exact ⟨h.codes.frame _ rfl, h.attempts⟩

theorem Inv.singleUse (h : Inv G s) : s.SingleUse G where
  once := h.codes.once
  replaced := h.codes.replaced
  earned r hr := by
    obtain ⟨a, ha, hphase⟩ := h.attempts.earned r hr
    exact ⟨a, ha, hphase, h.attempts.verified a (List.mem_of_getElem? ha) (by simp only [Known,
      hphase])⟩

/-- The statements of `_check_credentials` before its last one only read. -/
theorem check_spendsOwn (s : RecoveryCodes) (i : ℕ) (a : FactorAttempt) :
    (s.check G i a).store.recoveryCodes = s.store.recoveryCodes
        ∧ (s.check G i a).redeemed = s.redeemed
      ∨ ∃ code ∈ a.credentials.recoveryCode, s.Accepts (G.hashToken code)
          ∧ (s.check G i a).store.recoveryCodes
            = s.store.recoveryCodes.set (G.hashToken code) (some a.now)
          ∧ (s.check G i a).redeemed = s.redeemed ++ [(i, G.hashToken code)] := by
  unfold RecoveryCodes.check
  split
  case h_5 secret hphase =>
    unfold RecoveryCodes.checkCode
    split
    · exact .inl ⟨rfl, rfl⟩
    · split_ifs
      · exact .inl ⟨rfl, rfl⟩
      · split
        · exact .inl ⟨rfl, rfl⟩
        · rename_i code hcode
          by_cases hused : (s.store.consumeRecoveryCode (G.hashToken code) a.now).2 = true
          · refine .inr ⟨code, by assumption, (accepts_consume hused).1, ?_, ?_⟩
            · simp only [hused, if_true]
              exact (accepts_consume hused).2
            · simp only [hused, if_true]
              rfl
          · have hsame := LoginStore.consumeRecoveryCode_false (Bool.not_eq_true _ ▸ hused)
            simp only [hused, hsame, Bool.false_eq_true, if_false]
            exact .inl ⟨rfl, rfl⟩
  all_goals first
    | exact .inl ⟨rfl, rfl⟩
    | (split_ifs <;> exact .inl ⟨rfl, rfl⟩)
    | (split <;> exact .inl ⟨rfl, rfl⟩)

theorem spendsOwn (s : RecoveryCodes) (a : Action) : s.SpendsOwn G a := by
  cases a with
  | attempt i =>
    simp only [SpendsOwn, RecoveryCodes.step]
    rcases hi : s.attempts[i]? with _ | a
    · exact .inl ⟨rfl, rfl⟩
    · exact (check_spendsOwn s i a).imp_right fun h => ⟨a, rfl, h⟩
  | change j =>
    simp only [SpendsOwn, RecoveryCodes.step]
    rcases s.calls[j]? with _ | c
    · rfl
    · simp only [RecoveryCodes.runCall]
      split <;> rfl
  | _ => rfl

/-- A code inserted once its enrolment is over stays, and an attempt may use it. -/
theorem not_singleUse_step (h : Inv G s) {a : Action} (hlate : ¬ s.InsertsCurrent a) :
    ¬ (s.step G a).SingleUse G := by
  cases a with
  | change j =>
    simp only [InsertsCurrent, not_forall, not_not] at hlate
    obtain ⟨c, hj, hdeleted, hleft, hover⟩ := hlate
    rw [Option.mem_def] at hj
    intro hsingle
    simp only [RecoveryCodes.step, hj, RecoveryCodes.runCall] at hsingle
    split at hsingle
    case h_3 turn code rest hphase =>
      have hcode : code ∈ c.change.hashes := (h.codes.toInsert c (List.mem_of_getElem? hj)).2 (by
        simp [TotpCall.toInsert, hphase])
      have hturn : ({ c with phase := .inserting turn rest } : TotpCall).turn = c.turn := by
        simp only [TotpCall.turn, hphase]
      have hdel : ({ c with phase := .inserting turn rest } : TotpCall).HasDeleted
          ↔ c.HasDeleted := by
        simp only [TotpCall.HasDeleted, hphase]
      refine hsingle.replaced { c with phase := .inserting turn rest } ?_ ?_ code hcode ?_
      · exact List.mem_of_getElem? ((getElem?_moveOn s hj j).trans (if_pos rfl))
      · exact (over_moveOn_iff hj hturn hdel _).2 ((over_congr hturn).2 hover)
      · simp [Accepts, moveOn]
    all_goals simp_all [TotpCall.HasDeleted, TotpCall.toInsert]
  | _ => exact absurd trivial hlate

/-- Recovery codes are single use in exactly the runs in which no enrolment inserts a code after a
later call has deleted them. -/
theorem always_singleUse_iff (G : Gate) (tables : LoginStore) (as : List Action)
    (hfresh : Run.Meets (step G) FreshCodes (start tables) as) :
    Run.Always (step G) (SingleUse G) (start tables) as
        ∧ Run.Meets (step G) (SpendsOwn G) (start tables) as
      ↔ Run.Meets (step G) InsertsCurrent (start tables) as := by
  have hspends : Run.Meets (step G) (SpendsOwn G) (start tables) as :=
    Run.meets_of_invariant (fun s a (_ : True) => spendsOwn s a) (fun _ _ h => h) as trivial
  rw [and_iff_left hspends]
  exact Run.always_iff_meets (I := Inv G) (fun _ hI => hI.singleUse)
    (fun _ a hI hd hc => hI.step a hd hc) (fun _ _ hI _ hlate => not_singleUse_step hI hlate) as
    (inv_start tables) hfresh

/-- One password, and no authenticator. -/
def backupOnly : Gate where
  hashToken t := t
  accessTtlSeconds := 900
  refreshTtlSeconds := 3600
  adminUsername := "admin"
  isConfigured := true
  verifyPassword p := p = "open sesame"
  verifyTotp _ _ _ := false

def emptyTables : LoginStore := ⟨[], .empty, none, .empty, .empty, []⟩

def withCode (code : String) : Attempt :=
  .reauthenticate "open sesame" "10.0.0.1" none (some code)

/-- Two enrolments one after the other, and the second one's code tried twice. -/
def inTurn : List Action :=
    [.call (.enable "s" ["a"]), .change 0, .change 0, .change 0, .change 0,
      .call (.enable "t" ["b"]), .change 1, .change 1, .change 1, .change 1,
      .begin (withCode "b") 60, .begin (withCode "b") 60, .attempt 0, .attempt 1, .attempt 0,
      .attempt 1, .attempt 0, .attempt 1, .attempt 0, .attempt 1, .attempt 0, .attempt 1]

theorem singleUse_in_turn :
    Run.Always (step backupOnly) (SingleUse backupOnly) (start emptyTables) inTurn
      ∧ Run.Meets (step backupOnly) (SpendsOwn backupOnly) (start emptyTables) inTurn :=
  (always_singleUse_iff backupOnly emptyTables inTurn (by decide +kernel)).2 (by decide +kernel)

/-- Two enrolments at one time: both have deleted the codes when the first inserts its own. -/
def overlap : List Action :=
  [.call (.enable "s" ["a"]), .call (.enable "t" ["b"]), .change 0, .change 0, .change 1,
    .change 1, .change 0, .change 0, .change 1, .change 1]

/-- The secret is the second one's, and an attempt with the first one's code is admitted. -/
theorem overlap_keeps_replaced_code :
    (¬ ∀ (G : Gate) (tables : LoginStore) (as : List Action),
      Run.Meets (step G) FreshCodes (start tables) as →
        Run.Always (step G) (SingleUse G) (start tables) as
          ∧ Run.Meets (step G) (SpendsOwn G) (start tables) as)
    ∧ (∃ c ∈ (Run.final (step backupOnly) (start emptyTables) overlap).calls,
        (Run.final (step backupOnly) (start emptyTables) overlap).Over c
          ∧ "a" ∈ c.change.hashes)
    ∧ (0, "a") ∈ (Run.final (step backupOnly) (start emptyTables) (overlap ++
        [.begin (withCode "a") 60, .attempt 0, .attempt 0, .attempt 0, .attempt 0,
          .attempt 0])).redeemed := by
  refine ⟨fun h => ?_, by decide +kernel, by decide +kernel⟩
  have hfresh : Run.Meets (step backupOnly) FreshCodes (start emptyTables) overlap := by
    decide +kernel
  have hover : ∃ c ∈ (Run.final (step backupOnly) (start emptyTables) overlap).calls,
      (Run.final (step backupOnly) (start emptyTables) overlap).Over c
        ∧ ∃ x ∈ c.change.hashes,
          (Run.final (step backupOnly) (start emptyTables) overlap).store.recoveryCodes.get x
            = some none := by
    decide +kernel
  obtain ⟨c, hc, hc', x, hx, haccept⟩ := hover
  exact (h backupOnly emptyTables overlap hfresh).1.final.replaced c hc hc' x hx haccept

end RecoveryCodes

end Rackphone
