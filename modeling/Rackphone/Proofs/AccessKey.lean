import Rackphone.AccessKey

/-!
# First logins agree on one key

What a connection reads of the key only ever goes from nothing to the key that is stored, and the
key that is stored never changes. A call that is past its `INSERT` reads a key.
-/

namespace Rackphone.AccessKey

variable {τ κ : Type*} [DecidableEq κ] {s : State τ κ} {table table' : AuthState}

/-! ## The statements -/

/-- Every value of the key that the first table has the second has too. -/
def Kept (table table' : AuthState) : Prop :=
  ∀ value, table ACCESS_KEY = some value → table' ACCESS_KEY = some value

theorem Kept.refl (table : AuthState) : Kept table table := fun _ h => h

theorem Kept.trans {table'' : AuthState} (h : Kept table table') (h' : Kept table' table'') :
    Kept table table'' :=
  fun value hv => h' value (h value hv)

theorem insertOrNothing_kept (value : List Char) (table : AuthState) :
    Kept table (insertOrNothing ACCESS_KEY value table) := by
  intro v hv
  simp only [insertOrNothing, hv]

theorem insertOrNothing_isSome (value : List Char) (table : AuthState) :
    (insertOrNothing ACCESS_KEY value table ACCESS_KEY).isSome := by
  unfold insertOrNothing
  cases hkey : table ACCESS_KEY with
  | none => simp
  | some v => simp [hkey]

/-- What is stored after the `INSERT` was there before or is the value it inserts. -/
theorem insertOrNothing_eq {value v : List Char}
    (h : insertOrNothing ACCESS_KEY value table ACCESS_KEY = some v) :
    table ACCESS_KEY = some v ∨ v = value := by
  unfold insertOrNothing at h
  cases hkey : table ACCESS_KEY with
  | none =>
    simp only [hkey, Function.update_self, Option.some.injEq] at h
    exact .inr h.symm
  | some w =>
    simp only [hkey] at h
    exact .inl h

@[simp] theorem outcome_encode (key : List UInt8) :
    outcome (some (Hex.encode key)) = .returned key := by
  simp [outcome]

/-! ## The invariant -/

/-- The connection a call has made its `INSERT` on. -/
def Phase.past : Phase κ → Option κ
  | .committing k | .rereading k => some k
  | _ => none

def Reads (d : Database κ AuthState) (k : κ) : Prop := (d.read k ACCESS_KEY).isSome

structure Inv (s : State τ κ) : Prop where
  kept : Kept s.database.committed s.database.latest
  encoded : ∀ value, s.stored = some value → ∃ key, value = Hex.encode key
  past : ∀ t k, (s.phases t).past = some k → Reads s.database k
  outcomes : ∀ o ∈ s.outcomes, ∃ key, o.2 = .returned key ∧ s.stored = some (Hex.encode key)
  /-- An open transaction has a call that is about to commit it. -/
  writer : ∀ w, s.database.writer = some w → ∃ t, s.phases t = .committing w.1

theorem init_inv (h : table ACCESS_KEY = none) : Inv (init table : State τ κ) where
  kept := Kept.refl table
  encoded value hv := by
    have hnone : (init table : State τ κ).stored = none := h
    simp [hnone] at hv
  past t k hk := by simp [init, Phase.past] at hk
  outcomes o ho := by simp [init] at ho
  writer w hw := by simp [init, Database.quiet] at hw

theorem Inv.read_kept (h : Inv s) (k : κ) : Kept (s.database.read k) s.database.latest := by
  obtain hread | hread := s.database.read_eq_latest_or_committed (k := k)
  · rw [hread]
    exact Kept.refl _
  · rw [hread]
    exact h.kept

/-- What a connection reads is what is stored, and calls that read it return it. -/
theorem Inv.of_read (h : Inv s) {k : κ} {value : List Char}
    (hvalue : s.database.read k ACCESS_KEY = some value) :
    ∃ key, outcome (some value) = .returned key ∧ s.stored = some (Hex.encode key) := by
  have hstored : s.stored = some value := h.read_kept k value hvalue
  obtain ⟨key, rfl⟩ := h.encoded value hstored
  exact ⟨key, outcome_encode key, hstored⟩

theorem Inv.same (h : Inv s) :
    ∃ key, ∀ o ∈ s.outcomes, o.2 = .returned key ∧ s.stored = some (Hex.encode key) := by
  cases hout : s.outcomes with
  | nil => exact ⟨[], by simp⟩
  | cons o outcomes =>
    obtain ⟨key, -, hstored⟩ := h.outcomes o (by simp [hout])
    refine ⟨key, fun o' ho' => ?_⟩
    obtain ⟨key', ho'key, hstored'⟩ := h.outcomes o' (by rwa [hout])
    rw [hstored] at hstored'
    have hdecode := congrArg (fun v => Option.bind v Hex.decode) hstored'
    simp only [Option.bind_some, Hex.decode_encode, Option.some.injEq] at hdecode
    subst hdecode
    exact ⟨ho'key, hstored⟩

theorem Inv.committed (h : Inv s) (hidle : ∀ t, s.phases t = .idle) :
    s.database.committed ACCESS_KEY = s.stored := by
  unfold State.stored Database.latest
  cases hw : s.database.writer with
  | none => rfl
  | some w =>
    obtain ⟨t, ht⟩ := h.writer w hw
    simp [hidle t] at ht

/-! ## Steps -/

variable [DecidableEq τ]

omit [DecidableEq κ] in
theorem past_update {phases : τ → Phase κ} {t : τ} {p : Phase κ} {q : κ → Prop}
    (hp : ∀ k, p.past = some k → q k) (h : ∀ u k, (phases u).past = some k → q k) (u : τ) (k : κ)
    (hk : (Function.update phases t p u).past = some k) : q k := by
  by_cases hu : u = t
  · rw [hu, Function.update_self] at hk
    exact hp k hk
  · rw [Function.update_of_ne hu] at hk
    exact h u k hk

/-- The call that is about to commit is not the one that goes on to something else. -/
theorem Inv.writer_update (h : Inv s) {t : τ} {p : Phase κ} {w : κ × AuthState}
    (hw : s.database.writer = some w) (ht : s.phases t ≠ .committing w.1) :
    ∃ u, Function.update s.phases t p u = .committing w.1 := by
  obtain ⟨u, hu⟩ := h.writer w hw
  have hut : u ≠ t := by
    rintro rfl
    exact ht hu
  exact ⟨u, by rw [Function.update_of_ne hut, hu]⟩

/-- A thread goes on to its next statement and the database stays as it is. -/
theorem Inv.goto (h : Inv s) {t : τ} {p : Phase κ} (hpast : p.past = none)
    (hp : ∀ k, s.phases t ≠ .committing k) : Inv (s.goto t p) where
  kept := h.kept
  encoded := h.encoded
  past := past_update (by simp [hpast]) h.past
  outcomes := h.outcomes
  writer _ hw := h.writer_update hw (hp _)

theorem Inv.finish (h : Inv s) {t : τ} {o : Outcome} (hp : ∀ k, s.phases t ≠ .committing k)
    (ho : ∃ key, o = .returned key ∧ s.stored = some (Hex.encode key)) : Inv (s.finish t o) where
  kept := h.kept
  encoded := h.encoded
  past := (h.goto (p := .idle) rfl hp).past
  outcomes := by
    intro o' ho'
    rcases List.mem_append.1 ho' with ho' | ho'
    · exact h.outcomes o' ho'
    · rw [List.mem_singleton.1 ho']
      exact ho
  writer := (h.goto (p := .idle) rfl hp).writer

/-- The `INSERT`, on a connection that need not wait. -/
theorem Inv.insert (h : Inv s) {t : τ} {k : κ} (fresh : List UInt8) (hk : ¬ s.database.Waits k) :
    Inv { s.goto t (.committing k) with
      database := s.database.write k (insertOrNothing ACCESS_KEY (Hex.encode fresh)) } where
  kept := by
    show Kept s.database.committed (insertOrNothing _ _ (s.database.read k))
    rw [Database.read_eq_latest hk]
    exact h.kept.trans (insertOrNothing_kept _ _)
  encoded := by
    intro value hvalue
    obtain hvalue | rfl := insertOrNothing_eq hvalue
    · exact h.encoded value (h.read_kept k value hvalue)
    · exact ⟨fresh, rfl⟩
  past := by
    have hread : Reads (s.database.write k (insertOrNothing ACCESS_KEY (Hex.encode fresh))) k := by
      rw [Reads, Database.read_write]
      exact insertOrNothing_isSome _ _
    refine past_update (q := Reads _) ?_ ?_
    · rintro k' hk'
      obtain rfl := Option.some.inj hk'
      exact hread
    · intro u k' hk'
      by_cases hkk : k' = k
      · rwa [hkk]
      · rw [Reads, Database.read_write_of_ne hkk hk]
        exact h.past u k' hk'
  outcomes := by
    intro o ho
    obtain ⟨key, hkey, hstored⟩ := h.outcomes o ho
    refine ⟨key, hkey, insertOrNothing_kept _ _ _ ?_⟩
    rwa [Database.read_eq_latest hk]
  writer := by
    intro w hw
    obtain rfl := Option.some.inj hw
    exact ⟨t, Function.update_self ..⟩

theorem Inv.commit (h : Inv s) {t : τ} {k : κ} (ht : s.phases t = .committing k) :
    Inv { s.goto t (.rereading k) with database := s.database.commit k } := by
  have hread : ∀ u k', (s.phases u).past = some k' → Reads (s.database.commit k) k' := by
    intro u k' hk'
    have hold := h.past u k' hk'
    obtain ⟨value, hvalue⟩ := Option.isSome_iff_exists.1 hold
    obtain hread | hread := s.database.read_commit (k := k) k'
    · rwa [Reads, hread]
    · rw [Reads, hread, h.read_kept k' value hvalue]
      rfl
  have hstored : (s.database.commit k).latest = s.database.latest := Database.latest_commit
  exact {
    kept := by
      rw [hstored, Database.committed_commit]
      exact h.read_kept k
    encoded := by
      unfold State.stored
      rw [hstored]
      exact h.encoded
    past := by
      refine past_update (q := Reads _) ?_ hread
      intro k' hk'
      exact hread t k' (by rwa [ht])
    outcomes := by
      unfold State.stored
      rw [hstored]
      exact h.outcomes
    writer := by
      intro w hw
      obtain ⟨hwriter, hne⟩ := Database.writer_commit hw
      exact h.writer_update hwriter (by simpa [ht] using hne.symm) }

theorem Inv.step (h : Inv s) : ∀ a : Action τ κ, Inv (step s a)
  | .accessKey t k => by
    simp only [AccessKey.step]
    split
    · rename_i hidle
      exact h.goto rfl (by simp [hidle])
    · exact h
  | .statement t fresh => by
    simp only [AccessKey.step]
    split
    · exact h
    · rename_i k hphase
      have hp : ∀ k', s.phases t ≠ .committing k' := by simp [hphase]
      split
      · rename_i value hvalue
        exact h.finish hp (h.of_read hvalue)
      · exact h.goto rfl hp
    · split
      · exact h
      · rename_i hwaits
        exact h.insert fresh hwaits
    · rename_i k hphase
      exact h.commit hphase
    · rename_i k hphase
      obtain ⟨value, hvalue⟩ := Option.isSome_iff_exists.1 (h.past t k (by rw [hphase]; rfl))
      rw [hvalue]
      exact h.finish (by simp [hphase]) (h.of_read hvalue)

/-! ## Agreement -/

/-- A statement that need not wait takes its call one statement on. -/
theorem left_statement {t : τ} (hrun : s.phases t ≠ .idle)
    (hwaits : ∀ k, s.phases t = .inserting k → ¬ s.database.Waits k) (fresh : List UInt8) :
    ((AccessKey.step s (.statement t fresh)).phases t).left < (s.phases t).left := by
  cases hphase : s.phases t with
  | idle => exact absurd hphase hrun
  | selecting k =>
    cases hread : s.database.read k ACCESS_KEY <;>
      simp [step, hphase, hread, State.goto, State.finish, Phase.left]
  | inserting k => simp [step, hphase, hwaits k hphase, State.goto, Phase.left]
  | committing k => simp [step, hphase, State.goto, Phase.left]
  | rereading k => simp [step, hphase, State.goto, State.finish, Phase.left]

theorem Inv.progress (h : Inv s) (hrun : ∃ t, s.phases t ≠ .idle) :
    ∃ t, ∀ fresh,
      ((AccessKey.step s (.statement t fresh)).phases t).left < (s.phases t).left := by
  cases hw : s.database.writer with
  | none =>
    obtain ⟨t, ht⟩ := hrun
    exact ⟨t, left_statement ht fun k _ => by simp [Database.Waits, hw]⟩
  | some w =>
    obtain ⟨t, ht⟩ := h.writer w hw
    have hrun : s.phases t ≠ .idle := by simp [ht]
    exact ⟨t, left_statement hrun (by simp [ht])⟩

theorem Inv.agrees (h : Inv s) : s.Agrees := ⟨h.same, h.committed, h.progress⟩

/-- However the statements of any calls are ordered. -/
theorem access_key_agrees (h : table ACCESS_KEY = none) (actions : List (Action τ κ)) :
    Run.Always step State.Agrees (init table) actions :=
  Run.always_of_invariant (fun _ => Inv.agrees) (fun _ a h => h.step a) actions (init_inv h)

/-- Two threads on two connections find no key and each draws one. -/
def firstLogins : List (Action ℕ ℕ) :=
  [.accessKey 0 0, .accessKey 1 1, .statement 0 [], .statement 1 [], .statement 1 [0x2f],
    .statement 0 [0x11], .statement 1 [], .statement 1 [], .statement 0 [0x11], .statement 0 [],
    .statement 0 []]

theorem first_logins_agree :
    Run.Always step State.Agrees (init fun _ => none) firstLogins
      ∧ (Run.final step (init fun _ => none) firstLogins).outcomes
        = [(1, .returned [0x2f]), (0, .returned [0x2f])] :=
  ⟨access_key_agrees rfl firstLogins, by decide⟩

end Rackphone.AccessKey
