import Mathlib

/-!
# Fallible steps

When a chain or a traversal of steps that may fail comes to its end. A traversal succeeds exactly
where each of its steps does, and then gives their results in order.
-/

namespace Fallible

universe u

variable {ε : Type*} {α : Type*} {β γ : Type u}

/-- The step does not fail. -/
def Succeeds (x : Except ε α) : Prop := ∃ a, x = .ok a

@[simp] theorem succeeds_ok (a : α) : Succeeds (.ok a : Except ε α) := ⟨a, rfl⟩

@[simp] theorem succeeds_pure (a : α) : Succeeds (pure a : Except ε α) := ⟨a, rfl⟩

@[simp] theorem not_succeeds_error (e : ε) : ¬ Succeeds (.error e : Except ε α) := by
  rintro ⟨a, h⟩
  cases h

theorem bind_eq_ok {x : Except ε β} {f : β → Except ε γ} {c : γ} :
    (x >>= f) = .ok c ↔ ∃ b, x = .ok b ∧ f b = .ok c := by
  cases x with
  | error e => simp [bind, Except.bind]
  | ok b => simp [bind, Except.bind]

theorem succeeds_bind {x : Except ε β} {f : β → Except ε γ} :
    Succeeds (x >>= f) ↔ ∃ b, x = .ok b ∧ Succeeds (f b) := by
  simp only [Succeeds, bind_eq_ok]
  rw [exists_comm]
  simp only [exists_and_left]

@[simp] theorem succeeds_map {x : Except ε β} {f : β → γ} : Succeeds (f <$> x) ↔ Succeeds x := by
  cases x with
  | error e => simp [Functor.map, Except.map]
  | ok b => simp [Functor.map, Except.map]

theorem mapError_eq_ok {ε' : Type*} {x : Except ε α} {f : ε → ε'} {a : α} :
    x.mapError f = .ok a ↔ x = .ok a := by
  cases x with
  | error e => simp [Except.mapError]
  | ok b => simp [Except.mapError]

theorem mapM_eq_ok {f : α → Except ε β} : ∀ {l : List α} {bs : List β},
    l.mapM f = .ok bs ↔ List.Forall₂ (fun a b => f a = .ok b) l bs
  | [], bs => by
    rw [List.mapM_nil, List.forall₂_nil_left_iff]
    exact ⟨fun h => (Except.ok.inj h).symm, fun h => h ▸ rfl⟩
  | a :: l, bs => by
    rw [List.mapM_cons, bind_eq_ok, List.forall₂_cons_left_iff]
    refine exists_congr fun b => ?_
    rw [bind_eq_ok, exists_and_left]
    refine and_congr_right fun _ => exists_congr fun bs' => and_congr mapM_eq_ok ?_
    exact ⟨fun h => (Except.ok.inj h).symm, fun h => h ▸ rfl⟩

theorem succeeds_mapM {f : α → Except ε β} : ∀ {l : List α},
    Succeeds (l.mapM f) ↔ ∀ a ∈ l, Succeeds (f a)
  | [] => by simp
  | a :: l => by
    rw [List.mapM_cons, succeeds_bind, List.forall_mem_cons, ← succeeds_mapM]
    simp only [succeeds_bind, succeeds_pure, and_true]
    exact exists_and_right

/-- The result of a member is among the results. -/
theorem mem_of_mapM {f : α → Except ε β} {l : List α} {bs : List β} (h : l.mapM f = .ok bs)
    {a : α} (ha : a ∈ l) {b : β} (hb : f a = .ok b) : b ∈ bs := by
  have hall := mapM_eq_ok.1 h
  induction hall with
  | nil => exact absurd ha List.not_mem_nil
  | cons h₁ _ ih =>
    rcases List.mem_cons.1 ha with rfl | ha
    · exact List.mem_cons.2 (.inl (Except.ok.inj (hb.symm.trans h₁)))
    · exact List.mem_cons_of_mem _ (ih (mapM_eq_ok.2 ‹_›) ha)

theorem exists_of_mem_mapM {f : α → Except ε β} {l : List α} {bs : List β}
    (h : l.mapM f = .ok bs) {b : β} (hb : b ∈ bs) : ∃ a ∈ l, f a = .ok b := by
  have hall := mapM_eq_ok.1 h
  induction hall with
  | nil => exact absurd hb List.not_mem_nil
  | cons h₁ _ ih =>
    rcases List.mem_cons.1 hb with rfl | hb
    · exact ⟨_, List.mem_cons_self, h₁⟩
    · obtain ⟨a, ha, hfa⟩ := ih (mapM_eq_ok.2 ‹_›) hb
      exact ⟨a, List.mem_cons_of_mem _ ha, hfa⟩

end Fallible
