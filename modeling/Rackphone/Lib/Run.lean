import Mathlib

/-!
# Runs of a machine

A machine is a step function that says what every action does in every state; an action that is
not enabled leaves the state as it is. A run is a list of actions. `Always` is a property of the
states a run passes through and `Meets` one of the steps it takes. Each comes with its induction
rule, so that a development states what one step preserves and no induction of its own.
-/

namespace Run

variable {σ α : Type*} (step : σ → α → σ)

def final : σ → List α → σ
  | s, [] => s
  | s, a :: as => final (step s a) as

/-- `P` holds in every state the run passes through, the first and the last included. -/
def Always (P : σ → Prop) : σ → List α → Prop
  | s, [] => P s
  | s, a :: as => P s ∧ Always P (step s a) as

/-- Every action of the run is taken in a state where `c` holds of the two. -/
def Meets (c : σ → α → Prop) : σ → List α → Prop
  | _, [] => True
  | s, a :: as => c s a ∧ Meets c (step s a) as

@[simp] theorem final_nil (s : σ) : final step s [] = s := rfl

@[simp] theorem final_cons (s : σ) (a : α) (as : List α) :
    final step s (a :: as) = final step (step s a) as := rfl

theorem final_append (s : σ) : ∀ (as bs : List α),
    final step s (as ++ bs) = final step (final step s as) bs
  | [], _ => rfl
  | a :: as, bs => final_append (step s a) as bs

instance Always.decidable {P : σ → Prop} [DecidablePred P] :
    ∀ (s : σ) (as : List α), Decidable (Always step P s as)
  | s, [] => inferInstanceAs (Decidable (P s))
  | s, a :: as =>
    have : Decidable (Always step P (step s a) as) := Always.decidable (step s a) as
    inferInstanceAs (Decidable (P s ∧ Always step P (step s a) as))

instance Meets.decidable {c : σ → α → Prop} [∀ s a, Decidable (c s a)] :
    ∀ (s : σ) (as : List α), Decidable (Meets step c s as)
  | _, [] => inferInstanceAs (Decidable True)
  | s, a :: as =>
    have : Decidable (Meets step c (step s a) as) := Meets.decidable (step s a) as
    inferInstanceAs (Decidable (c s a ∧ Meets step c (step s a) as))

variable {step}

theorem final_of_invariant {I : σ → Prop} (hstep : ∀ s a, I s → I (step s a)) :
    ∀ {s : σ} (as : List α), I s → I (final step s as)
  | _, [], hI => hI
  | s, a :: as, hI => final_of_invariant hstep as (hstep s a hI)

/-- The simulation rule: a machine whose steps are another's seen through `f` runs as it does. -/
theorem final_simulates {τ : Type*} {step' : τ → α → τ} {f : σ → τ} {I : σ → Prop}
    (hstep : ∀ s a, I s → f (step s a) = step' (f s) a ∧ I (step s a)) :
    ∀ {s : σ} (as : List α), I s → f (final step s as) = final step' (f s) as
  | _, [], _ => rfl
  | s, a :: as, hI => by
    rw [final_cons, final_cons, ← (hstep s a hI).1]
    exact final_simulates hstep as (hstep s a hI).2

theorem always_of_invariant {I P : σ → Prop} (hP : ∀ s, I s → P s)
    (hstep : ∀ s a, I s → I (step s a)) :
    ∀ {s : σ} (as : List α), I s → Always step P s as
  | s, [], hI => hP s hI
  | s, a :: as, hI => ⟨hP s hI, always_of_invariant hP hstep as (hstep s a hI)⟩

theorem meets_of_invariant {I : σ → Prop} {c : σ → α → Prop} (hc : ∀ s a, I s → c s a)
    (hstep : ∀ s a, I s → I (step s a)) :
    ∀ {s : σ} (as : List α), I s → Meets step c s as
  | _, [], _ => trivial
  | s, a :: as, hI => ⟨hc s a hI, meets_of_invariant hc hstep as (hstep s a hI)⟩

/-- The invariant rule for runs whose steps meet a condition. -/
theorem always_of_meets {I P : σ → Prop} {c : σ → α → Prop} (hP : ∀ s, I s → P s)
    (hstep : ∀ s a, I s → c s a → I (step s a)) :
    ∀ {s : σ} (as : List α), I s → Meets step c s as → Always step P s as
  | s, [], hI, _ => hP s hI
  | s, a :: as, hI, hc => ⟨hP s hI, always_of_meets hP hstep as (hstep s a hI hc.1) hc.2⟩

/-- The same for a property of the steps. -/
theorem meets_of_meets_of {I : σ → Prop} {c d : σ → α → Prop}
    (hstep : ∀ s a, I s → c s a → I (step s a)) (hd : ∀ s a, I s → c s a → d s a) :
    ∀ {s : σ} (as : List α), I s → Meets step c s as → Meets step d s as
  | _, [], _, _ => trivial
  | s, a :: as, hI, hc =>
    ⟨hd s a hI hc.1, meets_of_meets_of hstep hd as (hstep s a hI hc.1) hc.2⟩

theorem meets_of_meets {I : σ → Prop} {c d : σ → α → Prop}
    (hstep : ∀ s a, I s → c s a → I (step s a)) (hd : ∀ s a, I s → d s a) {s : σ} (as : List α)
    (hI : I s) (hc : Meets step c s as) : Meets step d s as :=
  meets_of_meets_of hstep (fun s a h _ => hd s a h) as hI hc

/-- The converse rule: where a step that fails the condition leads out of `P`, a run that stays
in `P` meets the condition throughout. -/
theorem meets_of_always {I P : σ → Prop} {c : σ → α → Prop}
    (hstep : ∀ s a, I s → c s a → I (step s a))
    (hfail : ∀ s a, I s → ¬ c s a → ¬ P (step s a)) :
    ∀ {s : σ} (as : List α), I s → Always step P s as → Meets step c s as
  | _, [], _, _ => trivial
  | s, a :: as, hI, hA => by
    have hPa : P (step s a) := by
      cases as with
      | nil => exact hA.2
      | cons b bs => exact hA.2.1
    have hc : c s a := by
      by_contra hn
      exact hfail s a hI hn hPa
    exact ⟨hc, meets_of_always hstep hfail as (hstep s a hI hc) hA.2⟩

/-- Both rules at once, for the runs that meet a premise `d`. -/
theorem always_iff_meets {I P : σ → Prop} {c d : σ → α → Prop} (hP : ∀ s, I s → P s)
    (hstep : ∀ s a, I s → d s a → c s a → I (step s a))
    (hfail : ∀ s a, I s → d s a → ¬ c s a → ¬ P (step s a)) :
    ∀ {s : σ} (as : List α), I s → Meets step d s as → (Always step P s as ↔ Meets step c s as)
  | s, [], hI, _ => ⟨fun _ => trivial, fun _ => hP s hI⟩
  | s, a :: as, hI, hd => by
    by_cases hc : c s a
    · have ih := always_iff_meets hP hstep hfail as (hstep s a hI hd.1 hc) hd.2
      exact ⟨fun h => ⟨hc, ih.1 h.2⟩, fun h => ⟨hP s hI, ih.2 h.2⟩⟩
    · refine ⟨fun h => absurd ?_ (hfail s a hI hd.1 hc), fun h => absurd h.1 hc⟩
      cases as with
      | nil => exact h.2
      | cons b bs => exact h.2.1

/-- Two conditions on steps that agree wherever an invariant holds, kept by the steps that meet
them, are met by the same runs. -/
theorem meets_iff_meets {I : σ → Prop} {c d : σ → α → Prop}
    (hstep : ∀ s a, I s → d s a → I (step s a)) (hcd : ∀ s a, I s → (c s a ↔ d s a)) :
    ∀ {s : σ} (as : List α), I s → (Meets step c s as ↔ Meets step d s as)
  | _, [], _ => Iff.rfl
  | s, a :: as, hI => by
    have ih := fun hd => meets_iff_meets hstep hcd as (hstep s a hI hd)
    exact ⟨fun h => ⟨(hcd s a hI).1 h.1, (ih ((hcd s a hI).1 h.1)).1 h.2⟩,
      fun h => ⟨(hcd s a hI).2 h.1, (ih h.1).2 h.2⟩⟩

theorem meets_congr {I : σ → Prop} {c d : σ → α → Prop} (hstep : ∀ s a, I s → I (step s a))
    (hcd : ∀ s a, I s → (c s a ↔ d s a)) {s : σ} (as : List α) (hI : I s) :
    Meets step c s as ↔ Meets step d s as :=
  meets_iff_meets (fun s a hI _ => hstep s a hI) hcd as hI

theorem meets_of_forall {p : α → Prop} :
    ∀ {s : σ} {as : List α}, (∀ a ∈ as, p a) → Meets step (fun _ a => p a) s as
  | _, [], _ => trivial
  | _, _ :: _, h =>
    ⟨h _ List.mem_cons_self, meets_of_forall fun a ha => h a (List.mem_cons_of_mem _ ha)⟩

theorem Meets.mono {c d : σ → α → Prop} (h : ∀ s a, c s a → d s a) :
    ∀ {s : σ} (as : List α), Meets step c s as → Meets step d s as
  | _, [], _ => trivial
  | s, a :: as, hc => ⟨h s a hc.1, hc.2.mono h as⟩

theorem Always.final {P : σ → Prop} :
    ∀ {s : σ} (as : List α), Always step P s as → P (final step s as)
  | _, [], h => h
  | _, _ :: as, h => h.2.final as

/-- Where a step that may be taken lowers a measure in every state short of a goal, a run of such
steps gets there. -/
theorem exists_final {P : σ → Prop} {ok : α → Prop} (m : σ → ℕ)
    (hstep : ∀ s, ¬ P s → ∃ a, ok a ∧ m (step s a) < m s) (s : σ) :
    ∃ as, (∀ a ∈ as, ok a) ∧ P (final step s as) := by
  induction h : m s using Nat.strongRecOn generalizing s with
  | _ n ih =>
    by_cases hP : P s
    · exact ⟨[], by simp, hP⟩
    · obtain ⟨a, ha, hlt⟩ := hstep s hP
      obtain ⟨as, has, hgoal⟩ := ih _ (h ▸ hlt) (step s a) rfl
      exact ⟨a :: as, by simpa [ha] using has, hgoal⟩

/-- The invariant rule for runs of the steps that may be taken. -/
theorem always_of_allowed {I P : σ → Prop} {ok : α → Prop} (hP : ∀ s, I s → P s)
    (hstep : ∀ s a, I s → ok a → I (step s a)) {s : σ} (as : List α) (hI : I s)
    (h : ∀ a ∈ as, ok a) : Always step P s as :=
  always_of_meets hP hstep as hI (meets_of_forall h)

end Run
