import Rackphone.Lib.Run

/-!
# Where something comes from

What is not there at the start of a run and is there at its end came with one of its steps.
-/

namespace Run

variable {σ α : Type*} {step : σ → α → σ} {I : σ → Prop} (P : σ → Prop) (c : σ → α → Prop)

theorem exists_origin (hI : ∀ s a, I s → I (step s a))
    (hstep : ∀ s a, I s → ¬ P s → P (step s a) → c s a) :
    ∀ {s : σ} (as : List α), I s → ¬ P s → P (final step s as) →
      ∃ pre a post, as = pre ++ a :: post ∧ c (final step s pre) a
  | _, [], _, hs, hfinal => absurd hfinal hs
  | s, a :: as, hIs, hs, hfinal => by
    by_cases ha : P (step s a)
    · exact ⟨[], a, as, rfl, hstep s a hIs hs ha⟩
    · obtain ⟨pre, b, post, rfl, hb⟩ := exists_origin hI hstep as (hI s a hIs) ha hfinal
      exact ⟨a :: pre, b, post, rfl, hb⟩

end Run
