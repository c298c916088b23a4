import Rackphone.Lib.Run

/-!
# Actions that leave no trace

An action is let through or turned away by the state it meets. Where one that is turned away
changes nothing that is seen, and what is seen decides what comes next, a run is seen as the run of
the actions it let through.
-/

namespace Run

variable {σ α τ : Type*} (step : σ → α → σ) (c : σ → α → Bool)

/-- The actions of a run that meet a condition when they are taken. -/
def admitted : σ → List α → List α
  | _, [] => []
  | s, a :: as => if c s a then a :: admitted (step s a) as else admitted (step s a) as

variable {step c}

variable {view : σ → τ}

theorem admitted_congr (hview : ∀ s s' a, view s = view s' → view (step s a) = view (step s' a))
    (hc : ∀ s s' a, view s = view s' → c s a = c s' a) :
    ∀ {s s' : σ} (as : List α), view s = view s' → admitted step c s as = admitted step c s' as
  | _, _, [], _ => rfl
  | s, s', a :: as, h => by
    rw [admitted, admitted, hc s s' a h, admitted_congr hview hc as (hview s s' a h)]

theorem final_congr (hview : ∀ s s' a, view s = view s' → view (step s a) = view (step s' a)) :
    ∀ {s s' : σ} (as : List α), view s = view s' → view (final step s as) = view (final step s' as)
  | _, _, [], h => h
  | s, s', a :: as, h => final_congr hview as (hview s s' a h)

/-- What is turned away might as well not have come. -/
theorem final_admitted (hview : ∀ s s' a, view s = view s' → view (step s a) = view (step s' a))
    (hc : ∀ s s' a, view s = view s' → c s a = c s' a)
    (hrefused : ∀ s a, c s a = false → view (step s a) = view s) :
    ∀ (s : σ) (as : List α), view (final step s (admitted step c s as)) = view (final step s as)
  | _, [] => rfl
  | s, a :: as => by
    have ih := final_admitted hview hc hrefused (step s a) as
    rw [admitted]
    split_ifs with ha
    · exact ih
    · have hsame := hrefused s a (Bool.not_eq_true _ ▸ ha)
      rw [final_cons, ← ih]
      exact (final_congr hview _ hsame).symm

end Run
