import Mathlib

/-!
# Machines that read a stream in pieces

A machine takes a stream one item at a time and writes some outputs at each. What it writes for a
piece of the stream is a piece of the outputs; put together, they are the outputs of the whole
stream, wherever it was cut.
-/

namespace Transducer

variable {σ ι ο : Type*} (step : σ → ι → σ × List ο)

/-- The state after some items, and the outputs. -/
def run : σ → List ι → σ × List ο
  | s, [] => (s, [])
  | s, x :: xs =>
    let rest := run (step s x).1 xs
    (rest.1, (step s x).2 ++ rest.2)

/-- The outputs for each piece. -/
def pieces : σ → List (List ι) → List (List ο)
  | _, [] => []
  | s, c :: cs => (run step s c).2 :: pieces (run step s c).1 cs

variable {step}

@[simp] theorem run_nil (s : σ) : run step s [] = (s, []) := rfl

theorem run_cons (s : σ) (x : ι) (xs : List ι) :
    run step s (x :: xs)
      = ((run step (step s x).1 xs).1, (step s x).2 ++ (run step (step s x).1 xs).2) := rfl

theorem run_append : ∀ (s : σ) (xs ys : List ι),
    run step s (xs ++ ys)
      = ((run step (run step s xs).1 ys).1, (run step s xs).2 ++ (run step (run step s xs).1 ys).2)
  | s, [], ys => rfl
  | s, x :: xs, ys => by
    rw [List.cons_append, run_cons, run_append, run_cons, List.append_assoc]

theorem run_append_of_eq {s s' s'' : σ} {xs ys : List ι} {os os' : List ο}
    (hx : run step s xs = (s', os)) (hy : run step s' ys = (s'', os')) :
    run step s (xs ++ ys) = (s'', os ++ os') := by
  rw [run_append, hx, hy]

/-- Wherever a stream is cut, its pieces give the outputs of the whole. -/
theorem flatten_pieces : ∀ (s : σ) (cs : List (List ι)),
    (pieces step s cs).flatten = (run step s cs.flatten).2
  | _, [] => rfl
  | s, c :: cs => by
    rw [pieces, List.flatten_cons, List.flatten_cons, run_append, flatten_pieces]

/-- Two machines in a row: the second takes what the first writes. -/
def comp {τ ω : Type*} (step : σ → ι → σ × List ο) (next : τ → ο → τ × List ω) (s : σ × τ) (x : ι) :
    (σ × τ) × List ω :=
  let written := step s.1 x
  let taken := run next s.2 written.2
  ((written.1, taken.1), taken.2)

theorem run_comp {τ ω : Type*} {next : τ → ο → τ × List ω} : ∀ (s : σ) (t : τ) (xs : List ι),
    run (comp step next) (s, t) xs
      = (((run step s xs).1, (run next t (run step s xs).2).1), (run next t (run step s xs).2).2)
  | _, _, [] => rfl
  | s, t, x :: xs => by
    rw [run_cons, run_cons, comp, run_comp, run_append]

theorem run_comp_of_eq {τ ω : Type*} {next : τ → ο → τ × List ω} {s s' : σ} {t t' : τ}
    {xs : List ι} {os : List ο} {ws : List ω} (hs : run step s xs = (s', os))
    (ht : run next t os = (t', ws)) : run (comp step next) (s, t) xs = ((s', t'), ws) := by
  rw [run_comp, hs, ht]

/-- A machine that takes each of some blocks back to where it was takes them all. -/
theorem run_flatMap {α : Type*} {s : σ} {f : α → List ι} {g : α → List ο}
    (h : ∀ a, run step s (f a) = (s, g a)) : ∀ as : List α,
    run step s (as.flatMap f) = (s, as.flatMap g)
  | [] => rfl
  | a :: as => by
    rw [List.flatMap_cons, List.flatMap_cons]
    exact run_append_of_eq (h a) (run_flatMap h as)

end Transducer
