import Mathlib

/-!
# Handlers

A handler is run in a state and comes to an answer or raises; what it has done to the state by then
stays done. What a handler preserves, what it does not pass without doing nothing but raise, and
what holds once it has answered are shown along the binds it is made of.
-/

universe u

def Handler (σ ε α : Type u) : Type u := σ → σ × Except ε α

namespace Handler

variable {σ ε α β : Type u}

instance : Monad (Handler σ ε) where
  pure a := fun s => (s, .ok a)
  bind x f := fun s =>
    match x s with
    | (s, .ok a) => f a s
    | (s, .error e) => (s, .error e)

def raise (e : ε) : Handler σ ε α := fun s => (s, .error e)

def get : Handler σ ε σ := fun s => (s, .ok s)

def modify (f : σ → σ) : Handler σ ε PUnit := fun s => (f s, .ok ⟨⟩)

/-- What is raised is told in other words. -/
def mapError (g : ε → ε) (x : Handler σ ε α) : Handler σ ε α := fun s =>
  ((x s).1, match (x s).2 with
    | .ok a => .ok a
    | .error e => .error (g e))

variable {x : Handler σ ε α} {f : α → Handler σ ε β} {s s' : σ}

theorem bind_of_ok {a : α} (h : x s = (s', .ok a)) : (x >>= f) s = f a s' := by
  show (match x s with
    | (s, .ok a) => f a s
    | (s, .error e) => (s, .error e)) = _
  rw [h]

theorem bind_of_error {e : ε} (h : x s = (s', .error e)) : (x >>= f) s = (s', .error e) := by
  show (match x s with
    | (s, .ok a) => f a s
    | (s, .error e) => (s, .error e)) = _
  rw [h]

theorem get_bind (f : σ → Handler σ ε β) (s : σ) : (get >>= f) s = f s s := rfl

/-! ## What is preserved -/

def Preserves (P : σ → Prop) (x : Handler σ ε α) : Prop := ∀ s, P s → P (x s).1

variable {P : σ → Prop}

theorem preserves_pure (a : α) : Preserves P (pure a : Handler σ ε α) := fun _ h => h

theorem preserves_raise (e : ε) : Preserves P (raise e : Handler σ ε α) := fun _ h => h

theorem preserves_get : Preserves P (get : Handler σ ε σ) := fun _ h => h

theorem preserves_modify {g : σ → σ} (hg : ∀ s, P s → P (g s)) :
    Preserves P (modify g : Handler σ ε PUnit) := hg

theorem Preserves.mapError (g : ε → ε) (hx : Preserves P x) : Preserves P (x.mapError g) := hx

theorem Preserves.bind (hx : Preserves P x) (hf : ∀ a, Preserves P (f a)) :
    Preserves P (x >>= f) := by
  intro s hs
  have hs' := hx s hs
  rcases h : x s with ⟨s', e | a⟩ <;> rw [h] at hs'
  · rw [bind_of_error h]
    exact hs'
  · rw [bind_of_ok h]
    exact hf a s' hs'

/-! ## What is not passed -/

/-- Nothing is done, and what is raised is one of `E`. -/
def Only (E : ε → Prop) (x : Handler σ ε α) (s : σ) : Prop :=
  (x s).1 = s ∧ ∀ e, (x s).2 = .error e → E e

/-- Without `c` nothing is done but to raise one of `E`. -/
def Guarded (c : σ → Prop) (E : ε → Prop) (x : Handler σ ε α) : Prop :=
  ∀ s, ¬ c s → (x s).1 = s ∧ ∃ e, E e ∧ (x s).2 = .error e

variable {c : σ → Prop} {E : ε → Prop}

theorem Guarded.mapError (g : ε → ε) (hx : Guarded c E x) :
    Guarded c (fun e => ∃ e', E e' ∧ e = g e') (x.mapError g) := by
  intro s hs
  obtain ⟨hstate, e, he, hraise⟩ := hx s hs
  refine ⟨hstate, g e, ⟨e, he, rfl⟩, ?_⟩
  rw [Handler.mapError, hraise]

theorem Guarded.imp {E' : ε → Prop} (hx : Guarded c E x) (h : ∀ e, E e → E' e) :
    Guarded c E' x := by
  intro s hs
  obtain ⟨hstate, e, he, hraise⟩ := hx s hs
  exact ⟨hstate, e, h e he, hraise⟩

theorem Guarded.mono {c' : σ → Prop} (hx : Guarded c E x) (h : ∀ s, c s → c' s) :
    Guarded c' E x := fun s hs => hx s fun hc => hs (h s hc)

theorem Guarded.bind (hx : Guarded c E x) : Guarded c E (x >>= f) := by
  intro s hs
  obtain ⟨hstate, e, he, hraise⟩ := hx s hs
  have h : x s = (s, .error e) := Prod.ext hstate hraise
  rw [bind_of_error h]
  exact ⟨rfl, e, he, rfl⟩

/-- What comes before a guard is only looked at. -/
theorem Guarded.after (hx : ∀ s, Only E x s) (hf : ∀ a, Guarded c E (f a)) :
    Guarded c E (x >>= f) := by
  intro s hs
  obtain ⟨hstate, hraise⟩ := hx s
  rcases h : x s with ⟨s', e | a⟩ <;> rw [h] at hstate hraise
  · rw [bind_of_error h]
    exact ⟨hstate, e, hraise e rfl, rfl⟩
  · rw [bind_of_ok h, show s' = s from hstate]
    exact hf a s hs

/-! ## What an answer means -/

/-- Where `P` holds and there is an answer, `Q` holds after it. -/
def Ensures (P Q : σ → Prop) (x : Handler σ ε α) : Prop :=
  ∀ s, P s → ∀ a, (x s).2 = .ok a → Q (x s).1

variable {Q : σ → Prop}

/-- What comes before only has to keep what is required. -/
theorem Ensures.after (hx : Preserves P x) (hf : ∀ a, Ensures P Q (f a)) :
    Ensures P Q (x >>= f) := by
  intro s hs b hb
  have hs' := hx s hs
  rcases h : x s with ⟨s', e | a⟩ <;> rw [h] at hs'
  · rw [bind_of_error h] at hb
    cases hb
  · rw [bind_of_ok h] at hb ⊢
    exact hf a s' hs' b hb

/-- What comes after only has to keep what is reached. -/
theorem Ensures.bind (hx : Ensures P Q x) (hf : ∀ a, Preserves Q (f a)) :
    Ensures P Q (x >>= f) := by
  intro s hs b hb
  have hx' := hx s hs
  rcases h : x s with ⟨s', e | a⟩ <;> rw [h] at hx'
  · rw [bind_of_error h] at hb
    cases hb
  · rw [bind_of_ok h]
    exact hf a s' (hx' a rfl)

end Handler
