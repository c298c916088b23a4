import Rackphone.Lib.Transducer

/-!
# Parsers that hold what they cannot use yet

A parser that is given its input in chunks appends each to a buffer and takes off its front what it
can, round after round: each round needs a number of items and does nothing while there are fewer.
Where no round ends the loop early, the chunks give what the whole input gives at once.
-/

namespace Incremental

open Transducer

variable {σ β ο : Type*}

/-- What a round makes of the items it needs, and whether the loop goes on. -/
structure Used (σ ο : Type*) where
  state : σ
  outputs : List ο
  goesOn : Bool

/-- A parser by its rounds. A round may need nothing only in a state that is `idle`, and does not
leave it so. -/
structure Parser (σ β ο : Type*) where
  need : σ → ℕ
  use : σ → List β → Used σ ο
  idle : σ → Bool
  idle_of_need : ∀ s, need s = 0 → idle s = true
  idle_use : ∀ s front, need s = 0 → idle (use s front).state = false

/-- Where a loop ended: the rounds ran out, or one of them stopped it. -/
structure Parsed (σ β ο : Type*) where
  state : σ
  rest : List β
  outputs : List ο
  stopped : Bool

namespace Parser

variable (p : Parser σ β ο)

/-- A bound on the rounds a buffer can take. -/
def measure (s : σ) (b : List β) : ℕ := 2 * b.length + (p.idle s).toNat

def drain : ℕ → σ → List β → Parsed σ β ο
  | 0, s, b => ⟨s, b, [], false⟩
  | n + 1, s, b =>
    if b.length < p.need s then ⟨s, b, [], false⟩
    else
      let u := p.use s (b.take (p.need s))
      let rest := b.drop (p.need s)
      if u.goesOn then
        let later := drain n u.state rest
        { later with outputs := u.outputs ++ later.outputs }
      else ⟨u.state, rest, u.outputs, true⟩

/-- The loop over the rounds. -/
def parse (s : σ) (b : List β) : Parsed σ β ο := p.drain (p.measure s b + 1) s b

/-- One chunk; an empty one does nothing. -/
def add (s : σ × List β) (chunk : List β) : (σ × List β) × List ο :=
  if chunk = [] then (s, [])
  else
    let r := p.parse s.1 (s.2 ++ chunk)
    ((r.state, r.rest), r.outputs)

variable {p} {s : σ} {b : List β}

theorem measure_use (h : ¬ b.length < p.need s) :
    p.measure (p.use s (b.take (p.need s))).state (b.drop (p.need s)) < p.measure s b := by
  rw [measure, measure, List.length_drop]
  rcases Nat.eq_zero_or_pos (p.need s) with h0 | h0
  · rw [p.idle_of_need s h0, p.idle_use s _ h0, Bool.toNat_true, Bool.toNat_false]
    omega
  · have := Bool.toNat_le (p.idle (p.use s (b.take (p.need s))).state)
    omega

/-- Rounds beyond the measure make no difference. -/
theorem drain_eq : ∀ (n m : ℕ) (s : σ) (b : List β), p.measure s b < n → p.measure s b < m →
    p.drain n s b = p.drain m s b
  | n + 1, m + 1, s, b, hn, hm => by
    rw [drain, drain]
    split_ifs with h
    · rfl
    · have hlt := measure_use h
      have ih := drain_eq n m _ _ (hlt.trans_le (Nat.le_of_lt_succ hn))
        (hlt.trans_le (Nat.le_of_lt_succ hm))
      simp only [ih]

theorem parse_of_lt (h : b.length < p.need s) : p.parse s b = ⟨s, b, [], false⟩ := by
  rw [parse, drain, if_pos h]

theorem parse_of_stop (h : ¬ b.length < p.need s)
    (hg : (p.use s (b.take (p.need s))).goesOn = false) :
    p.parse s b = ⟨(p.use s (b.take (p.need s))).state, b.drop (p.need s),
      (p.use s (b.take (p.need s))).outputs, true⟩ := by
  simp [parse, drain, h, hg]

theorem parse_of_goesOn (h : ¬ b.length < p.need s)
    (hg : (p.use s (b.take (p.need s))).goesOn = true) :
    p.parse s b =
      let later := p.parse (p.use s (b.take (p.need s))).state (b.drop (p.need s))
      { later with outputs := (p.use s (b.take (p.need s))).outputs ++ later.outputs } := by
  have hfuel : p.drain (p.measure s b) (p.use s (b.take (p.need s))).state (b.drop (p.need s))
      = p.parse (p.use s (b.take (p.need s))).state (b.drop (p.need s)) :=
    drain_eq _ _ _ _ (measure_use h) (Nat.lt_succ_self _)
  rw [parse, drain, if_neg h]
  simp only [hg, if_true, hfuel]

/-- The round over a front of the needed length, with anything behind it. -/
theorem parse_front {front : List β} (hf : front.length = p.need s)
    (hg : (p.use s front).goesOn = true) (tail : List β) :
    p.parse s (front ++ tail) =
      let later := p.parse (p.use s front).state tail
      { later with outputs := (p.use s front).outputs ++ later.outputs } := by
  have htake : (front ++ tail).take (p.need s) = front := by rw [← hf, List.take_left]
  have hdrop : (front ++ tail).drop (p.need s) = tail := by rw [← hf, List.drop_left]
  have h : ¬ (front ++ tail).length < p.need s := by
    rw [List.length_append]
    omega
  rw [parse_of_goesOn h (by rwa [htake]), htake, hdrop]

/-- The induction over the rounds of a loop. -/
theorem rounds {motive : σ → List β → Prop}
    (done : ∀ s b, b.length < p.need s → motive s b)
    (stop : ∀ s b, ¬ b.length < p.need s → (p.use s (b.take (p.need s))).goesOn = false →
      motive s b)
    (round : ∀ s b, ¬ b.length < p.need s → (p.use s (b.take (p.need s))).goesOn = true →
      motive (p.use s (b.take (p.need s))).state (b.drop (p.need s)) → motive s b)
    (s : σ) (b : List β) : motive s b := by
  induction h : p.measure s b using Nat.strongRecOn generalizing s b with
  | _ n ih =>
    by_cases hb : b.length < p.need s
    · exact done s b hb
    · cases hg : (p.use s (b.take (p.need s))).goesOn with
      | false => exact stop s b hb hg
      | true => exact round s b hb hg (ih _ (h ▸ measure_use hb) _ _ rfl)

/-- A loop that is not stopped ends where there is too little for another round. -/
theorem length_rest (s : σ) (b : List β) (h : (p.parse s b).stopped = false) :
    (p.parse s b).rest.length < p.need (p.parse s b).state := by
  induction s, b using p.rounds with
  | done s b hb => rwa [parse_of_lt hb]
  | stop s b hb hg => simp [parse_of_stop hb hg] at h
  | round s b hb hg ih =>
    rw [parse_of_goesOn hb hg] at h ⊢
    exact ih h

/-- With more behind it, a round finds the same front. -/
theorem front_append (hb : ¬ b.length < p.need s) (c : List β) :
    ¬ (b ++ c).length < p.need s ∧ (b ++ c).take (p.need s) = b.take (p.need s)
      ∧ (b ++ c).drop (p.need s) = b.drop (p.need s) ++ c :=
  ⟨by rw [List.length_append]; omega, List.take_append_of_le_length (by omega),
    List.drop_append_of_le_length (by omega)⟩

/-- More input behind a loop that is not stopped is parsed from where it ended. -/
theorem parse_append (s : σ) (b c : List β) (h : (p.parse s b).stopped = false) :
    p.parse s (b ++ c) =
      let later := p.parse (p.parse s b).state ((p.parse s b).rest ++ c)
      { later with outputs := (p.parse s b).outputs ++ later.outputs } := by
  induction s, b using p.rounds with
  | done s b hb => simp [parse_of_lt hb]
  | stop s b hb hg => simp [parse_of_stop hb hg] at h
  | round s b hb hg ih =>
    obtain ⟨hb', htake, hdrop⟩ := front_append hb c
    rw [parse_of_goesOn hb hg] at h ⊢
    rw [parse_of_goesOn hb' (by rwa [htake]), htake, hdrop, ih h]
    simp

/-- What stops a loop stops it too with more input behind. -/
theorem stopped_append (s : σ) (b c : List β) (h : (p.parse s (b ++ c)).stopped = false) :
    (p.parse s b).stopped = false := by
  induction s, b using p.rounds with
  | done s b hb => rw [parse_of_lt hb]
  | stop s b hb hg =>
    obtain ⟨hb', htake, hdrop⟩ := front_append hb c
    rw [parse_of_stop hb' (by rwa [htake])] at h
    exact absurd h (by simp)
  | round s b hb hg ih =>
    obtain ⟨hb', htake, hdrop⟩ := front_append hb c
    rw [parse_of_goesOn hb' (by rwa [htake]), htake, hdrop] at h
    rw [parse_of_goesOn hb hg]
    exact ih h

/-- Where nothing stops the loop over the whole input, its chunks give what the whole gives. -/
theorem run_add : ∀ (cs : List (List β)) (s : σ) (b : List β), b.length < p.need s →
    (p.parse s (b ++ cs.flatten)).stopped = false →
      run p.add (s, b) cs = (((p.parse s (b ++ cs.flatten)).state,
        (p.parse s (b ++ cs.flatten)).rest), (p.parse s (b ++ cs.flatten)).outputs)
  | [], s, b, hb, _ => by simp [parse_of_lt hb]
  | c :: cs, s, b, hb, h => by
    rw [List.flatten_cons, ← List.append_assoc] at h ⊢
    rw [run_cons]
    by_cases hc : c = []
    · subst hc
      rw [List.append_nil] at h ⊢
      simp [add, run_add cs s b hb h]
    · have hstop := stopped_append s (b ++ c) cs.flatten h
      have happ := parse_append s (b ++ c) cs.flatten hstop
      rw [happ] at h
      have ih := run_add cs _ _ (length_rest s (b ++ c) hstop) h
      simp only [add, if_neg hc]
      rw [ih, happ]

end Parser

end Incremental
