import Mathlib

/-!
# Work chained through a reassigned future

Operations are added at any time. Each awaits the future that was assigned last, and its own takes
that place. It starts when what it awaits has finished, however that ended. So operations start in
the order in which they were added, one at a time.
-/

namespace Chain

inductive Phase where
  | waiting
  | running
  | finished
deriving DecidableEq

structure Job (ω : Type*) where
  op : ω
  /-- The job it awaits; none is a future that is complete from the beginning. -/
  awaits : Option ℕ
  phase : Phase

inductive Event (ω : Type*) where
  | start (op : ω)
  | finish (op : ω)
deriving DecidableEq

end Chain

structure Chain (ω : Type*) where
  jobs : List (Chain.Job ω)
  /-- The future that was assigned last. -/
  last : Option ℕ
  log : List (Chain.Event ω)

namespace Chain

variable {ω : Type*} (c : Chain ω)

def empty : Chain ω := ⟨[], none, []⟩

def ops : List ω := c.jobs.map Job.op

def add (op : ω) : Chain ω :=
  { c with jobs := c.jobs ++ [⟨op, c.last, .waiting⟩], last := some c.jobs.length }

/-- A future is complete. -/
def Completed (f : Option ℕ) : Prop :=
  ∀ i ∈ f, ∃ j ∈ c.jobs[i]?, j.phase = .finished

instance (f : Option ℕ) : Decidable (c.Completed f) :=
  inferInstanceAs (Decidable (∀ i ∈ f, ∃ j ∈ c.jobs[i]?, j.phase = .finished))

/-- The operation of a job that may start. -/
def starts (i : ℕ) : Option ω :=
  match c.jobs[i]? with
  | some j => if j.phase = .waiting ∧ c.Completed j.awaits then some j.op else none
  | none => none

/-- The operation of a job that is running. -/
def runs (i : ℕ) : Option ω :=
  match c.jobs[i]? with
  | some j => if j.phase = .running then some j.op else none
  | none => none

def setPhase (i : ℕ) (p : Phase) : Chain ω :=
  { c with jobs := c.jobs.modify i fun j => { j with phase := p } }

def start (i : ℕ) (op : ω) : Chain ω :=
  { c.setPhase i .running with log := c.log ++ [.start op] }

def finish (i : ℕ) (op : ω) : Chain ω :=
  { c.setPhase i .finished with log := c.log ++ [.finish op] }

/-! ## One at a time -/

/-- The future before the job at an index. -/
def before : ℕ → Option ℕ
  | 0 => none
  | i + 1 => some i

/-- The first `done` jobs have finished, the one after them runs if the chain is busy, and the
others wait. -/
structure Serial (done : ℕ) (busy : Bool) : Prop where
  last : c.last = before c.jobs.length
  awaits : ∀ i, ∀ j ∈ c.jobs[i]?, j.awaits = before i
  phase : ∀ i, ∀ j ∈ c.jobs[i]?,
    j.phase = if i < done then .finished else if busy ∧ i = done then .running else .waiting
  length : done + busy.toNat ≤ c.jobs.length
  log : c.log = (c.ops.take done).flatMap (fun op => [.start op, .finish op])
    ++ (if busy then (c.ops.drop done).take 1 else []).map .start

variable {c} {done : ℕ} {busy : Bool} {i : ℕ} {op : ω}

@[simp] theorem length_ops : c.ops.length = c.jobs.length := List.length_map ..

@[simp] theorem ops_add : (c.add op).ops = c.ops ++ [op] := by simp [ops, add]

theorem ops_setPhase (p : Phase) : (c.setPhase i p).ops = c.ops := by
  unfold ops setPhase
  refine List.ext_getElem? fun k => ?_
  simp only [List.getElem?_map, List.getElem?_modify]
  split_ifs <;> cases c.jobs[k]? <;> rfl

@[simp] theorem ops_start : (c.start i op).ops = c.ops := ops_setPhase _

@[simp] theorem ops_finish : (c.finish i op).ops = c.ops := ops_setPhase _

theorem mem_getElem?_concat {α : Type*} {l : List α} {a b : α} :
    b ∈ (l ++ [a])[i]? ↔ b ∈ l[i]? ∨ i = l.length ∧ b = a := by
  simp only [Option.mem_def]
  rcases lt_trichotomy i l.length with hi | rfl | hi
  · rw [List.getElem?_append_left hi]
    simp [hi.ne]
  · rw [List.getElem?_concat_length]
    simp [eq_comm]
  · rw [List.getElem?_eq_none (by simpa using hi), List.getElem?_eq_none hi.le]
    simp [hi.ne']

theorem mem_setPhase {p : Phase} {k : ℕ} {j : Job ω} (h : j ∈ (c.setPhase i p).jobs[k]?) :
    ∃ j₀ ∈ c.jobs[k]?, j.awaits = j₀.awaits ∧ j.phase = if k = i then p else j₀.phase := by
  rw [setPhase, List.getElem?_modify, Option.mem_def] at h
  obtain ⟨j₀, hj₀, rfl⟩ := Option.map_eq_some_iff.1 h
  refine ⟨j₀, hj₀, ?_⟩
  by_cases hk : i = k
  · simp [hk]
  · simp [hk, Ne.symm hk]

theorem empty_serial : Serial (empty : Chain ω) 0 false where
  last := rfl
  awaits i j hj := by simp [empty] at hj
  phase i j hj := by simp [empty] at hj
  length := le_rfl
  log := rfl

theorem Serial.add (h : c.Serial done busy) (op : ω) : (c.add op).Serial done busy where
  last := by simp [Chain.add, before]
  awaits i j hj := by
    rcases mem_getElem?_concat.1 hj with hj | ⟨rfl, rfl⟩
    · exact h.awaits i j hj
    · exact h.last
  phase i j hj := by
    have hlength := h.length
    rcases mem_getElem?_concat.1 hj with hj | ⟨rfl, rfl⟩
    · exact h.phase i j hj
    · have hdone : ¬ c.jobs.length < done := by omega
      have hrun : ¬ (busy = true ∧ c.jobs.length = done) := by
        rintro ⟨rfl, heq⟩
        simp only [Bool.toNat_true] at hlength
        omega
      rw [if_neg hdone, if_neg hrun]
  length := by
    have hlength := h.length
    simp only [Chain.add, List.length_append, List.length_singleton]
    omega
  log := by
    have hlength := h.length
    rw [← length_ops] at hlength
    have htake : (c.ops ++ [op]).take done = c.ops.take done :=
      List.take_append_of_le_length (by omega)
    rw [ops_add, htake]
    refine h.log.trans ?_
    cases busy with
    | false => rfl
    | true =>
      simp only [Bool.toNat_true] at hlength
      rw [List.drop_append_of_le_length (by omega), if_pos rfl, if_pos rfl,
        List.take_append_of_le_length (by rw [List.length_drop]; omega)]

/-- What is complete is a job before `done`. -/
theorem Serial.completed_before (h : c.Serial done busy) {n : ℕ} (hn : c.Completed (before n)) :
    n ≤ done := by
  cases n with
  | zero => exact Nat.zero_le _
  | succ i =>
    obtain ⟨j, hj, hphase⟩ := hn i rfl
    rw [h.phase i j hj] at hphase
    by_contra hlt
    rw [if_neg (by omega)] at hphase
    split_ifs at hphase

/-- Only the first job that has not finished may start, and none while one runs. -/
theorem Serial.of_starts (h : c.Serial done busy) (hs : c.starts i = some op) :
    i = done ∧ busy = false ∧ c.ops[done]? = some op := by
  unfold starts at hs
  cases hj : c.jobs[i]? with
  | none => simp [hj] at hs
  | some j =>
    simp only [hj] at hs
    split_ifs at hs with hready
    obtain ⟨hwaiting, hcompleted⟩ := hready
    rw [h.awaits i j hj] at hcompleted
    have hle := h.completed_before hcompleted
    have hphase := h.phase i j hj
    rw [hwaiting] at hphase
    have hlt : ¬ i < done := by
      intro hlt
      simp [hlt] at hphase
    have hi : i = done := by omega
    have hbusy : busy = false := by
      cases busy with
      | false => rfl
      | true => simp [hi] at hphase
    refine ⟨hi, hbusy, ?_⟩
    rw [ops, ← hi, List.getElem?_map, hj]
    exact hs

theorem Serial.of_runs (h : c.Serial done busy) (hr : c.runs i = some op) :
    i = done ∧ busy = true ∧ c.ops[done]? = some op := by
  unfold runs at hr
  cases hj : c.jobs[i]? with
  | none => simp [hj] at hr
  | some j =>
    simp only [hj] at hr
    split_ifs at hr with hrunning
    have hphase := h.phase i j hj
    rw [hrunning] at hphase
    have hat : busy = true ∧ i = done := by
      split_ifs at hphase with hlt hat
      exact hat
    refine ⟨hat.2, hat.1, ?_⟩
    rw [ops, ← hat.2, List.getElem?_map, hj]
    exact hr

theorem lt_length_of_getElem?_ops (h : c.ops[done]? = some op) : done < c.jobs.length := by
  rw [← length_ops]
  exact (List.getElem?_eq_some_iff.1 h).1

theorem take_succ_ops (h : c.ops[done]? = some op) :
    c.ops.take (done + 1) = c.ops.take done ++ [op] ∧ (c.ops.drop done).take 1 = [op] := by
  obtain ⟨hlt, rfl⟩ := List.getElem?_eq_some_iff.1 h
  refine ⟨List.take_succ_eq_append_getElem hlt, ?_⟩
  rw [List.drop_eq_getElem_cons hlt]
  rfl

/-- The next operation starts. -/
theorem Serial.start (h : c.Serial done false) (hop : c.ops[done]? = some op) :
    (c.start done op).Serial done true where
  last := by
    simp only [Chain.start, setPhase, List.length_modify]
    exact h.last
  awaits i j hj := by
    obtain ⟨j₀, hj₀, hawaits, -⟩ := mem_setPhase hj
    rw [hawaits, h.awaits i j₀ hj₀]
  phase i j hj := by
    obtain ⟨j₀, hj₀, -, hphase⟩ := mem_setPhase hj
    have hold := h.phase i j₀ hj₀
    rw [hphase, hold]
    by_cases hi : i = done
    · simp [hi]
    · simp [hi]
  length := by
    have hlt := lt_length_of_getElem?_ops hop
    simp only [Chain.start, setPhase, List.length_modify, Bool.toNat_true]
    omega
  log := by
    have hlog := h.log
    simp only [Bool.false_eq_true, ↓reduceIte, List.map_nil, List.append_nil] at hlog
    rw [ops_start, if_pos rfl, (take_succ_ops hop).2, Chain.start, hlog]
    rfl

/-- The running operation finishes. -/
theorem Serial.finish (h : c.Serial done true) (hop : c.ops[done]? = some op) :
    (c.finish done op).Serial (done + 1) false where
  last := by
    simp only [Chain.finish, setPhase, List.length_modify]
    exact h.last
  awaits i j hj := by
    obtain ⟨j₀, hj₀, hawaits, -⟩ := mem_setPhase hj
    rw [hawaits, h.awaits i j₀ hj₀]
  phase i j hj := by
    obtain ⟨j₀, hj₀, -, hphase⟩ := mem_setPhase hj
    have hold := h.phase i j₀ hj₀
    rw [hphase, hold]
    rcases lt_trichotomy i done with hi | hi | hi
    · simp [hi, hi.ne, hi.trans (Nat.lt_succ_self done)]
    · simp [hi]
    · have hi' : ¬ i < done + 1 := by omega
      simp [hi.ne', hi.not_gt, hi']
  length := by
    have hlt := lt_length_of_getElem?_ops hop
    simp only [Chain.finish, setPhase, List.length_modify, Bool.toNat_false]
    omega
  log := by
    have hlog := h.log
    rw [if_pos rfl, (take_succ_ops hop).2] at hlog
    rw [ops_finish, (take_succ_ops hop).1, Chain.finish, hlog]
    simp

/-- When the future assigned last is complete, all has finished. -/
theorem Serial.all_finished (h : c.Serial done busy) (hlast : c.Completed c.last) :
    done = c.ops.length ∧ busy = false := by
  have hlength := h.length
  rw [h.last] at hlast
  have hle := h.completed_before hlast
  rw [length_ops]
  cases busy with
  | false => exact ⟨by simp only [Bool.toNat_false] at hlength; omega, rfl⟩
  | true =>
    simp only [Bool.toNat_true] at hlength
    omega

end Chain
