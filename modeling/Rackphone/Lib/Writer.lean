import Mathlib

/-!
# Several connections, one writer at a time

A statement that writes opens a transaction on its connection and waits while another connection
has one open. A connection sees its own transaction and otherwise what was committed last.
-/

/-- A database whose connections are named by `κ`. -/
structure Database (κ σ : Type*) where
  committed : σ
  /-- The open transaction: its connection, and what it would commit. -/
  writer : Option (κ × σ)

namespace Database

variable {κ σ : Type*} [DecidableEq κ] (d : Database κ σ) (k : κ)

def quiet (s : σ) : Database κ σ := ⟨s, none⟩

/-- What a connection reads. -/
def read : σ :=
  match d.writer with
  | some (k', s) => if k' = k then s else d.committed
  | none => d.committed

/-- What stands once the open transaction is committed. -/
def latest : σ :=
  match d.writer with
  | some (_, s) => s
  | none => d.committed

/-- Whether a statement that writes would wait. -/
def Waits : Prop := ∃ w ∈ d.writer, w.1 ≠ k

instance : Decidable (d.Waits k) := inferInstanceAs (Decidable (∃ w ∈ d.writer, w.1 ≠ k))

/-- A statement that writes, where it does not wait. -/
def write (f : σ → σ) : Database κ σ := { d with writer := some (k, f (d.read k)) }

def commit : Database κ σ :=
  match d.writer with
  | some (k', s) => if k' = k then ⟨s, none⟩ else d
  | none => d

variable {d k}

theorem read_eq_latest (h : ¬ d.Waits k) : d.read k = d.latest := by
  rcases d with ⟨committed, _ | ⟨k', s⟩⟩
  · rfl
  · have hk : k' = k := by simpa [Waits] using h
    exact if_pos hk

theorem read_eq_latest_or_committed : d.read k = d.latest ∨ d.read k = d.committed := by
  rcases d with ⟨committed, _ | ⟨k', s⟩⟩
  · exact .inl rfl
  · by_cases hk : k' = k
    · exact .inl (if_pos hk)
    · exact .inr (if_neg hk)

theorem commit_cases : d.writer.map Prod.fst = some k ∧ d.commit k = quiet (d.read k)
    ∨ d.writer.map Prod.fst ≠ some k ∧ d.commit k = d ∧ d.read k = d.committed := by
  rcases d with ⟨committed, _ | ⟨k', s⟩⟩
  · exact .inr ⟨by simp, rfl, rfl⟩
  · by_cases hk : k' = k
    · exact .inl ⟨by simp [hk], by simp [commit, read, quiet, hk]⟩
    · exact .inr ⟨by simpa using hk, if_neg hk, if_neg hk⟩

theorem committed_commit : (d.commit k).committed = d.read k := by
  obtain ⟨-, hcommit⟩ | ⟨-, hcommit, hread⟩ := commit_cases (d := d) (k := k)
  · rw [hcommit]
    rfl
  · rw [hcommit, hread]

@[simp] theorem latest_commit : (d.commit k).latest = d.latest := by
  rcases d with ⟨committed, _ | ⟨k', s⟩⟩
  · rfl
  · by_cases hk : k' = k <;> simp [commit, latest, hk]

@[simp] theorem latest_write (f : σ → σ) : (d.write k f).latest = f (d.read k) := rfl

@[simp] theorem committed_write (f : σ → σ) : (d.write k f).committed = d.committed := rfl

@[simp] theorem read_write (f : σ → σ) : (d.write k f).read k = f (d.read k) := if_pos rfl

theorem writer_commit {w : κ × σ} (h : (d.commit k).writer = some w) :
    d.writer = some w ∧ w.1 ≠ k := by
  obtain ⟨-, hcommit⟩ | ⟨hk, hcommit, -⟩ := commit_cases (d := d) (k := k)
  · simp [hcommit, quiet] at h
  · rw [hcommit] at h
    exact ⟨h, fun hw => hk (by rw [h, Option.map_some, hw])⟩

/-- A statement changes what its own connection reads, and that alone. -/
theorem read_write_of_ne {k' : κ} (hk : k' ≠ k) (h : ¬ d.Waits k) (f : σ → σ) :
    (d.write k f).read k' = d.read k' := by
  rcases d with ⟨committed, _ | ⟨k'', s⟩⟩
  · exact if_neg hk.symm
  · have hk'' : k'' = k := by simpa [Waits] using h
    subst hk''
    show (if k'' = k' then _ else committed) = (if k'' = k' then _ else committed)
    rw [if_neg hk.symm, if_neg hk.symm]

theorem read_commit (k' : κ) :
    (d.commit k).read k' = d.read k' ∨ (d.commit k).read k' = d.latest := by
  obtain ⟨hk, hcommit⟩ | ⟨-, hcommit, -⟩ := commit_cases (d := d) (k := k)
  · have hwaits : ¬ d.Waits k := by
      rintro ⟨w, hw, hne⟩
      rw [hw] at hk
      exact hne (Option.some.inj hk)
    exact .inr (by rw [hcommit, ← read_eq_latest hwaits]; rfl)
  · exact .inl (by rw [hcommit])

end Database
