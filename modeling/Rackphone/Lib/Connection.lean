import Mathlib

/-!
# One database connection

A connection sees its own statements at once and the database gets them at the next commit. The
transaction belongs to the connection, so whoever commits or rolls back does so for every
statement made since the last time, by whichever thread.
-/

structure Connection (σ : Type*) where
  committed : σ
  /-- What statements on this connection read and write. -/
  working : σ

namespace Connection

variable {σ : Type*} (c : Connection σ)

def opened (s : σ) : Connection σ := ⟨s, s⟩

/-- A statement, which leaves the connection with `s`. -/
def write (s : σ) : Connection σ := { c with working := s }

def commit : Connection σ := { c with committed := c.working }

def rollback : Connection σ := { c with working := c.committed }

@[simp] theorem working_opened (s : σ) : (opened s).working = s := rfl
@[simp] theorem committed_opened (s : σ) : (opened s).committed = s := rfl
@[simp] theorem working_write (s : σ) : (c.write s).working = s := rfl
@[simp] theorem committed_write (s : σ) : (c.write s).committed = c.committed := rfl
@[simp] theorem working_commit : c.commit.working = c.working := rfl
@[simp] theorem committed_commit : c.commit.committed = c.working := rfl
@[simp] theorem working_rollback : c.rollback.working = c.committed := rfl
@[simp] theorem committed_rollback : c.rollback.committed = c.committed := rfl

end Connection
