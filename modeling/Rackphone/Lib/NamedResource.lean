import Mathlib

/-!
# One named resource behind a lock

Parties create resources under a lock and write the name of the latest one where the others find
it. `Exclusive` says that no two parties hold the lock and `Allotted` that no two created the same
resource. `Accounted` says that every live resource is either the named one or still to be named by
the party that created it, and `Stale` that the name leads to nothing, so that it can be given up
without losing a live resource.
-/

namespace NamedResource

variable {ι ρ : Type*}

structure Exclusive (locked : Bool) (holds : ι → Prop) : Prop where
  locked_of_holds : ∀ i, holds i → locked = true
  eq_of_holds : ∀ i j, holds i → holds j → i = j

namespace Exclusive

variable {locked locked' : Bool} {holds holds' : ι → Prop} {i : ι}

theorem mono (h : Exclusive locked holds) (hle : ∀ j, holds' j → holds j) :
    Exclusive locked holds' where
  locked_of_holds j hj := h.locked_of_holds j (hle j hj)
  eq_of_holds j k hj hk := h.eq_of_holds j k (hle j hj) (hle k hk)

theorem not_holds (h : Exclusive false holds) (j : ι) : ¬ holds j := fun hj =>
  Bool.false_ne_true (h.locked_of_holds j hj)

theorem take (h : Exclusive false holds) (hle : ∀ j, holds' j → j = i ∨ holds j) :
    Exclusive true holds' where
  locked_of_holds _ _ := rfl
  eq_of_holds j k hj hk := by
    have hj' := (hle j hj).resolve_right (h.not_holds j)
    have hk' := (hle k hk).resolve_right (h.not_holds k)
    rw [hj', hk']

theorem drop (h : Exclusive locked holds) (hi : holds i)
    (hle : ∀ j, holds' j → j ≠ i ∧ holds j) : Exclusive locked' holds' where
  locked_of_holds j hj := absurd (h.eq_of_holds j i (hle j hj).2 hi) (hle j hj).1
  eq_of_holds j _ hj _ := absurd (h.eq_of_holds j i (hle j hj).2 hi) (hle j hj).1

end Exclusive

/-- Names are given out in order; `own` is what each party was given. -/
structure Allotted (next : ℕ) (own : ι → Option ℕ) : Prop where
  lt_next : ∀ i p, own i = some p → p < next
  eq_of_own : ∀ i j p, own i = some p → own j = some p → i = j

namespace Allotted

variable {next : ℕ} {own own' : ι → Option ℕ} {i : ι}

theorem mono (h : Allotted next own) (hle : ∀ j p, own' j = some p → own j = some p) :
    Allotted next own' where
  lt_next j p hj := h.lt_next j p (hle j p hj)
  eq_of_own j k p hj hk := h.eq_of_own j k p (hle j p hj) (hle k p hk)

theorem create (h : Allotted next own)
    (hle : ∀ j p, own' j = some p → (j = i ∧ p = next) ∨ own j = some p) :
    Allotted (next + 1) own' where
  lt_next j p hj := by
    rcases hle j p hj with ⟨-, rfl⟩ | hj
    · exact Nat.lt_succ_self _
    · exact Nat.lt_succ_of_lt (h.lt_next j p hj)
  eq_of_own j k p hj hk := by
    rcases hle j p hj with ⟨rfl, rfl⟩ | hj <;> rcases hle k p hk with ⟨rfl, hp⟩ | hk
    · rfl
    · exact absurd (h.lt_next k _ hk) (lt_irrefl _)
    · exact absurd (h.lt_next j p hj) (by omega)
    · exact h.eq_of_own j k p hj hk

end Allotted

/-- What is named is not live. -/
def Stale (name : Option ρ) (live : Finset ρ) : Prop := ∀ r ∈ name, r ∉ live

instance [DecidableEq ρ] (name : Option ρ) (live : Finset ρ) : Decidable (Stale name live) :=
  inferInstanceAs (Decidable (∀ r ∈ name, r ∉ live))

def Accounted (name : Option ρ) (live : Finset ρ) (pending : ρ → Prop) : Prop :=
  ∀ r ∈ live, name = some r ∨ pending r

theorem Stale.mono {name : Option ρ} {live live' : Finset ρ} (h : Stale name live)
    (hlive : live' ⊆ live) : Stale name live' := fun r hr hmem => h r hr (hlive hmem)

theorem stale_none (live : Finset ρ) : Stale none live := fun r hr => by cases hr

namespace Accounted

variable {name : Option ρ} {live live' : Finset ρ} {pending pending' : ρ → Prop} {r : ρ}

theorem mono (h : Accounted name live pending) (hlive : live' ⊆ live)
    (hpending : ∀ q, pending q → pending' q) : Accounted name live' pending' := fun q hq =>
  (h q (hlive hq)).imp_right (hpending q)

theorem create [DecidableEq ρ] (h : Accounted name live pending) (hr : pending' r)
    (hpending : ∀ q, pending q → pending' q) : Accounted name (insert r live) pending' := by
  intro q hq
  rcases Finset.mem_insert.1 hq with rfl | hq
  · exact .inr hr
  · exact (h q hq).imp_right (hpending q)

theorem pending_of_stale (h : Accounted name live pending) (hstale : Stale name live)
    {q : ρ} (hq : q ∈ live) : pending q :=
  (h q hq).resolve_left fun hname => hstale q hname hq

theorem forget (h : Accounted name live pending) (hstale : Stale name live)
    (hpending : ∀ q, pending q → pending' q) : Accounted none live pending' := fun q hq =>
  .inr (hpending q (h.pending_of_stale hstale hq))

theorem register (h : Accounted name live pending) (hstale : Stale name live)
    (hpending : ∀ q, pending q → q = r) : Accounted (some r) live pending' := fun q hq =>
  .inl (by rw [hpending q (h.pending_of_stale hstale hq)])

end Accounted

end NamedResource
