import Rackphone.DrainLoop

/-!
# Only the prune step stops the drain loop

A drain that raises is caught where it is called. The prune step is taken before the units and
outside the `try`: where it raises, the pass begins no drain, and the thread ends with it.
-/

namespace Rackphone

namespace DrainLoop

@[simp] theorem isOk_ok {α : Type} (a : α) : (.ok a : Except Fault α).isOk = true := rfl
@[simp] theorem isOk_error {α : Type} (e : Fault) : (.error e : Except Fault α).isOk = false := rfl

/-! ## The units -/

/-- All that the drain of a unit does to the loop. -/
structure DrainSpec (s : DrainLoop) (u : UnitCalls) (s' : DrainLoop) (r : Except Fault ℕ) :
    Prop where
  raises : r.isOk = false ↔ u.Raises
  store : s'.store = u.batch.toList.foldl commit s.store
  acked : s'.acked = s.acked ++ if u.batch.isSome ∧ ¬ u.Raises then [u.name] else []
  errors : s'.errors = s.errors
  attempted : s'.attempted = s.attempted
  thread : s'.thread = s.thread
  stopRequested : s'.stopRequested = s.stopRequested

theorem drainUnit_spec (s : DrainLoop) (u : UnitCalls) :
    DrainSpec s u (s.drainUnit u).1 (s.drainUnit u).2 := by
  unfold drainUnit
  rcases hc : u.collected with e | _ | ⟨x, xs⟩
  · have hb : u.batch = none := by simp [UnitCalls.batch, hc]
    exact ⟨by simp [UnitCalls.Raises, hc], by simp [hb], by simp [hb], rfl, rfl, rfl, rfl⟩
  · have hb : u.batch = none := by simp [UnitCalls.batch, hc]
    exact ⟨by simp [UnitCalls.Raises, hc], by simp [hb], by simp [hb], rfl, rfl, rfl, rfl⟩
  · rcases ha : u.addEvents with e | receivedAt
    · have hb : u.batch = none := by simp [UnitCalls.batch, hc, ha]
      exact ⟨by simp [UnitCalls.Raises, hc, ha], by simp [hb, print], by simp [hb, print],
        rfl, rfl, rfl, rfl⟩
    · have hb : u.batch = some (receivedAt, (x :: xs).reduceOption) := by
        simp [UnitCalls.batch, hc, ha]
      rcases hk : u.ack with e | _
      · have hr : u.Raises := by simp [UnitCalls.Raises, hc, hk]
        exact ⟨by simp [hr], by simp [hb, print, commit], by simp [hr, print], rfl, rfl, rfl, rfl⟩
      · have hr : ¬ u.Raises := by simp [UnitCalls.Raises, hc, ha, hk]
        exact ⟨by simp [hr], by simp [hb, print, commit], by simp [hr, hb, print], rfl, rfl, rfl,
          rfl⟩

/-- What a drain that comes to its batch does to the store and the counters is what `Redelivery`
does with the batch. -/
theorem drainUnit_redelivers (s : DrainLoop) {u : UnitCalls} {receivedAt : ℤ}
    {events : List Event} (h : u.batch = some (receivedAt, events)) (r : Redelivery)
    (hr : r.store = s.store ∧ r.stats = s.stats) :
    (s.drainUnit u).1.store = (r.drainUnit receivedAt events).store
      ∧ (s.drainUnit u).1.stats = (r.drainUnit receivedAt events).stats := by
  unfold UnitCalls.batch at h
  split at h
  next x xs t hc ha =>
    cases h
    simp only [drainUnit, Redelivery.drainUnit, hc, ha, hr.1, hr.2]
    rcases u.ack with e | _ <;> exact ⟨rfl, rfl⟩
  next => cases h

/-- All that the loop's body, or the loop, does for its units. -/
structure AttemptSpec (s : DrainLoop) (us : List UnitCalls) (s' : DrainLoop) : Prop where
  attempted : s'.attempted = s.attempted ++ us.map fun u => u.name
  errors : s'.errors = s.errors + us.countP fun u => u.Raises
  store : s'.store = (us.filterMap UnitCalls.batch).foldl commit s.store
  acked : s'.acked
    = s.acked ++ (us.filter fun u => u.batch.isSome ∧ ¬ u.Raises).map fun u => u.name
  thread : s'.thread = s.thread
  stopRequested : s'.stopRequested = s.stopRequested

theorem AttemptSpec.nil (s : DrainLoop) : AttemptSpec s [] s :=
  ⟨by simp, by simp, rfl, by simp, rfl, rfl⟩

theorem AttemptSpec.append {s t r : DrainLoop} {us vs : List UnitCalls}
    (h : AttemptSpec s us t) (h' : AttemptSpec t vs r) : AttemptSpec s (us ++ vs) r where
  attempted := by rw [h'.attempted, h.attempted, List.map_append, List.append_assoc]
  errors := by rw [h'.errors, h.errors, List.countP_append, Nat.add_assoc]
  store := by rw [h'.store, h.store, List.filterMap_append, List.foldl_append]
  acked := by rw [h'.acked, h.acked, List.filter_append, List.map_append, List.append_assoc]
  thread := h'.thread.trans h.thread
  stopRequested := h'.stopRequested.trans h.stopRequested

theorem attempt_spec (s : DrainLoop) (total : ℕ) (u : UnitCalls) :
    AttemptSpec s [u] (s.attempt total u).1 := by
  have h := drainUnit_spec { s with attempted := s.attempted ++ [u.name] } u
  have hstore : u.batch.toList.foldl commit s.store
      = ([u].filterMap UnitCalls.batch).foldl commit s.store := by
    cases hb : u.batch <;> simp [hb]
  unfold attempt
  split
  next s' stored heq =>
    rw [heq] at h
    have hr : ¬ u.Raises := fun hr => by simpa using h.raises.2 hr
    exact ⟨h.attempted, h.errors.trans (by simp [hr]), h.store.trans hstore,
      h.acked.trans (by by_cases hb : u.batch.isSome <;> simp [hb, hr]), h.thread, h.stopRequested⟩
  next s' e heq =>
    rw [heq] at h
    have hr : u.Raises := h.raises.1 rfl
    exact ⟨h.attempted, (congrArg (· + 1) h.errors).trans (by simp [hr]), h.store.trans hstore,
      h.acked.trans (by simp [hr]), h.thread, h.stopRequested⟩

theorem attemptAll_spec : ∀ (us : List UnitCalls) (s : DrainLoop) (total : ℕ),
    AttemptSpec s us (s.attemptAll total us).1
  | [], s, _ => .nil s
  | u :: us, s, total =>
    (attempt_spec s total u).append (attemptAll_spec us (s.attempt total u).1 _)

/-! ## The prune step -/

variable {retention : Dict String ℤ}

/-- All that the prune step does to the loop. -/
structure PruneSpec (retention : Dict String ℤ) (s : DrainLoop) (p : Pass) (s' : DrainLoop)
    (r : Except Fault Unit) : Prop where
  raises : r.isOk = false ↔ s.PruneRaises retention p
  store : s'.store = s.prunedStore retention p
  errors : s'.errors = s.errors
  attempted : s'.attempted = s.attempted
  acked : s'.acked = s.acked
  thread : s'.thread = s.thread
  stopRequested : s'.stopRequested = s.stopRequested

theorem pruneIfDue_spec (s : DrainLoop) (p : Pass) :
    PruneSpec retention s p (s.pruneIfDue retention p).1 (s.pruneIfDue retention p).2 := by
  unfold pruneIfDue
  rcases hc : p.clock with e | now
  · exact ⟨by simp [PruneRaises, hc], by simp [prunedStore, hc], rfl, rfl, rfl, rfl, rfl⟩
  · by_cases hdue : s.PruneDue now
    · simp only [hdue, if_true]
      unfold prune
      rcases hd : p.delete with e | _
      · exact ⟨by simp [PruneRaises, hc, hdue, hd], by simp [prunedStore, hc, hd],
          rfl, rfl, rfl, rfl, rfl⟩
      · have hstore : s.prunedStore retention p = (s.store.prune retention now).1 := by
          simp [prunedStore, hc, hd, hdue]
        by_cases hn : (s.store.prune retention now).2 = 0
        · simp only [hn, if_true]
          exact ⟨by simp [PruneRaises, hc, hd, hn], hstore.symm, rfl, rfl, rfl, rfl, rfl⟩
        · simp only [hn, if_false]
          rcases hv : p.vacuum with e | _
          · exact ⟨by simp [PruneRaises, hc, hdue, hn, hv], hstore.symm, rfl, rfl, rfl, rfl, rfl⟩
          · exact ⟨by simp [PruneRaises, hc, hd, hv], hstore.symm, rfl, rfl, rfl, rfl, rfl⟩
    · simp only [hdue, if_false]
      refine ⟨by simp [PruneRaises, hc, hdue], ?_, rfl, rfl, rfl, rfl, rfl⟩
      cases hd : p.delete <;> simp [prunedStore, hc, hd, hdue]

/-! ## A pass -/

theorem runOnce_of_raises {s : DrainLoop} {p : Pass} (h : s.PruneRaises retention p) :
    (s.runOnce retention p).2.isOk = false
      ∧ (s.runOnce retention p).1.attempted = s.attempted := by
  have hp : PruneSpec retention s p _ _ := pruneIfDue_spec s p
  unfold runOnce
  split
  next s' e heq =>
    rw [heq] at hp
    exact ⟨rfl, hp.attempted⟩
  next s' heq =>
    rw [heq] at hp
    simpa using hp.raises.2 h

theorem runOnce_of_holds {s : DrainLoop} {p : Pass} (h : ¬ s.PruneRaises retention p) :
    (s.runOnce retention p).2.isOk
      ∧ AttemptSpec (s.pruneIfDue retention p).1 p.units (s.runOnce retention p).1 := by
  have hp : PruneSpec retention s p _ _ := pruneIfDue_spec s p
  unfold runOnce
  split
  next s' e heq =>
    rw [heq] at hp
    exact absurd (hp.raises.1 rfl) h
  next s' _ heq =>
    rw [heq]
    exact ⟨rfl, attemptAll_spec p.units s' 0⟩

theorem step_of_isOk {s : DrainLoop} {p : Pass} (hs : s.Polling)
    (h : (s.runOnce retention p).2.isOk) :
    step retention s (.pass p) = (s.runOnce retention p).1 := by
  simp only [step, hs.1, hs.2, Bool.false_eq_true, if_false]
  split
  next heq => rw [heq]
  next heq =>
    rw [heq] at h
    cases h

theorem step_of_not_isOk {s : DrainLoop} {p : Pass} (hs : s.Polling)
    (h : (s.runOnce retention p).2.isOk = false) :
    ∃ e, step retention s (.pass p)
      = { (s.runOnce retention p).1 with thread := .raised e } := by
  simp only [step, hs.1, hs.2, Bool.false_eq_true, if_false]
  split
  next heq =>
    rw [heq] at h
    cases h
  next s' e heq => exact ⟨e, by rw [heq]⟩

/-- A pass does what it is to do exactly where its prune step holds. -/
theorem passSound_iff {s : DrainLoop} {p : Pass} (hs : s.Polling) :
    s.PassSound retention p ↔ ¬ s.PruneRaises retention p := by
  constructor
  · intro h hr
    have hfalse := (runOnce_of_raises hr).1
    rw [h.returns] at hfalse
    cases hfalse
  · intro h
    have hp : PruneSpec retention s p _ _ := pruneIfDue_spec s p
    obtain ⟨hok, hu⟩ := runOnce_of_holds h
    have hstep := step_of_isOk hs hok
    exact {
      attempted := by rw [hstep, hu.attempted, hp.attempted]
      counted := by rw [hstep, hu.errors, hp.errors]
      confined := by rw [hstep, hu.store, hp.store]
      acked := by rw [hstep, hu.acked, hp.acked]
      returns := hok
      goesOn := by
        rw [hstep]
        exact ⟨(hu.thread.trans hp.thread).trans hs.1,
          (hu.stopRequested.trans hp.stopRequested).trans hs.2⟩ }

/-- A pass whose prune step raises begins no drain and ends the thread. -/
theorem pass_of_raises {s : DrainLoop} {p : Pass} (hs : s.Polling)
    (h : s.PruneRaises retention p) :
    (step retention s (.pass p)).attempted = s.attempted
      ∧ ∃ e, (step retention s (.pass p)).thread = .raised e := by
  obtain ⟨hok, hatt⟩ := runOnce_of_raises h
  obtain ⟨e, he⟩ := step_of_not_isOk hs hok
  rw [he]
  exact ⟨hatt, e, rfl⟩

/-! ## Runs -/

theorem sound_iff_pruneHolds (s : DrainLoop) (a : Action) :
    s.Sound retention a ↔ s.PruneHolds retention a := by
  cases a with
  | stop => rfl
  | pass p => exact forall_congr' fun hs => passSound_iff hs

/-- Every pass of a run does what it is to do exactly where no prune step of it raises. -/
theorem meets_sound_iff (retention : Dict String ℤ) (s : DrainLoop) (as : List Action) :
    Run.Meets (step retention) (Sound retention) s as
      ↔ Run.Meets (step retention) (PruneHolds retention) s as :=
  Run.meets_congr (I := fun _ => True) (fun _ _ _ => trivial)
    (fun s a _ => sound_iff_pruneHolds s a) as trivial

/-- A thread that has raised makes no further pass. -/
theorem attempted_of_raised {s : DrainLoop} {e : Fault} (h : s.thread = .raised e)
    (as : List Action) : (Run.final (step retention) s as).attempted = s.attempted := by
  have hinv : (Run.final (step retention) s as).thread = .raised e
      ∧ (Run.final (step retention) s as).attempted = s.attempted := by
    refine Run.final_of_invariant
      (I := fun t : DrainLoop => t.thread = .raised e ∧ t.attempted = s.attempted) ?_ as ⟨h, rfl⟩
    rintro t a ⟨ht, hatt⟩
    cases a with
    | stop => exact ⟨ht, hatt⟩
    | pass p =>
      have hstep : step retention t (.pass p) = t := by simp only [step, ht]
      rw [hstep]
      exact ⟨ht, hatt⟩
  exact hinv.2

/-- Once a prune step raises, no unit is drained again, whatever is done. -/
theorem attempted_after_raises {s : DrainLoop} {p : Pass} (hs : s.Polling)
    (h : s.PruneRaises retention p) (as : List Action) :
    (Run.final (step retention) s (.pass p :: as)).attempted = s.attempted := by
  obtain ⟨hatt, e, hthread⟩ := pass_of_raises hs h
  exact (attempted_of_raised hthread as).trans hatt

/-- Messages are kept for thirty days. -/
def monthOfMessages : Dict String ℤ := Dict.empty.set KIND_SMS 30

/-- One locked table at the hour's prune: the unit at hand is not drained, then or later. -/
theorem prune_ends_loop :
    ¬ Run.Meets (step monthOfMessages) (Sound monthOfMessages) (start .empty)
      [.pass ⟨.ok 1700000000, .error "database is locked", .ok (),
        [⟨"lisa01", .ok (), .ok [], .ok 1700000000, .ok ()⟩]⟩] := by
  intro h
  have hatt := (h.1 ⟨rfl, rfl⟩).attempted
  simp [step, runOnce, pruneIfDue, prune, start, PruneDue] at hatt

end DrainLoop

end Rackphone
