import Rackphone.Proofs.EventStore
import Rackphone.StoreConnection

/-!
# Acknowledged means committed

What the loop of `add_events` has passed is on the connection, and a commit, whoever makes it,
makes it durable. Only a rollback of the other thread can take it away before the batch's own
commit, and then nobody notices.
-/

namespace Rackphone

namespace StoreConnection

variable {s : StoreConnection}

structure Inv (s : StoreConnection) : Prop where
  grown : s.connection.committed.rows <+: s.table.rows
  passed : ∀ e ∈ s.drain.passed, e.key ∈ s.table.keys
  acks : s.AcksCommitted

theorem inv_opened (store : EventStore) : (opened store).Inv :=
  ⟨List.prefix_refl _, fun _ h => (nomatch h), fun _ h => (nomatch h)⟩

theorem keys_subset {s s' : EventStore} (h : s.rows <+: s'.rows) : s.keys ⊆ s'.keys :=
  (h.map fun r : Row => r.key).subset

namespace Inv

theorem insert (h : s.Inv) (e : Event) (t : ℤ) :
    Inv { s with connection := s.connection.write (s.table.insertOrIgnore e t) } where
  grown := h.grown.trans (EventStore.rows_prefix_insertOrIgnore _ _ _)
  passed e' he' := keys_subset (EventStore.rows_prefix_insertOrIgnore _ _ _) (h.passed e' he')
  acks := h.acks

theorem commit (h : s.Inv) : Inv { s with connection := s.connection.commit } where
  grown := List.prefix_refl _
  passed := h.passed
  acks e he := keys_subset h.grown (h.acks e he)

theorem setSent (h : s.Inv) (sent : SentPhase) : Inv { s with sent } :=
  ⟨h.grown, h.passed, h.acks⟩

theorem setDrain (h : s.Inv) {drain : DrainPhase} (hpassed : drain.passed = [])
    (hack : ∀ e ∈ drain.toAck, e.key ∈ s.connection.committed.keys) : Inv { s with drain } :=
  ⟨h.grown, fun _ he => (nomatch hpassed ▸ he), hack⟩

theorem drainRolledBack (s : StoreConnection) : s.drainRolledBack.Inv where
  grown := List.prefix_refl _
  passed _ he := nomatch he
  acks _ he := nomatch he

theorem sentRolledBack (h : s.Inv)
    (hsafe : ∀ e ∈ s.drain.passed, e.key ∈ s.connection.committed.keys) :
    s.sentRolledBack.Inv where
  grown := List.prefix_refl _
  passed := hsafe
  acks := h.acks

theorem sentNext (h : s.Inv) (now : ℤ) : (s.sentNext now).Inv := by
  unfold StoreConnection.sentNext
  cases s.sent with
  | idle => exact h
  | selecting x => exact h.setSent _
  | inserting x lowest => exact (h.insert (x.event lowest) now).setSent _
  | fetching id => exact h.setSent _
  | committing row => exact h.commit.setSent _

theorem drain (h : s.Inv) (raises : Bool) : (s.step (.drain raises)).Inv := by
  cases hd : s.drain with
  | idle =>
    simp only [step, hd]
    exact h
  | acking batch stored =>
    simp only [step, hd]
    exact h.setDrain rfl fun _ he => absurd he List.not_mem_nil
  | inserting receivedAt passed rest stored =>
    have hpassed : ∀ e ∈ passed, e.key ∈ s.table.keys := by
      intro e he
      exact h.passed e (by rw [hd]; exact he)
    cases rest with
    | nil =>
      simp only [step, hd]
      split_ifs
      · exact drainRolledBack s
      · exact h.commit.setDrain rfl hpassed
    | cons e rest =>
      simp only [step, hd]
      split_ifs
      · exact drainRolledBack s
      all_goals
        have hI := h.insert e receivedAt
        refine ⟨hI.grown, fun e' he' => ?_, fun _ he => absurd he List.not_mem_nil⟩
        rcases List.mem_append.1 he' with he' | he'
        · exact keys_subset (EventStore.rows_prefix_insertOrIgnore _ _ _) (hpassed e' he')
        · rw [List.mem_singleton.1 he']
          exact EventStore.key_mem_insertOrIgnore _ _ _

theorem step (h : s.Inv) (a : Action) (hc : s.RollbackSafe a) : (s.step a).Inv := by
  cases a with
  | addEvents receivedAt events =>
    cases hd : s.drain with
    | idle =>
      simp only [StoreConnection.step, hd]
      exact h.setDrain rfl fun _ he => absurd he List.not_mem_nil
    | _ =>
      simp only [StoreConnection.step, hd]
      exact h
  | drain raises => exact h.drain raises
  | addSent x =>
    cases hs : s.sent with
    | idle =>
      simp only [StoreConnection.step, hs]
      exact h.setSent _
    | _ =>
      simp only [StoreConnection.step, hs]
      exact h
  | sent raises now =>
    simp only [StoreConnection.step]
    split_ifs with hr
    · exact h.sentRolledBack (hc hr)
    · exact h.sentNext now

end Inv

/-- In every run in which no rollback of `add_sent` takes what `add_events` has passed, a batch
that is acknowledged is committed. -/
theorem always_acksCommitted (store : EventStore) (actions : List Action)
    (h : Run.Meets step RollbackSafe (opened store) actions) :
    Run.Always step AcksCommitted (opened store) actions :=
  Run.always_of_meets (fun _ hI => hI.acks) (fun _ a hI => hI.step a) actions (inv_opened store) h

/-- A message that arrived, and one the gateway sends meanwhile. -/
def arrived : Event := ⟨"lisa01", KIND_SMS, 1, some "+1", some "hi", some 5, none, none, "\x7b\x7d"⟩

def sending : SentMessage := ⟨"lisa01", "+2", "yo", 6, none⟩

/-- `add_sent` raises before the batch's first insert. -/
theorem acksCommitted_early : Run.Always step AcksCommitted (opened .empty)
    [.addEvents 10 [arrived], .addSent sending, .sent false 10, .sent true 10, .drain false,
      .drain false, .drain false] :=
  always_acksCommitted .empty _ (by decide +kernel)

/-- `add_sent` raises between the batch's last insert and its commit. -/
theorem rollback_loses : ¬ ∀ (store : EventStore) (actions : List Action),
    Run.Always step AcksCommitted (opened store) actions := fun h =>
  absurd (h .empty [.addEvents 10 [arrived], .addSent sending, .drain false, .sent true 10,
    .drain false]) (by decide +kernel)

end StoreConnection

end Rackphone
