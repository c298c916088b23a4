import Rackphone.EventStore
import Rackphone.Lib.Occurrence
import Rackphone.Lib.Run

/-!
# Batches delivered again

`drain_unit` of `gateway/drain.py` hands a batch to `add_events` and counts what was new; a batch
whose ack is lost comes again, whole or under other batches. Between the batches the API stores
what it sent. What was handed over and what came back are kept as the history.
-/

namespace Rackphone

structure GatewayStats where
  drained : ℕ
  stored : ℕ
deriving DecidableEq

structure Redelivery where
  store : EventStore
  stats : GatewayStats
  /-- Every event handed to `add_events`, in the order handed over. -/
  arrived : List Event
  /-- The list each `add_events` returned. -/
  returned : List (List Event)
  /-- The row ids of the messages `add_sent` stored. -/
  sent : List ℕ

namespace Redelivery

inductive Action where
  /-- The drain of one batch; a line that is no event is not in it. -/
  | drain (receivedAt : ℤ) (events : List Event)
  | addSent (unit address body : String) (timestamp : ℤ) (sub : Option ℤ) (now : ℤ)

def start : Redelivery := ⟨.empty, ⟨0, 0⟩, [], [], []⟩

def drainUnit (s : Redelivery) (receivedAt : ℤ) (events : List Event) : Redelivery :=
  let (store, stored) := s.store.addEvents receivedAt events
  { s with
    store
    stats := ⟨s.stats.drained + events.length, s.stats.stored + stored.length⟩
    arrived := s.arrived ++ events
    returned := s.returned ++ [stored] }

def step (s : Redelivery) : Action → Redelivery
  | .drain receivedAt events => s.drainUnit receivedAt events
  | .addSent unit address body timestamp sub now =>
    match s.store.addSent unit address body timestamp sub now with
    | some (store, row) => { s with store, sent := s.sent ++ [row.id] }
    | none => s

/-- What the two writers promise each other: a unit's own ids are positive, and a message is sent
at a time since the epoch, so `add_sent` gives it an id that is not. -/
def Action.Promised : Action → Prop
  | .drain _ events => ∀ e ∈ events, 0 < e.sourceId
  | .addSent _ _ _ timestamp _ _ => 0 ≤ timestamp

instance : DecidablePred Action.Promised
  | .drain _ events => inferInstanceAs (Decidable (∀ e ∈ events, 0 < e.sourceId))
  | .addSent _ _ _ timestamp _ _ => inferInstanceAs (Decidable (0 ≤ timestamp))

/-- The stored rows that `add_sent` did not put there. -/
def arrivals (s : Redelivery) : List Row := s.store.rows.filter fun r => r.id ∉ s.sent

end Redelivery

end Rackphone
