import Rackphone.Lib.Run
import Rackphone.Stream

/-!
# Many streams on a store that is pruned

The event store of a running gateway with the streams open on it. A stream's cursor is the highest
row id there was when it connected and then the highest it has yielded; the state carries, for its
history, every value a cursor was given and the id of every row a stream yielded.
-/

namespace Rackphone

structure Feed where
  store : EventStore
  /-- Each stream's `last_seen_id`. -/
  cursors : List ℕ
  taken : List ℕ

namespace Feed

inductive Action where
  | addEvents (receivedAt : ℤ) (events : List Event)
  | addSent (unit address body : String) (timestamp : ℤ) (sub : Option ℤ) (now : ℤ)
  | prune (retentionDays : Dict String ℤ) (now : ℤ)
  | connect
  | poll (stream : ℕ) (config : Option GatewayConfig)

def start (store : EventStore) : Feed := ⟨store, [], []⟩

/-- What the store is after an action; a stream changes nothing in it. -/
def storeAfter (s : Feed) : Action → EventStore
  | .addEvents receivedAt events => (s.store.addEvents receivedAt events).1
  | .addSent unit address body timestamp sub now =>
    match s.store.addSent unit address body timestamp sub now with
    | some (store, _) => store
    | none => s.store
  | .prune retentionDays now => (s.store.prune retentionDays now).1
  | .connect | .poll _ _ => s.store

def step (s : Feed) (a : Action) : Feed :=
  match a with
  | .connect =>
    { s with
      cursors := s.cursors ++ [s.store.latestEventId]
      taken := s.store.latestEventId :: s.taken }
  | .poll stream config =>
    match s.cursors[stream]? with
    | none => s
    | some lastSeenId =>
      let polled := Stream.poll config ⟨s.store, lastSeenId, true, [], []⟩
      { s with
        cursors := s.cursors.set stream polled.lastSeenId
        taken := polled.sent.map (fun r => r.id) ++ s.taken }
  | a => { s with store := s.storeAfter a }

/-- Every row the action inserts has an id above every cursor taken so far. -/
def InsertsAbove (s : Feed) (a : Action) : Prop :=
  ∀ r ∈ (s.step a).store.rows, r ∉ s.store.rows → ∀ c ∈ s.taken, c < r.id

instance (s : Feed) (a : Action) : Decidable (s.InsertsAbove a) :=
  inferInstanceAs (Decidable (∀ r ∈ (s.step a).store.rows, r ∉ s.store.rows → ∀ c ∈ s.taken, _))

/-- Whether the action stores a row. -/
def Stores (s : Feed) : Action → Prop
  | .addEvents _ events => ∃ e ∈ events, s.store.stores e = true
  | .addSent unit address body timestamp sub _ =>
    s.store.stores (s.store.sentEvent unit address body timestamp sub) = true
  | _ => False

/-- When the action stores a row, a row at or above each cursor taken is still there. The cursor of
a stream that connected to an empty store is zero. -/
def CursorsKept (s : Feed) (a : Action) : Prop :=
  s.Stores a → ∀ c ∈ s.taken, c = 0 ∨ ∃ r ∈ s.store.rows, c ≤ r.id

/-- A prune leaves a row at or above each cursor taken. -/
def PruneKeeps (s : Feed) (a : Action) : Prop :=
  ∀ retentionDays now, a = .prune retentionDays now →
    ∀ c ∈ s.taken, c = 0 ∨ ∃ r ∈ (s.storeAfter a).rows, c ≤ r.id

end Feed

end Rackphone
