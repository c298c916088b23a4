import Rackphone.Families
import Rackphone.Stream

/-!
# One connection of the event stream

`stream_events` and `iter_new_events` of `gateway/api.py` on a gateway that goes on working: the
events come and go, the logins are renewed and revoked and the policy changes between any two
steps of the generator, also while it is giving out the rows of a poll. A connection's polls are
kept as its history.
-/

namespace Rackphone

/-- A poll the generator made: the policy it read and the rows it found, in the order given out. -/
structure Polled where
  config : Option GatewayConfig
  rows : List Row

structure EventStream where
  store : EventStore
  config : Option GatewayConfig
  auth : AuthStore.Moment
  /-- The login the connection follows; the legacy token has none. -/
  refreshId : Option ℕ
  opened : Bool
  lastSeenId : ℕ
  /-- The rows of the last poll still to be given out. -/
  pending : List Row
  yielded : List Row
  polls : List Polled

namespace EventStream

inductive Action where
  | addEvents (receivedAt : ℤ) (events : List Event)
  | addSent (unit address body : String) (timestamp : ℤ) (sub : Option ℤ) (now : ℤ)
  | prune (retentionDays : Dict String ℤ) (now : ℤ)
  | configure (config : Option GatewayConfig)
  | auth (op : AuthStore.Op)
  | wait (elapsed : ℕ)
  | poll
  | yield

def stillAuthorised (auth : AuthStore.Moment) (refreshId : Option ℕ) : Bool :=
  match refreshId with
  | none => true
  | some id => auth.store.familyLive id auth.now

/-- The connection is refused where its login is already over. -/
def connect (store : EventStore) (config : Option GatewayConfig) (auth : AuthStore.Moment)
    (refreshId : Option ℕ) : EventStream where
  store := store
  config := config
  auth := auth
  refreshId := refreshId
  opened := stillAuthorised auth refreshId
  lastSeenId := store.latestEventId
  pending := []
  yielded := []
  polls := []

/-- The rows a poll gives out, oldest first. -/
def found (s : EventStream) : List Row :=
  Stream.rows s.config ⟨s.store, s.lastSeenId, true, [], []⟩

/-- The head of the loop, reached once every row of the last poll is given out. -/
def poll (s : EventStream) : EventStream :=
  if s.opened ∧ s.pending = [] then
    if stillAuthorised s.auth s.refreshId then
      { s with pending := s.found, polls := s.polls ++ [⟨s.config, s.found⟩] }
    else { s with opened := false }
  else s

/-- The body of the `for`: the cursor moves before the row is given out. -/
def yieldNext (s : EventStream) : EventStream :=
  match s.pending with
  | [] => s
  | r :: rest =>
    { s with
      lastSeenId := max s.lastSeenId r.id
      pending := rest
      yielded := s.yielded ++ [r] }

def step (s : EventStream) : Action → EventStream
  | .addEvents receivedAt events => { s with store := (s.store.addEvents receivedAt events).1 }
  | .addSent unit address body timestamp sub now =>
    match s.store.addSent unit address body timestamp sub now with
    | some (store, _) => { s with store }
    | none => s
  | .prune retentionDays now => { s with store := (s.store.prune retentionDays now).1 }
  | .configure config => { s with config }
  | .auth op => { s with auth := ⟨s.auth.store.call s.auth.now op, s.auth.now⟩ }
  | .wait elapsed => { s with auth := ⟨s.auth.store, s.auth.now + elapsed⟩ }
  | .poll => s.poll
  | .yield => s.yieldNext

/-- What one connection has given out, which started above the row id `started`. -/
structure Safe (started : ℕ) (s : EventStream) : Prop where
  /-- What is given out is what the polls found, in the order they found it. -/
  given : s.yielded ++ s.pending = (s.polls.map Polled.rows).flatten
  nodup : (s.yielded.map Row.id).Nodup
  above : ∀ r ∈ s.yielded, started < r.id
  oldestFirst : ∀ p ∈ s.polls, p.rows.Pairwise fun r r' => r.newestKey < r'.newestKey
  readable : ∀ p ∈ s.polls, ∀ r ∈ p.rows, Readable p.config r

/-- No row of the family the connection's login began is live. -/
def Over (s : EventStream) : Prop :=
  ∃ id ∈ s.refreshId, s.auth.store.familyLive id s.auth.now = false

/-- Whatever happens, the connection makes no further poll. -/
def NoMorePolls (s : EventStream) : Prop :=
  ∀ later : List Action, (Run.final step s later).polls = s.polls

end EventStream

end Rackphone
