import Rackphone.Capability

/-!
# The live stream

`iter_new_events` in `gateway/api.py`: a connection takes the highest row id as its cursor and
then polls the store. A poll reads one page of the newest rows by device time, keeps those above
the cursor that the reader may see and moves the cursor over them. The state carries, for its
history, the rows inserted since the cursor was taken or the last poll was made.
-/

namespace Rackphone

def STREAM_BATCH_SIZE : ℕ := 100

structure Stream where
  store : EventStore
  lastSeenId : ℕ
  /-- The stream ends at the first poll that finds the connection no longer authorised. -/
  opened : Bool
  sent : List Row
  fresh : List Row

namespace Stream

inductive Action where
  | addEvents (receivedAt : ℤ) (events : List Event)
  | addSent (unit address body : String) (timestamp : ℤ) (sub : Option ℤ) (now : ℤ)
  | poll (authorised : Bool)

def start (store : EventStore) : Stream := ⟨store, store.latestEventId, true, [], []⟩

/-- The store moves on; what it gained is fresh. -/
def grow (s : Stream) (store : EventStore) : Stream :=
  { s with store, fresh := s.fresh ++ store.rows.drop s.store.rows.length }

variable (config : Option GatewayConfig)

/-- The rows a poll yields, oldest first. -/
def rows (s : Stream) : List Row :=
  (readableRows ((s.store.queryEvents none none none STREAM_BATCH_SIZE).filter fun r =>
    s.lastSeenId < r.id) config).reverse

def poll (s : Stream) : Stream :=
  { s with
    lastSeenId := (s.rows config).foldl (fun seen r => max seen r.id) s.lastSeenId
    sent := s.sent ++ s.rows config
    fresh := [] }

def step (s : Stream) : Action → Stream
  | .addEvents receivedAt events => s.grow (s.store.addEvents receivedAt events).1
  | .addSent unit address body timestamp sub now =>
    match s.store.addSent unit address body timestamp sub now with
    | some (store, _) => s.grow store
    | none => s
  | .poll authorised =>
    if s.opened then
      if authorised then s.poll config else { s with opened := false }
    else s

/-- A poll that is made yields every fresh row the reader may see. -/
def YieldsFresh (s : Stream) : Action → Prop
  | .poll authorised => s.opened ∧ authorised →
    ∀ r ∈ s.fresh, Readable config r → r ∈ s.rows config
  | _ => True

/-- At a poll that is made, fewer rows than a page holds are ahead, by device time and then by id,
of every fresh row the reader may see. -/
def FreshOnPage (s : Stream) : Action → Prop
  | .poll authorised => s.opened ∧ authorised →
    ∀ r ∈ s.fresh, Readable config r →
      Page.ahead Row.newestKey s.store.rows r < STREAM_BATCH_SIZE
  | _ => True

end Stream

end Rackphone
