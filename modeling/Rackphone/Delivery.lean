import Rackphone.Inbox

/-!
# Delivery

A unit's spool, the gateway's store and the host's passes over the unit. A pass of `drain_unit`
is made of its steps: run the drain command, read the in-flight batch back, commit it with
`add_events`, run the ack command. A command takes effect on the device at once or, where its
call was lost or timed out on the host, at any later moment or never; the host may stop between
any two steps. The state carries its history too: what was recorded, what the spool's own trim and
reset removed, which batches went in flight and which of those a pass has committed.
-/

namespace Rackphone

/-- How far the host's pass over the unit has come. -/
inductive Phase where
  | idle
  | drained
  | read (batch : List Spooled)
  | stored
deriving DecidableEq

/-- When a command takes effect on the device. -/
inductive Effect where
  | now
  | late
deriving DecidableEq

structure Delivery where
  inbox : Inbox
  /-- The events that have their id and are not appended yet. -/
  assigned : List Spooled
  store : EventStore
  phase : Phase
  lateDrains : ℕ
  lateAcks : ℕ
  recorded : List Spooled
  removed : List Spooled
  rotated : List (List Spooled)
  committed : List (List Spooled)

namespace Delivery

inductive Action where
  /-- `Inbox.record` takes an id for the event. -/
  | assign (e : DeviceEvent) (seconds : ℕ)
  | append (i : ℕ) (cap : ℕ+)
  | reset
  /-- The drain command; where it is not answered the pass ends. -/
  | drain (effect : Effect) (answered : Bool)
  | read (answered : Bool)
  | commit (receivedAt : ℤ)
  | ack (effect : Effect)
  | crash
  | lateDrain
  | lateAck
  /-- The same loop commits what other units sent. -/
  | elsewhere (receivedAt : ℤ) (events : List Event)

def start : Delivery :=
  ⟨.fresh, [], .empty, .idle, 0, 0, [], [], [], []⟩

def rotate (s : Delivery) : Delivery :=
  { s with
    inbox := s.inbox.drain
    rotated := match s.inbox.inflight with
      | some _ => s.rotated
      | none => s.rotated ++ s.inbox.spool.toList }

def confirm (s : Delivery) : Delivery := { s with inbox := s.inbox.ack }

def issueDrain (s : Delivery) : Effect → Delivery
  | .now => s.rotate
  | .late => { s with lateDrains := s.lateDrains + 1 }

def issueAck (s : Delivery) : Effect → Delivery
  | .now => s.confirm
  | .late => { s with lateAcks := s.lateAcks + 1 }

variable (unit : String)

/-- One action; an action that is not enabled changes nothing. -/
def step (s : Delivery) : Action → Delivery
  | .assign e seconds =>
    let id := s.inbox.nextId seconds
    { s with inbox := s.inbox.setSequence id, assigned := s.assigned ++ [⟨id, e⟩] }
  | .append i cap =>
    match s.assigned[i]? with
    | none => s
    | some x =>
      { s with
        inbox := s.inbox.append cap x
        assigned := s.assigned.eraseIdx i
        recorded := s.recorded ++ [x]
        removed := s.removed ++ s.inbox.trimmed cap x }
  | .reset => { s with inbox := s.inbox.reset, removed := s.removed ++ s.inbox.held }
  | .drain effect answered =>
    if s.phase = .idle then
      { s.issueDrain effect with phase := if answered then .drained else .idle }
    else s
  | .read answered =>
    if s.phase = .drained then
      { s with phase := if answered ∧ s.inbox.cat ≠ [] then .read s.inbox.cat else .idle }
    else s
  | .commit receivedAt =>
    match s.phase with
    | .read batch =>
      { s with
        store := (s.store.addEvents receivedAt (batch.map (Spooled.toEvent unit))).1
        phase := .stored
        committed := s.committed ++ [batch] }
    | _ => s
  | .ack effect =>
    if s.phase = .stored then { s.issueAck effect with phase := .idle } else s
  | .crash => { s with phase := .idle }
  | .lateDrain =>
    if 0 < s.lateDrains then { s.rotate with lateDrains := s.lateDrains - 1 } else s
  | .lateAck =>
    if 0 < s.lateAcks then { s.confirm with lateAcks := s.lateAcks - 1 } else s
  | .elsewhere receivedAt events =>
    { s with store := (s.store.addEvents receivedAt (events.filter fun e => e.unit ≠ unit)).1 }

def Committed (s : Delivery) (x : Spooled) : Prop :=
  ∃ r ∈ s.store.rows, r.toEvent = x.toEvent unit

instance (s : Delivery) (x : Spooled) : Decidable (Committed unit s x) :=
  inferInstanceAs (Decidable (∃ r ∈ s.store.rows, r.toEvent = x.toEvent unit))

/-- Every event recorded and not removed by the spool itself is in one of the two files or in the
store. -/
def NoLoss (s : Delivery) : Prop :=
  ∀ x ∈ s.recorded, x ∈ s.removed ∨ x ∈ s.inbox.held ∨ Committed unit s x

instance : DecidablePred (NoLoss unit) := fun s =>
  inferInstanceAs (Decidable (∀ x ∈ s.recorded, x ∈ s.removed ∨ x ∈ s.inbox.held
    ∨ Committed unit s x))

def Acks (s : Delivery) : Action → Prop
  | .ack .now => s.phase = .stored
  | .lateAck => 0 < s.lateAcks
  | _ => False

/-- An ack that takes effect finds no in-flight file, or a batch some pass has committed. -/
def AckSafe (s : Delivery) (a : Action) : Prop :=
  Acks s a → ∀ batch, s.inbox.inflight = some batch → batch ∈ s.committed

end Delivery

end Rackphone
