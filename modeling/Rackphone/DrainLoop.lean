import Rackphone.Lib.Fallible
import Rackphone.Lib.Run
import Rackphone.Redelivery

/-!
# The drain loop

`run_once`, `_prune_if_due`, `drain_unit` and `run_forever` of `gateway/drain.py`, with every call
that may raise. A spool line enters as what `from_spool_line` makes of it; an event that `sqlite3`
refuses is a fault of the store step.
-/

namespace Rackphone

/-- An exception, as the text it prints. -/
abbrev Fault := String

/-- What the calls that drain one unit do in a pass. -/
structure UnitCalls where
  name : String
  resolveSerial : Except Fault Unit
  /-- The lines answered that are not blank. -/
  drain : Except Fault (List (Except Fault (Option Event)))
  /-- The store step, with its clock. -/
  addEvents : Except Fault ℤ
  ack : Except Fault Unit

structure Pass where
  /-- `gateway_clock` reaps the screen sessions before it tells the time. -/
  clock : Except Fault ℤ
  /-- The `DELETE` statements of `prune` and their commit. -/
  delete : Except Fault Unit
  /-- `PRAGMA incremental_vacuum`. -/
  vacuum : Except Fault Unit
  units : List UnitCalls

inductive DrainThread where
  | running
  | returned
  | raised (e : Fault)
deriving DecidableEq

structure DrainLoop where
  store : EventStore
  stats : GatewayStats
  errors : ℕ
  printed : List String
  lastPrune : Option ℤ
  stopRequested : Bool
  thread : DrainThread
  /-- The units whose drain was begun, over all passes. -/
  attempted : List String
  /-- The units whose ack command was answered. -/
  acked : List String

def PRUNE_INTERVAL_SECONDS : ℤ := 60 * 60

namespace UnitCalls

/-- The drain up to its list of events, with a `None` for a line that is skipped. -/
def collected (u : UnitCalls) : Except Fault (List (Option Event)) := do
  u.resolveSerial
  let lines ← u.drain
  lines.mapM id

/-- The drain of the unit raises: at its serial, at the drain command or at a line, and where there
is a line also at the store or at the ack command. -/
def Raises (u : UnitCalls) : Prop :=
  match u.collected with
  | .error _ => True
  | .ok [] => False
  | .ok (_ :: _) => u.addEvents.isOk = false ∨ u.ack.isOk = false

instance : DecidablePred Raises := fun u => by
  unfold Raises
  split <;> infer_instance

/-- The batch that the drain commits, with its time. -/
def batch (u : UnitCalls) : Option (ℤ × List Event) :=
  match u.collected, u.addEvents with
  | .ok (x :: xs), .ok receivedAt => some (receivedAt, (x :: xs).reduceOption)
  | _, _ => none

end UnitCalls

namespace DrainLoop

def start (store : EventStore) : DrainLoop :=
  ⟨store, ⟨0, 0⟩, 0, [], none, false, .running, [], []⟩

inductive Action where
  /-- `stop`, on another thread. -/
  | stop
  /-- The loop comes round: the thread ends where a stop was asked for, and else makes a pass. -/
  | pass (p : Pass)

def print (s : DrainLoop) (lines : List String) : DrainLoop :=
  { s with printed := s.printed ++ lines }

/-- `drain_unit`; what was done before a call raised stays done. -/
def drainUnit (s : DrainLoop) (u : UnitCalls) : DrainLoop × Except Fault ℕ :=
  match u.collected with
  | .error e => (s, .error e)
  | .ok [] => (s, .ok 0)
  | .ok (x :: xs) =>
    let events := (x :: xs).reduceOption
    let skipped := (x :: xs).length - events.length
    let s := s.print (if skipped = 0 then []
      else [s!"{u.name}: skipped {skipped} unparseable spool line(s)"])
    match u.addEvents with
    | .error e => (s, .error e)
    | .ok receivedAt =>
      let (store, stored) := s.store.addEvents receivedAt events
      let s := { s with
        store
        stats := ⟨s.stats.drained + events.length, s.stats.stored + stored.length⟩ }
      match u.ack with
      | .error e => (s, .error e)
      | .ok _ => ({ s with acked := s.acked ++ [u.name] }, .ok stored.length)

/-- The body of the loop over the units. -/
def attempt (s : DrainLoop) (total : ℕ) (u : UnitCalls) : DrainLoop × ℕ :=
  match { s with attempted := s.attempted ++ [u.name] }.drainUnit u with
  | (s, .ok stored) => (s, total + stored)
  | (s, .error e) => ({ s with errors := s.errors + 1 }.print [s!"{u.name}: {e}"], total)

def attemptAll (s : DrainLoop) (total : ℕ) : List UnitCalls → DrainLoop × ℕ
  | [] => (s, total)
  | u :: us =>
    let (s, total) := s.attempt total u
    s.attemptAll total us

def PruneDue (s : DrainLoop) (now : ℤ) : Prop :=
  ∀ last ∈ s.lastPrune, PRUNE_INTERVAL_SECONDS ≤ now - last

instance (s : DrainLoop) (now : ℤ) : Decidable (s.PruneDue now) :=
  Option.decidableForallMem s.lastPrune

variable (retention : Dict String ℤ)

/-- `prune`: the deletions are committed before the vacuum, which may raise too. -/
def prune (s : DrainLoop) (p : Pass) (now : ℤ) : DrainLoop × Except Fault Unit :=
  match p.delete with
  | .error e => (s, .error e)
  | .ok _ =>
    let (store, removed) := s.store.prune retention now
    let s := { s with store }
    if removed = 0 then (s, .ok ())
    else match p.vacuum with
      | .error e => (s, .error e)
      | .ok _ => (s.print [s!"pruned {removed} expired event(s)"], .ok ())

def pruneIfDue (s : DrainLoop) (p : Pass) : DrainLoop × Except Fault Unit :=
  match p.clock with
  | .error e => (s, .error e)
  | .ok now =>
    if s.PruneDue now then { s with lastPrune := some now }.prune retention p now
    else (s, .ok ())

/-- `run_once`, which prunes outside the `try`. -/
def runOnce (s : DrainLoop) (p : Pass) : DrainLoop × Except Fault ℕ :=
  match s.pruneIfDue retention p with
  | (s, .error e) => (s, .error e)
  | (s, .ok _) =>
    let (s, total) := s.attemptAll 0 p.units
    (s, .ok total)

def step (s : DrainLoop) : Action → DrainLoop
  | .stop => { s with stopRequested := true }
  | .pass p =>
    match s.thread with
    | .running =>
      if s.stopRequested then { s with thread := .returned }
      else match s.runOnce retention p with
        | (s, .ok _) => s
        | (s, .error e) => { s with thread := .raised e }
    | .returned | .raised _ => s

/-- The loop runs and was not asked to stop. -/
def Polling (s : DrainLoop) : Prop := s.thread = .running ∧ s.stopRequested = false

/-- The prune step raises: its clock does, or a prune is due and a statement of it does. -/
def PruneRaises (s : DrainLoop) (p : Pass) : Prop :=
  match p.clock with
  | .error _ => True
  | .ok now => s.PruneDue now ∧ (p.delete.isOk = false
    ∨ (s.store.prune retention now).2 ≠ 0 ∧ p.vacuum.isOk = false)

/-- The store that a pass starts its units from. -/
def prunedStore (s : DrainLoop) (p : Pass) : EventStore :=
  match p.clock, p.delete with
  | .ok now, .ok _ => if s.PruneDue now then (s.store.prune retention now).1 else s.store
  | _, _ => s.store

def commit (store : EventStore) (batch : ℤ × List Event) : EventStore :=
  (store.addEvents batch.1 batch.2).1

/-- What a pass is to do, whatever raises in it: begin every unit's drain once and in order, count
the drains that raise, commit the batches of the units that come to it and no others, confirm
those whose drain does not raise, return and leave the loop to the next pass. -/
structure PassSound (s : DrainLoop) (p : Pass) : Prop where
  attempted : (step retention s (.pass p)).attempted
    = s.attempted ++ p.units.map fun u => u.name
  counted : (step retention s (.pass p)).errors = s.errors + p.units.countP fun u => u.Raises
  confined : (step retention s (.pass p)).store
    = (p.units.filterMap UnitCalls.batch).foldl commit (s.prunedStore retention p)
  acked : (step retention s (.pass p)).acked
    = s.acked ++ (p.units.filter fun u => u.batch.isSome ∧ ¬ u.Raises).map fun u => u.name
  returns : (s.runOnce retention p).2.isOk
  goesOn : (step retention s (.pass p)).Polling

def Sound (s : DrainLoop) : Action → Prop
  | .stop => True
  | .pass p => s.Polling → s.PassSound retention p

/-- The prune step of every pass that is made holds. -/
def PruneHolds (s : DrainLoop) : Action → Prop
  | .stop => True
  | .pass p => s.Polling → ¬ s.PruneRaises retention p

end DrainLoop

end Rackphone
