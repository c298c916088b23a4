import Rackphone.Inbox
import Rackphone.Lib.Occurrence
import Rackphone.Lib.Run

/-!
# The ids of a unit's events

`Inbox.record` on a phone that may kill the app at any moment. `Config.inboxSequence` is read from
the process's memory and `apply()` writes it to the disk later, so a kill puts back what the disk
had; a reinstall puts back nothing. The clock never goes back. The ids given and the events
recorded are kept as the history.
-/

namespace Rackphone

structure EventIds where
  /-- The spool, with the counter as the process reads it. -/
  inbox : Inbox
  /-- The counter that reached the disk. -/
  disk : ℕ
  /-- The clock's seconds. -/
  clock : ℕ
  /-- The events that have their id and are not appended yet. -/
  assigned : List Spooled
  given : List ℕ
  recorded : List Spooled

namespace EventIds

inductive Action where
  | tick (seconds : ℕ)
  /-- `record` takes an id for the event. -/
  | assign (e : DeviceEvent)
  | append (i : ℕ) (cap : ℕ+)
  /-- The write `apply()` left behind reaches the disk. -/
  | persist
  | kill
  | reinstall

def start (clock : ℕ) : EventIds := ⟨.fresh, 0, clock, [], [], []⟩

def step (s : EventIds) : Action → EventIds
  | .tick seconds => { s with clock := s.clock + seconds }
  | .assign e =>
    let id := s.inbox.nextId s.clock
    { s with
      inbox := s.inbox.setSequence id
      assigned := s.assigned ++ [⟨id, e⟩]
      given := s.given ++ [id] }
  | .append i cap =>
    match s.assigned[i]? with
    | none => s
    | some x =>
      { s with
        inbox := s.inbox.append cap x
        assigned := s.assigned.eraseIdx i
        recorded := s.recorded ++ [x] }
  | .persist => { s with disk := s.inbox.sequence }
  | .kill => { s with inbox := s.inbox.setSequence s.disk, assigned := [] }
  | .reinstall => { s with inbox := s.inbox.setSequence 0, disk := 0, assigned := [] }

/-- No id is given twice, so no two events recorded have one id and the host, which keeps the
first event of each key, keeps them all. -/
structure Distinct (s : EventIds) : Prop where
  given : s.given.Nodup
  recorded : (s.recorded.map Spooled.id).Nodup
  kept : ∀ unit, Occurrence.firsts Event.key (s.recorded.map (Spooled.toEvent unit))
    = s.recorded.map (Spooled.toEvent unit)

/-- When an event is recorded, the counter still stands at or above each id given, or the clock has
passed the id. -/
def Ahead (s : EventIds) : Action → Prop
  | .assign _ => ∀ id ∈ s.given, id ≤ s.inbox.sequence ∨ id < s.clock
  | _ => True

end EventIds

end Rackphone
