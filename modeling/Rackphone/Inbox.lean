import Rackphone.DeviceEvent

/-!
# The device's spool

`Inbox.kt`: the events that arrived, waiting for the host. `drain` moves the spool aside to an
in-flight file and `ack` deletes that file. Neither file is ever written empty, and the record
says so. A file is the list of its events, `none` where it does not exist; the operations on files
are taken not to fail.
-/

namespace Rackphone

structure Inbox where
  /-- The id given last. -/
  sequence : ℕ
  spool : Option (List Spooled)
  inflight : Option (List Spooled)
  dropped : ℕ
  spool_ne : spool ≠ some []
  inflight_ne : inflight ≠ some []

def DEFAULT_INBOX_CAP : ℕ+ := 2000

namespace Inbox

def fresh : Inbox := ⟨0, none, none, 0, by simp, by simp⟩

/-- `nextId` at a clock showing `seconds`. -/
def nextId (b : Inbox) (seconds : ℕ) : ℕ := max (b.sequence + 1) seconds

def setSequence (b : Inbox) (id : ℕ) : Inbox := { b with sequence := id }

def appended (b : Inbox) (x : Spooled) : List Spooled := b.spool.getD [] ++ [x]

/-- The events `trim` drops when `x` is appended. -/
def trimmed (b : Inbox) (cap : ℕ+) (x : Spooled) : List Spooled :=
  (b.appended x).take ((b.appended x).length - cap)

/-- The second half of `record`: append one line, then `trim` to the last `cap`. -/
def append (b : Inbox) (cap : ℕ+) (x : Spooled) : Inbox :=
  { b with
    spool := some ((b.appended x).drop ((b.appended x).length - cap))
    dropped := b.dropped + ((b.appended x).length - cap)
    spool_ne := by
      have hcap := cap.pos
      have : 0 < (b.appended x).length := by simp [appended]
      simp only [ne_eq, Option.some.injEq, List.drop_eq_nil_iff]
      omega }

/-- What the app does on DRAIN: an unacked batch stays as it is. -/
def drain (b : Inbox) : Inbox :=
  match b.inflight with
  | some _ => b
  | none => { b with spool := none, inflight := b.spool, spool_ne := by simp,
                     inflight_ne := b.spool_ne }

/-- `cat inbox.inflight`. -/
def cat (b : Inbox) : List Spooled := b.inflight.getD []

def ack (b : Inbox) : Inbox := { b with inflight := none, inflight_ne := by simp }

def reset (b : Inbox) : Inbox :=
  { b with spool := none, inflight := none, spool_ne := by simp, inflight_ne := by simp }

/-- The events in the two files. -/
def held (b : Inbox) : List Spooled := b.spool.getD [] ++ b.cat

end Inbox

end Rackphone
