import Rackphone.Lib.Run
import Rackphone.Spool

/-!
# The spool's two files

`record`, `trim`, `drain` and `ack` of `Inbox.kt` on the texts of the two files and the counter of
dropped events, an `Int` of 32 bits. An event comes with the id that `nextId` gave it; the operations on files are
taken not to fail.
-/

namespace Rackphone

/-- `trim`: the text it leaves, with what it tells `addDropped`. -/
def trimText (cap : ℕ+) (text : List Char) : List Char × ℕ :=
  let lines := readLines text
  if lines.length ≤ cap then (text, 0)
  else (['\n'].intercalate (lines.drop (lines.length - cap)) ++ ['\n'], lines.length - cap)

structure SpoolFiles where
  spool : Option (List Char)
  inflight : Option (List Char)
  /-- `inbox_dropped`. -/
  dropped : Int32
  /-- Every event, in the order appended. -/
  recorded : List Spooled
  /-- The events appended since the spool was last moved aside. -/
  sinceRotation : List Spooled
  /-- The cap at the last record. -/
  lastCap : ℕ+
  /-- How many lines the files had that `ack` deleted. -/
  acked : ℕ
  /-- The batch that was handed to the host and not acknowledged since. -/
  handed : Option (List Char)

namespace SpoolFiles

inductive Action where
  /-- The second half of `record`, at the cap set at that time. -/
  | record (cap : ℕ+) (x : Spooled)
  | drain
  | ack

def start : SpoolFiles := ⟨none, none, 0, [], [], DEFAULT_INBOX_CAP, 0, none⟩

def lineCount (file : Option (List Char)) : ℕ := (readLines (file.getD [])).length

def record (s : SpoolFiles) (cap : ℕ+) (x : Spooled) : SpoolFiles :=
  let (text, dropped) := trimText cap (s.spool.getD [] ++ (x.line ++ ['\n']))
  { s with
    spool := some text
    dropped := s.dropped + Int32.ofNat dropped
    recorded := s.recorded ++ [x]
    sinceRotation := s.sinceRotation ++ [x]
    lastCap := cap }

/-- `drain`, with the text it returns. -/
def drain (s : SpoolFiles) : SpoolFiles × List Char :=
  match s.inflight with
  | some batch => ({ s with handed := some batch }, batch)
  | none =>
    match s.spool with
    | none => (s, [])
    | some batch =>
      ({ s with spool := none, inflight := some batch, sinceRotation := [], handed := some batch },
        batch)

def ack (s : SpoolFiles) : SpoolFiles :=
  { s with inflight := none, acked := s.acked + lineCount s.inflight, handed := none }

def step (s : SpoolFiles) : Action → SpoolFiles
  | .record cap x => s.record cap x
  | .drain => s.drain.1
  | .ack => s.ack

/-- The same actions on the lists of events. -/
def inboxStep (b : Inbox) : Action → Inbox
  | .record cap x => b.append cap x
  | .drain => b.drain
  | .ack => b.ack

/-- The files are the texts of an inbox's lists, which count without a bound. -/
structure Shows (s : SpoolFiles) (b : Inbox) : Prop where
  spool : s.spool = b.spool.map spoolText
  inflight : s.inflight = b.inflight.map spoolText
  dropped : s.dropped = Int32.ofNat b.dropped

/-- The spool holds the newest events since the last rotation, no more than the cap of the last
record, and every event is acknowledged, in flight, spooled or counted as dropped, as far as 32 bits
count. -/
structure Accounts (s : SpoolFiles) : Prop where
  newest : ∃ es, s.spool.getD [] = spoolText es ∧ es <:+ s.sinceRotation ∧ es.length ≤ s.lastCap
  conserved : ∃ lost : ℕ, s.recorded.length
      = s.acked + lineCount s.inflight + lineCount s.spool + lost
    ∧ s.dropped = Int32.ofNat lost ∧ (lost < 2 ^ 31 → s.dropped.toInt = lost)

end SpoolFiles

end Rackphone
