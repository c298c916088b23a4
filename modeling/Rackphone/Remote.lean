import Rackphone.Lib.NamedResource
import Rackphone.Lib.Run

/-!
# The screen server's start and stop

`action.sh` of the remote plugin, one step of a command at a time: any number of `start` and `stop`
commands take their steps in any order. A process id is never given out twice.
-/

namespace Rackphone

open NamedResource

/-- Tenths of a second. -/
def STARTUP_GRACE_DS : ℕ := 5

def validSocketId (socketId : String) : Bool :=
  match socketId.toList with
  | [] => false
  | first :: rest =>
    decide ('0' ≤ first ∧ first ≤ '7') && decide (rest.length = 7)
      && rest.all fun c => decide (('0' ≤ c ∧ c ≤ '9') ∨ ('a' ≤ c ∧ c ≤ 'f'))

/-- What the commands share. -/
structure RemoteUnit where
  /-- The id in `remote.pid`, where it exists. -/
  pidFile : Option ℕ
  /-- `remote.started`. -/
  startFile : Bool
  /-- `remote.starting`. -/
  lock : Bool
  /-- The servers `kill -0` finds. -/
  alive : Finset ℕ
  nextPid : ℕ

namespace RemoteUnit

variable (u : RemoteUnit)

def running : Bool := u.pidFile.any fun pid => pid ∈ u.alive

/-- `kill -0`; there is no process with an empty id. -/
def isAlive (pid : Option ℕ) : Bool := pid.any fun pid => pid ∈ u.alive

def removeFiles : RemoteUnit := { u with pidFile := none, startFile := false }

def launch : RemoteUnit := { u with alive := insert u.nextPid u.alive, nextPid := u.nextPid + 1 }

def kill (pid : Option ℕ) : RemoteUnit :=
  match pid with
  | none => u
  | some pid => { u with alive := u.alive.erase pid }

end RemoteUnit

inductive RemoteCommand where
  | start (socketId : String)
  | stop

/-- How a command ends. -/
inductive Outcome where
  | started (pid : ℕ)
  | failed
  | stopped
deriving DecidableEq

/-- Who asks `running`. -/
inductive Caller where
  | start
  | stop
deriving DecidableEq

/-- What a command does next. -/
inductive Stage where
  | idle
  /-- `running`: the file is read, then the process looked for. -/
  | readPid (c : Caller)
  | probe (c : Caller) (pid : ℕ)
  | clear
  | takeLock
  | verify
  | copyJar
  | launch
  | writePid (pid : ℕ)
  | writeStart (pid : ℕ)
  | grace (pid waited : ℕ)
  | abandon
  /-- The trap. -/
  | unlock (o : Outcome)
  | readServer
  | terminate (pid : Option ℕ)
  | awaitExit (pid : Option ℕ) (waited : ℕ)
  | insist (pid : Option ℕ)
  | kill (pid : Option ℕ)
  | remove
  | exited (o : Outcome)
deriving DecidableEq

def Caller.next (running : Bool) : Caller → Stage
  | .start => if running then .exited .failed else .clear
  | .stop => if running then .readServer else .remove

def RemoteCommand.first : RemoteCommand → Stage
  | .start socketId =>
    if socketId = "" then .exited .failed
    else if validSocketId socketId then .readPid .start
    else .exited .failed
  | .stop => .readPid .stop

/-- One step of a command: what becomes of the unit, and what the command does next. -/
def Stage.act (u : RemoteUnit) : Stage → RemoteUnit × Stage
  | .idle => (u, .idle)
  | .readPid c =>
    match u.pidFile with
    | none => (u, c.next false)
    | some pid => (u, .probe c pid)
  | .probe c pid => (u, c.next (pid ∈ u.alive))
  | .clear => (u.removeFiles, .takeLock)
  | .takeLock => if u.lock then (u, .exited .failed) else ({ u with lock := true }, .verify)
  | .verify => (u, .copyJar)
  | .copyJar => (u, .launch)
  | .launch => (u.launch, .writePid u.nextPid)
  | .writePid pid => ({ u with pidFile := some pid }, .writeStart pid)
  | .writeStart pid => ({ u with startFile := true }, .grace pid 0)
  | .grace pid waited =>
    if waited < STARTUP_GRACE_DS then
      if pid ∈ u.alive then (u, .grace pid (waited + 1)) else (u, .abandon)
    else (u, .unlock (.started pid))
  | .abandon => (u.removeFiles, .unlock .failed)
  | .unlock o => ({ u with lock := false }, .exited o)
  | .readServer => (u, .terminate u.pidFile)
  -- a server takes its own time to exit on TERM
  | .terminate pid => (u, .awaitExit pid 0)
  | .awaitExit pid waited =>
    if u.isAlive pid ∧ waited < 5 then (u, .awaitExit pid (waited + 1)) else (u, .insist pid)
  | .insist pid => if u.isAlive pid then (u, .kill pid) else (u, .remove)
  | .kill pid => (u.kill pid, .remove)
  | .remove => (u.removeFiles, .exited .stopped)
  | .exited o => (u, .exited o)

/-- Where a step of `start` fails: the jar is not the pinned one, or it cannot be copied. -/
def Stage.fail : Stage → Stage
  | .verify => .unlock .failed
  | .copyJar => .unlock .failed
  | stage => stage

structure Remote where
  unit : RemoteUnit
  stage : ℕ → Stage

namespace Remote

inductive Event where
  | call (i : ℕ) (c : RemoteCommand)
  | turn (i : ℕ)
  | fails (i : ℕ)
  /-- A server exits, for whatever reason. -/
  | exits (pid : ℕ)

/-- Nothing runs yet; the files are as they were left. -/
def boot (u : RemoteUnit) : Remote where
  unit := { u with alive := ∅ }
  stage _ := .idle

variable (s : Remote)

def goto (i : ℕ) (u : RemoteUnit) (stage : Stage) : Remote where
  unit := u
  stage := Function.update s.stage i stage

def step : Event → Remote
  | .call i c => if s.stage i = .idle then s.goto i s.unit c.first else s
  | .turn i => s.goto i ((s.stage i).act s.unit).1 ((s.stage i).act s.unit).2
  | .fails i => s.goto i s.unit (s.stage i).fail
  | .exits pid => { s with unit := { s.unit with alive := s.unit.alive.erase pid } }

/-! ## One server -/

def Reported (pid : ℕ) : Prop :=
  ∃ i, s.stage i = .unlock (.started pid) ∨ s.stage i = .exited (.started pid)

structure OneServer : Prop where
  one : ∀ p q, s.Reported p → s.Reported q → p ∈ s.unit.alive → q ∈ s.unit.alive → p = q
  named : ∀ p, s.Reported p → p ∈ s.unit.alive → s.unit.pidFile = some p

/-- What a command is about to remove or overwrite the pid file for does not run: `running` would
still answer no. -/
def StillStopped (s : Remote) : Event → Prop
  | .turn i =>
    match s.stage i with
    | .clear => s.unit.running = false
    | .remove => s.unit.running = false
    | .writePid _ => s.unit.running = false
    | _ => True
  | _ => True

instance (e : Event) : Decidable (s.StillStopped e) := by
  unfold StillStopped
  split
  · split <;> infer_instance
  · infer_instance

end Remote

end Rackphone
