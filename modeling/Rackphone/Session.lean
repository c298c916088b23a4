import Rackphone.Lib.Dict
import Rackphone.Lib.Run

/-!
# Screen and call sessions

`SessionManager` of `gateway/session.py`. What a call of the host or the device answers is an
argument of the operation that makes it, nothing where the call raises; a call whose failure is
only warned about has no answer to give. Every call is recorded, and the newest stands first. The
host socket of a reverse tunnel is left out, and closing it is taken not to fail.
-/

namespace Rackphone

def SOCKET_ID_LIMIT : ℕ := 0x80000000

def HEARTBEAT_TIMEOUT_SECONDS : ℤ := 30

structure Tunnel where
  port : String
  reverseName : Option String
deriving DecidableEq

structure ScreenSession where
  unit : String
  holder : String
  startedAt : ℤ
  lastSeen : ℤ
  localPort : String
deriving DecidableEq

def ScreenSession.Stale (s : ScreenSession) (now : ℤ) : Prop :=
  HEARTBEAT_TIMEOUT_SECONDS < now - s.lastSeen

instance (s : ScreenSession) (now : ℤ) : Decidable (s.Stale now) :=
  inferInstanceAs (Decidable (_ < _))

structure SessionBusy where
  holder : String
  startedAt : ℤ
  kind : String
deriving DecidableEq

inductive AcquireError where
  | busy (e : SessionBusy)
  /-- Whatever a call of the host or the device raised. -/
  | raised
deriving DecidableEq

structure AdbDevice where
  serial : String
  isUsable : Bool

/-- `adb.resolve_serial`, given what `list_devices` returns. An empty serial counts as none. -/
def resolveSerial (serial : Option String) (devices : List AdbDevice) : Option String :=
  let usable := devices.filter fun d => d.isUsable
  match serial.filter fun s => s ≠ "" with
  | some serial => if serial ∈ usable.map AdbDevice.serial then some serial else none
  | none =>
    match usable with
    | [device] => some device.serial
    | _ => none

structure UnitLookup where
  /-- The serial the unit declares, if it loads. -/
  declared : Option (Option String)
  devices : Option (List AdbDevice)

namespace UnitLookup

variable (u : UnitLookup)

/-- `SessionManager._serial`. -/
def serial : Option String :=
  u.declared.bind fun declared => u.devices.bind fun devices => resolveSerial declared devices

/-- `declared_serial or adb.resolve_serial(None)`. -/
def cleanupSerial : Option String :=
  u.declared.bind fun declared =>
    match declared.filter fun s => s ≠ "" with
    | some serial => some serial
    | none => u.devices.bind fun devices => resolveSerial none devices

end UnitLookup

inductive DeviceCall where
  | reverse (remote port : String)
  | removeReverse (remote : String)
  | forward (remote : String)
  | removeForward (port : String)
  | start (plugin socketId : String)
  | stop (plugin : String)
deriving DecidableEq

inductive LogEntry where
  | call (unit serial : String) (c : DeviceCall)
  /-- A release that could not resolve the device. -/
  | unresolved (unit : String)
deriving DecidableEq

/-- Whether the last start made for the unit has been followed neither by a stop attempt nor by a
release that could not resolve the device. -/
def leftRunning (unit : String) : List LogEntry → Prop
  | [] => False
  | .call u _ (.start _ _) :: log => u = unit ∨ leftRunning unit log
  | .call u _ (.stop _) :: log => u ≠ unit ∧ leftRunning unit log
  | .call _ _ _ :: log => leftRunning unit log
  | .unresolved u :: log => u ≠ unit ∧ leftRunning unit log

def socketIdText (n : Fin SOCKET_ID_LIMIT) : String :=
  String.ofList ((Nat.toDigits 16 n).leftpad 8 '0')

structure AcquireEnv where
  /-- For the release of a stale session. -/
  stale : UnitLookup
  lookup : UnitLookup
  socketId : Fin SOCKET_ID_LIMIT
  /-- The port of the listener a reverse tunnel opens. -/
  port : Option String
  reverse : Bool
  start : Bool
  forward : Option String

structure SessionManager where
  plugin : String
  socket : String
  kind : String
  reverse : Bool
  sessions : Dict String ScreenSession
  tunnels : Dict String Tunnel
  log : List LogEntry

namespace SessionManager

def opened (plugin socket kind : String) (reverse : Bool) : SessionManager :=
  ⟨plugin, socket, kind, reverse, .empty, .empty, []⟩

variable (m : SessionManager)

def record (e : LogEntry) : SessionManager := { m with log := e :: m.log }

def closeTunnel (unit serial : String) : Option Tunnel → SessionManager
  | none => m
  | some ⟨_, some remote⟩ => m.record (.call unit serial (.removeReverse remote))
  | some ⟨port, none⟩ => m.record (.call unit serial (.removeForward port))

/-- `run_device_cli(serial, ["action", self.plugin, "stop"])` -/
def stop (unit serial : String) : SessionManager := m.record (.call unit serial (.stop m.plugin))

/-- `_release_locked`. The tunnel stays in the table. -/
def releaseLocked (unit : String) (lookup : UnitLookup) : SessionManager :=
  let m := { m with sessions := m.sessions.pop unit }
  match lookup.cleanupSerial with
  | none => m.record (.unresolved unit)
  | some serial => (m.closeTunnel unit serial (m.tunnels.get unit)).stop unit serial

/-- The reverse tunnel, where the manager uses one. -/
def openTunnel (unit serial remote : String) (env : AcquireEnv) :
    SessionManager × Except AcquireError (Option Tunnel) :=
  if m.reverse then
    match env.port with
    | none => (m, .error .raised)
    | some port =>
      let m := m.record (.call unit serial (.reverse remote port))
      if env.reverse then (m, .ok (some ⟨port, some remote⟩)) else (m, .error .raised)
  else (m, .ok none)

/-- The `except` branch: a partial acquisition is closed. -/
def abandon (unit serial : String) (tunnel : Option Tunnel) :
    SessionManager × Except AcquireError ScreenSession :=
  ((m.closeTunnel unit serial tunnel).stop unit serial, .error .raised)

def establish (unit holder : String) (now : ℤ) (tunnel : Tunnel) :
    SessionManager × Except AcquireError ScreenSession :=
  let session : ScreenSession := ⟨unit, holder, now, now, tunnel.port⟩
  ({ m with sessions := m.sessions.set unit session, tunnels := m.tunnels.set unit tunnel },
    .ok session)

/-- The `try` block of `acquire` and what follows it. -/
def startDevice (unit holder serial socketId remote : String) (now : ℤ) (tunnel : Option Tunnel)
    (env : AcquireEnv) : SessionManager × Except AcquireError ScreenSession :=
  let m := m.record (.call unit serial (.start m.plugin socketId))
  if env.start then
    match tunnel with
    | some tunnel => m.establish unit holder now tunnel
    | none =>
      let m := m.record (.call unit serial (.forward remote))
      match env.forward with
      | some port => m.establish unit holder now ⟨port, none⟩
      | none => m.abandon unit serial none
  else m.abandon unit serial tunnel

/-- `acquire` past its check for a session. -/
def acquireFree (unit holder : String) (now : ℤ) (env : AcquireEnv) :
    SessionManager × Except AcquireError ScreenSession :=
  match env.lookup.serial with
  | none => (m, .error .raised)
  | some serial =>
    let remote := m.socket ++ "_" ++ socketIdText env.socketId
    match m.openTunnel unit serial remote env with
    | (m, .error e) => (m, .error e)
    | (m, .ok tunnel) =>
      m.startDevice unit holder serial (socketIdText env.socketId) remote now tunnel env

def acquire (unit holder : String) (now : ℤ) (env : AcquireEnv) :
    SessionManager × Except AcquireError ScreenSession :=
  match m.sessions.get unit with
  | none => m.acquireFree unit holder now env
  | some current =>
    if current.Stale now then (m.releaseLocked unit env.stale).acquireFree unit holder now env
    else (m, .error (.busy ⟨current.holder, current.startedAt, m.kind⟩))

def heartbeat (unit : String) (now : ℤ) (holder : Option String) (lookup : UnitLookup) :
    SessionManager × Option ScreenSession :=
  match m.sessions.get unit with
  | none => (m, none)
  | some current =>
    if ∃ h, holder = some h ∧ current.holder ≠ h then (m, none)
    else if current.Stale now then (m.releaseLocked unit lookup, none)
    else
      let refreshed := { current with lastSeen := now }
      ({ m with sessions := m.sessions.set unit refreshed }, some refreshed)

def release (unit : String) (lookup : UnitLookup) : SessionManager := m.releaseLocked unit lookup

def takeOver (unit holder : String) (now : ℤ) (lookup : UnitLookup) (env : AcquireEnv) :
    SessionManager × Except AcquireError ScreenSession :=
  (m.releaseLocked unit lookup).acquire unit holder now env

/-- The units whose lease has run out, in the order of the table. -/
def staleUnits (now : ℤ) : List String :=
  (m.sessions.items.filter fun i => i.2.Stale now).map Prod.fst

def reap (now : ℤ) (lookups : String → UnitLookup) : SessionManager :=
  (m.staleUnits now).foldl (fun m unit => m.releaseLocked unit (lookups unit)) m

inductive Op where
  | acquire (unit holder : String) (env : AcquireEnv)
  | heartbeat (unit : String) (holder : Option String) (lookup : UnitLookup)
  | release (unit : String) (lookup : UnitLookup)
  | takeOver (unit holder : String) (lookup : UnitLookup) (env : AcquireEnv)
  | reap (lookups : String → UnitLookup)

def call (now : ℤ) : Op → SessionManager
  | .acquire unit holder env => (m.acquire unit holder now env).1
  | .heartbeat unit holder lookup => (m.heartbeat unit now holder lookup).1
  | .release unit lookup => m.release unit lookup
  | .takeOver unit holder lookup env => (m.takeOver unit holder now lookup env).1
  | .reap lookups => m.reap now lookups

def okUnit (unit : String) : Except AcquireError ScreenSession → Option String
  | .ok _ => some unit
  | .error _ => none

/-- The unit of which the call answers that it is held: a session acquired or taken over, or a
heartbeat that was not too late. -/
def confirmed (now : ℤ) : Op → Option String
  | .acquire unit holder env => okUnit unit (m.acquire unit holder now env).2
  | .heartbeat unit holder lookup =>
    (m.heartbeat unit now holder lookup).2.map fun _ => unit
  | .takeOver unit holder lookup env => okUnit unit (m.takeOver unit holder now lookup env).2
  | .release _ _ | .reap _ => none

/-- The manager at the time of its last call. -/
structure Moment where
  manager : SessionManager
  now : ℤ
  /-- When a call last answered that the unit is held, kept for the history. -/
  lastHeartbeat : String → Option ℤ

def Moment.atStart (plugin socket kind : String) (reverse : Bool) (now : ℤ) : Moment :=
  ⟨opened plugin socket kind reverse, now, fun _ => none⟩

def heard (lastHeartbeat : String → Option ℤ) (now : ℤ) : Option String → String → Option ℤ
  | some unit => Function.update lastHeartbeat unit (some now)
  | none => lastHeartbeat

def step (s : Moment) (a : ℕ × Op) : Moment where
  manager := s.manager.call (s.now + a.1) a.2
  now := s.now + a.1
  lastHeartbeat :=
    heard s.lastHeartbeat (s.now + a.1) (s.manager.confirmed (s.now + a.1) a.2)

/-- The unit's last heartbeat is more than the lease ago. -/
def Moment.LeaseOver (s : Moment) (unit : String) (now : ℤ) : Prop :=
  ∃ t ∈ s.lastHeartbeat unit, HEARTBEAT_TIMEOUT_SECONDS < now - t

end SessionManager

end Rackphone
