import Rackphone.Session

/-!
# The tunnels a manager opened

`SessionManager` again, with every tunnel that an acquire opened kept beside it: whose it was, how
often its removal was attempted and whether the host still listens. A reference to a tunnel is its
place in that list with what it says. A reverse that fails opens none, and its listener is closed.
-/

namespace Rackphone

structure OpenedTunnel where
  unit : String
  tunnel : Tunnel
  removals : ℕ
  listening : Bool
deriving DecidableEq

/-- What `_close_tunnel` does, whether the removal raises or not. -/
def OpenedTunnel.close (o : OpenedTunnel) : OpenedTunnel :=
  { o with removals := o.removals + 1, listening := false }

structure TunnelRef where
  id : ℕ
  tunnel : Tunnel
deriving DecidableEq

/-- Whether an acquire past its check for a session gets one. -/
def AcquireEnv.Succeeds (reverse : Bool) (env : AcquireEnv) : Prop :=
  env.lookup.serial ≠ none ∧ env.start = true
    ∧ if reverse then env.port ≠ none ∧ env.reverse = true else env.forward ≠ none

def UnitLookup.Resolves (u : UnitLookup) : Prop := u.cleanupSerial ≠ none

instance (u : UnitLookup) : Decidable u.Resolves := inferInstanceAs (Decidable (_ ≠ _))

structure Ledger where
  manager : SessionManager
  /-- Every tunnel that an acquire opened, the latest last. -/
  opened : List OpenedTunnel
  recorded : String → Option TunnelRef

namespace Ledger

def start (plugin socket kind : String) (reverse : Bool) : Ledger :=
  ⟨.opened plugin socket kind reverse, [], fun _ => none⟩

variable (l : Ledger)

def record (e : LogEntry) : Ledger := { l with manager := l.manager.record e }

def stop (unit serial : String) : Ledger := { l with manager := l.manager.stop unit serial }

def closeTunnel (unit serial : String) : Option TunnelRef → Ledger
  | none => l
  | some ref =>
    { l with
      manager := l.manager.closeTunnel unit serial (some ref.tunnel)
      opened := l.opened.modify ref.id OpenedTunnel.close }

def releaseLocked (unit : String) (lookup : UnitLookup) : Ledger :=
  let l := { l with manager := { l.manager with sessions := l.manager.sessions.pop unit } }
  match lookup.cleanupSerial with
  | none => l.record (.unresolved unit)
  | some serial => (l.closeTunnel unit serial (l.recorded unit)).stop unit serial

/-- A tunnel newly opened for the unit. -/
def add (unit : String) (tunnel : Tunnel) : Ledger × TunnelRef :=
  ({ l with opened := l.opened ++ [⟨unit, tunnel, 0, tunnel.reverseName.isSome⟩] },
    ⟨l.opened.length, tunnel⟩)

def openTunnel (unit serial remote : String) (env : AcquireEnv) :
    Ledger × Except AcquireError (Option TunnelRef) :=
  if l.manager.reverse then
    match env.port with
    | none => (l, .error .raised)
    | some port =>
      let l := l.record (.call unit serial (.reverse remote port))
      if env.reverse then
        let (l, ref) := l.add unit ⟨port, some remote⟩
        (l, .ok (some ref))
      else (l, .error .raised)
  else (l, .ok none)

def abandon (unit serial : String) (ref : Option TunnelRef) :
    Ledger × Except AcquireError ScreenSession :=
  ((l.closeTunnel unit serial ref).stop unit serial, .error .raised)

def establish (unit holder : String) (now : ℤ) (ref : TunnelRef) :
    Ledger × Except AcquireError ScreenSession :=
  let r := l.manager.establish unit holder now ref.tunnel
  ({ l with manager := r.1, recorded := Function.update l.recorded unit (some ref) }, r.2)

def startDevice (unit holder serial socketId remote : String) (now : ℤ) (ref : Option TunnelRef)
    (env : AcquireEnv) : Ledger × Except AcquireError ScreenSession :=
  let l := l.record (.call unit serial (.start l.manager.plugin socketId))
  if env.start then
    match ref with
    | some ref => l.establish unit holder now ref
    | none =>
      let l := l.record (.call unit serial (.forward remote))
      match env.forward with
      | some port =>
        let (l, ref) := l.add unit ⟨port, none⟩
        l.establish unit holder now ref
      | none => l.abandon unit serial none
  else l.abandon unit serial ref

def acquireFree (unit holder : String) (now : ℤ) (env : AcquireEnv) :
    Ledger × Except AcquireError ScreenSession :=
  match env.lookup.serial with
  | none => (l, .error .raised)
  | some serial =>
    let remote := l.manager.socket ++ "_" ++ socketIdText env.socketId
    match l.openTunnel unit serial remote env with
    | (l, .error e) => (l, .error e)
    | (l, .ok ref) =>
      l.startDevice unit holder serial (socketIdText env.socketId) remote now ref env

def acquire (unit holder : String) (now : ℤ) (env : AcquireEnv) :
    Ledger × Except AcquireError ScreenSession :=
  match l.manager.sessions.get unit with
  | none => l.acquireFree unit holder now env
  | some current =>
    if current.Stale now then (l.releaseLocked unit env.stale).acquireFree unit holder now env
    else (l, .error (.busy ⟨current.holder, current.startedAt, l.manager.kind⟩))

def heartbeat (unit : String) (now : ℤ) (holder : Option String) (lookup : UnitLookup) : Ledger :=
  match l.manager.sessions.get unit with
  | none => l
  | some current =>
    if ∃ h, holder = some h ∧ current.holder ≠ h then l
    else if current.Stale now then l.releaseLocked unit lookup
    else
      let sessions := l.manager.sessions.set unit { current with lastSeen := now }
      { l with manager := { l.manager with sessions } }

def takeOver (unit holder : String) (now : ℤ) (lookup : UnitLookup) (env : AcquireEnv) :
    Ledger × Except AcquireError ScreenSession :=
  (l.releaseLocked unit lookup).acquire unit holder now env

def reap (now : ℤ) (lookups : String → UnitLookup) : Ledger :=
  (l.manager.staleUnits now).foldl (fun l unit => l.releaseLocked unit (lookups unit)) l

/-- A call with the time its caller read before it waited for the lock. -/
def step : ℤ × SessionManager.Op → Ledger
  | (now, .acquire unit holder env) => (l.acquire unit holder now env).1
  | (now, .heartbeat unit holder lookup) => l.heartbeat unit now holder lookup
  | (_, .release unit lookup) => l.releaseLocked unit lookup
  | (now, .takeOver unit holder lookup env) => (l.takeOver unit holder now lookup env).1
  | (now, .reap lookups) => l.reap now lookups

def OfSession (id : ℕ) (o : OpenedTunnel) : Prop :=
  ∃ session ref, l.manager.sessions.get o.unit = some session ∧ l.recorded o.unit = some ref
    ∧ ref.id = id ∧ session.localPort = o.tunnel.port

def Recorded (id : ℕ) (o : OpenedTunnel) : Prop := ∃ ref, l.recorded o.unit = some ref ∧ ref.id = id

/-- Every tunnel is a session's, is recorded for a later teardown or was torn down, and no removal
was attempted twice. -/
def Accounted : Prop :=
  ∀ id o, l.opened[id]? = some o →
    (l.OfSession id o ∨ l.Recorded id o ∨ 0 < o.removals ∧ o.listening = false) ∧ o.removals ≤ 1

/-- Of the tunnel recorded for the unit, if any, no removal was attempted. -/
def Unremoved (unit : String) : Prop :=
  ∀ ref, l.recorded unit = some ref → ∀ o, l.opened[ref.id]? = some o → o.removals = 0

/-- Of the tunnel recorded for the unit, if any, a removal was attempted. -/
def Removed (unit : String) : Prop :=
  ∀ ref, l.recorded unit = some ref → ∀ o, l.opened[ref.id]? = some o → 0 < o.removals

/-- A release or take-over that resolves its device finds the recorded tunnel unremoved, and a
session is established where it is removed, the call's own release included. -/
def Orderly : ℤ × SessionManager.Op → Prop
  | (_, .release unit lookup) => lookup.Resolves → l.Unremoved unit
  | (_, .takeOver unit _ lookup env) =>
    (lookup.Resolves → l.Unremoved unit)
      ∧ (env.Succeeds l.manager.reverse → lookup.Resolves ∨ l.Removed unit)
  | (now, .acquire unit _ env) =>
    (∀ s, l.manager.sessions.get unit = some s → s.Stale now) → env.Succeeds l.manager.reverse →
      l.manager.sessions.get unit ≠ none ∧ env.stale.Resolves ∨ l.Removed unit
  | (_, .heartbeat _ _ _) | (_, .reap _) => True

end Ledger

end Rackphone
