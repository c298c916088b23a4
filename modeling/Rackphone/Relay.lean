import Rackphone.AuthStore
import Rackphone.Session

/-!
# Relays over a WebSocket

A screen or call relay was authorised once, at connect, and keeps its lease by `renew_lease` of
`gateway/api.py`, which looks at the refresh row its token named and at the lease. The gateway
is the tokens and one session manager; between two renewals either may be called.
-/

namespace Rackphone

structure Gateway where
  tokens : AuthStore
  manager : SessionManager
  now : ℤ

namespace Gateway

/-- `renew_lease`; the manager reads its clock `lag` seconds after the tokens were looked at. The
legacy token has no refresh row. -/
def renewLease (g : Gateway) (lag : ℕ) (unit holder : String) (refreshId : Option ℕ)
    (lookup : UnitLookup) : SessionManager × Bool :=
  match refreshId with
  | none =>
    let r := g.manager.heartbeat unit (g.now + lag) (some holder) lookup
    (r.1, r.2.isSome)
  | some id =>
    if g.tokens.liveRefresh id g.now = none then (g.manager, false)
    else
      let r := g.manager.heartbeat unit (g.now + lag) (some holder) lookup
      (r.1, r.2.isSome)

inductive Action where
  | wait (seconds : ℕ)
  | tokens (op : AuthStore.Op)
  | manager (op : SessionManager.Op)
  | renewLease (lag : ℕ) (unit holder : String) (refreshId : Option ℕ) (lookup : UnitLookup)

def step (g : Gateway) : Action → Gateway
  | .wait seconds => { g with now := g.now + seconds }
  | .tokens op => { g with tokens := g.tokens.call g.now op }
  | .manager op => { g with manager := g.manager.call g.now op }
  | .renewLease lag unit holder refreshId lookup =>
    { g with manager := (g.renewLease lag unit holder refreshId lookup).1, now := g.now + lag }

def LeaseFresh (g : Gateway) (lag : ℕ) (unit holder : String) : Prop :=
  ∃ s, g.manager.sessions.get unit = some s ∧ s.holder = holder ∧ ¬ s.Stale (g.now + lag)

/-- A relay of a login that is live, under whichever token of it, may keep running while its
lease is fresh. -/
def RelayOutlives (g : Gateway) : Action → Prop
  | .renewLease lag unit holder (some id) lookup =>
    g.tokens.familyLive id g.now → g.LeaseFresh lag unit holder →
      (g.renewLease lag unit holder (some id) lookup).2 = true
  | _ => True

/-- The row the relay's token names is the newest of its family: nobody has renewed the login
since. -/
def NotRenewed (g : Gateway) : Action → Prop
  | .renewLease lag unit holder (some id) _ =>
    g.tokens.familyLive id g.now → g.LeaseFresh lag unit holder →
      ∀ r ∈ g.tokens.rows, r.id = id → g.tokens.Newest r
  | _ => True

instance (g : Gateway) (lag : ℕ) (unit holder : String) :
    Decidable (g.LeaseFresh lag unit holder) := by
  unfold LeaseFresh; infer_instance

instance (g : Gateway) : DecidablePred g.RelayOutlives
  | .renewLease _ _ _ (some _) _ => inferInstanceAs (Decidable (_ → _ → _))
  | .renewLease _ _ _ none _ | .wait _ | .tokens _ | .manager _ => isTrue trivial

instance (g : Gateway) : DecidablePred g.NotRenewed
  | .renewLease _ _ _ (some _) _ => by unfold NotRenewed AuthStore.Newest; infer_instance
  | .renewLease _ _ _ none _ | .wait _ | .tokens _ | .manager _ => isTrue trivial

end Gateway

end Rackphone
