import Rackphone.Lib.Connection
import Rackphone.Login

/-!
# Renewals of one token at a time

The calls of `refresh`, `revoke_refresh` and `revoke_all` that the API's worker threads make on
the store's one connection, a statement at a time. A `SELECT` opens no transaction and holds
nothing, and `with connection` commits on the way out of a call that returns early as well. The
schedule says which call makes its next statement.
-/

namespace Rackphone

/-- What a worker thread was asked to do; a refresh comes with the token it generates. -/
inductive RefreshRequest where
  | refresh (replacement : String)
  | revokeRefresh (tokenId : ℕ)
  | revokeAll

/-- The statement a call makes next, with what it has read, or how it ended. -/
inductive RefreshPhase where
  | resolveSelect (replacement : String)
  | resolveUpdate (replacement : String) (row : RefreshRow)
  | resolveCommit (replacement : String) (session : RefreshToken)
  | rotateSelect (replacement : String) (session : RefreshToken)
  | rotateUpdate (replacement : String) (session : RefreshToken) (row : RefreshRow)
  | rotateInsert (replacement : String) (session : RefreshToken) (row : RefreshRow)
  | rotateCommit (replacement : String) (session : RefreshToken) (refreshId : ℕ)
  | refuseCommit
  | revokeUpdate (tokenId : ℕ)
  | revokeAllUpdate
  | revokeCommit (rows : List RefreshRow)
  | answered (tokens : Tokens)
  | refused
  | raised
  /-- The rows the call newly revoked; it answers with their number. -/
  | revoked (rows : List RefreshRow)

def RefreshRequest.begin : RefreshRequest → RefreshPhase
  | refresh replacement => .resolveSelect replacement
  | revokeRefresh tokenId => .revokeUpdate tokenId
  | revokeAll => .revokeAllUpdate

namespace RefreshPhase

def Over : RefreshPhase → Prop
  | answered _ | refused | raised | revoked _ => True
  | _ => False

def Answered : RefreshPhase → Prop
  | answered _ => True
  | _ => False

def selected : RefreshPhase → Option ℕ
  | rotateUpdate _ _ row => some row.id
  | _ => none

def revokedRows : RefreshPhase → List RefreshRow
  | revokeCommit rows | revoked rows => rows
  | _ => []

instance : DecidablePred Over
  | answered _ | refused | raised | revoked _ => isTrue trivial
  | resolveSelect _ | resolveUpdate _ _ | resolveCommit _ _ | rotateSelect _ _
  | rotateUpdate _ _ _ | rotateInsert _ _ _ | rotateCommit _ _ _ | refuseCommit
  | revokeUpdate _ | revokeAllUpdate | revokeCommit _ => isFalse id

instance : DecidablePred Answered
  | answered _ => isTrue trivial
  | refused | raised | revoked _ | resolveSelect _ | resolveUpdate _ _ | resolveCommit _ _
  | rotateSelect _ _ | rotateUpdate _ _ _ | rotateInsert _ _ _ | rotateCommit _ _ _
  | refuseCommit | revokeUpdate _ | revokeAllUpdate | revokeCommit _ => isFalse id

end RefreshPhase

/-- Some calls on a store its methods have made, the refreshes all with one token. What
`generate_token` draws is new. -/
structure RefreshRace (n : ℕ) where
  login : LoginService
  store : AuthStore
  reachable : store.Reachable
  refreshToken : String
  row : RefreshRow
  row_mem : row ∈ store.rows
  row_hash : row.tokenHash = login.hashToken refreshToken
  requests : Fin n → RefreshRequest
  now : Fin n → ℤ
  replacement_fresh : ∀ i t, requests i = .refresh t → login.hashToken t ∉ store.hashes
  replacement_inj : ∀ i j t t', requests i = .refresh t → requests j = .refresh t' →
    login.hashToken t = login.hashToken t' → i = j

namespace RefreshRace

variable {n : ℕ} (R : RefreshRace n)

structure State (n : ℕ) where
  connection : Connection AuthStore
  phases : Fin n → RefreshPhase

/-- The table as the connection sees it. -/
def State.table (s : State n) : AuthStore := s.connection.working

def init : State n := ⟨.opened R.store, fun i => (R.requests i).begin⟩

def oldHash : String := R.login.hashToken R.refreshToken

def State.goto (s : State n) (i : Fin n) (p : RefreshPhase) : State n :=
  { s with phases := Function.update s.phases i p }

def State.write (s : State n) (table : AuthStore) : State n :=
  { s with connection := s.connection.write table }

def State.commit (s : State n) : State n := { s with connection := s.connection.commit }

def State.rollback (s : State n) : State n := { s with connection := s.connection.rollback }

/-- The rows a statement of `revoke_refresh` or `revoke_all` is about to revoke. -/
def matched (s : State n) (p : RefreshRow → Prop) [DecidablePred p] : List RefreshRow :=
  s.table.rows.filter fun r => p r

def step (s : State n) (i : Fin n) : State n :=
  match s.phases i with
  | .resolveSelect replacement =>
    match s.table.selectLive R.oldHash (R.now i) with
    | none => s.goto i .refuseCommit
    | some row => s.goto i (.resolveUpdate replacement row)
  | .resolveUpdate replacement row =>
    (s.write (s.table.touch row.id (R.now i))).goto i
      (.resolveCommit replacement { row.toRefreshToken with lastSeen := R.now i })
  | .resolveCommit replacement session => s.commit.goto i (.rotateSelect replacement session)
  | .rotateSelect replacement session =>
    match s.table.selectLive R.oldHash (R.now i) with
    | none => s.goto i .refuseCommit
    | some row => s.goto i (.rotateUpdate replacement session row)
  | .rotateUpdate replacement session row =>
    (s.write (s.table.supersede row.id (R.now i))).goto i (.rotateInsert replacement session row)
  | .rotateInsert replacement session row =>
    match s.table.insertSuccessor row (R.login.hashToken replacement) (R.now i)
        R.login.refreshTtlSeconds with
    | .error _ => s.rollback.goto i .raised
    | .ok (table, refreshId) => (s.write table).goto i (.rotateCommit replacement session refreshId)
  | .rotateCommit replacement session refreshId =>
    s.commit.goto i (.answered (R.login.tokens replacement refreshId session.scope (R.now i)))
  | .refuseCommit => s.commit.goto i .refused
  | .revokeUpdate tokenId =>
    (s.write (s.table.revokeRefresh tokenId (R.now i)).1).goto i
      (.revokeCommit (matched s fun r => r.id = tokenId ∧ r.revokedAt = none))
  | .revokeAllUpdate =>
    (s.write (s.table.revokeAll (R.now i)).1).goto i
      (.revokeCommit (matched s fun r => r.Live (R.now i)))
  | .revokeCommit rows => s.commit.goto i (.revoked rows)
  | .answered _ | .refused | .raised | .revoked _ => s

def FamilyRevoked (s : State n) : Prop :=
  ∃ i, ∃ r ∈ (s.phases i).revokedRows, r.family = R.row.family

/-- At most one refresh is answered; once the calls are over the family has at most one unrevoked
row, and none if a revocation newly revoked one of its rows. -/
def OneSuccessor (s : State n) : Prop :=
  (∀ i j, (s.phases i).Answered → (s.phases j).Answered → i = j)
    ∧ ((∀ i, (s.phases i).Over) →
      (s.table.unrevoked R.row.family).length ≤ 1
        ∧ (R.FamilyRevoked s → s.table.unrevoked R.row.family = []))

/-- A refresh that is about to revoke the row it selected finds it unrevoked still. -/
def StillUnrevoked (s : State n) (i : Fin n) : Prop :=
  ∀ r ∈ s.table.rows, (s.phases i).selected = some r.id → r.revokedAt = none

instance (s : State n) : Decidable (R.FamilyRevoked s) := by
  unfold FamilyRevoked; infer_instance

instance : DecidablePred R.OneSuccessor := fun s => by unfold OneSuccessor; infer_instance

instance (s : State n) (i : Fin n) : Decidable (StillUnrevoked s i) := by
  unfold StillUnrevoked; infer_instance

end RefreshRace

end Rackphone
