import Rackphone.Lib.Run
import Rackphone.Lib.Table

/-!
# The refresh tokens

The table `refresh_tokens` of `gateway/authstore.py`: its statements, and the store's methods
made of them. A login is a family of rows, its first row and the ones renewals put in its place.
No `UPDATE` of the store changes a row's id, hash, family or expiry or takes a revocation back,
and an assignment carries that.
-/

namespace Rackphone

structure RefreshToken where
  id : ℕ
  deviceLabel : String
  scope : String
  issuedAt : ℤ
  expiresAt : ℤ
  lastSeen : ℤ
  revokedAt : Option ℤ
deriving DecidableEq

structure RefreshRow extends RefreshToken where
  tokenHash : String
  familyId : Option ℕ
deriving DecidableEq

namespace RefreshRow

def family (r : RefreshRow) : ℕ := r.familyId.getD r.id

/-- `row["family_id"] or row["id"]`, which passes over a zero as well as a NULL. -/
def familyOrId (r : RefreshRow) : ℕ :=
  match r.familyId with
  | none | some 0 => r.id
  | some f => f

def Live (r : RefreshRow) (now : ℤ) : Prop := r.revokedAt = none ∧ now < r.expiresAt

instance (r : RefreshRow) (now : ℤ) : Decidable (r.Live now) :=
  inferInstanceAs (Decidable (_ ∧ _))

end RefreshRow

structure Assignment where
  apply : RefreshRow → RefreshRow
  id_apply : ∀ r, (apply r).id = r.id
  tokenHash_apply : ∀ r, (apply r).tokenHash = r.tokenHash
  familyId_apply : ∀ r, (apply r).familyId = r.familyId
  expiresAt_apply : ∀ r, (apply r).expiresAt = r.expiresAt
  unrevoked_of_apply : ∀ r, (apply r).revokedAt = none → r.revokedAt = none

attribute [simp] Assignment.id_apply Assignment.tokenHash_apply Assignment.familyId_apply
  Assignment.expiresAt_apply

namespace Assignment

def lastSeen (now : ℤ) : Assignment where
  apply r := { r with lastSeen := now }
  id_apply _ := rfl
  tokenHash_apply _ := rfl
  familyId_apply _ := rfl
  expiresAt_apply _ := rfl
  unrevoked_of_apply _ h := h

def revokedAt (now : ℤ) : Assignment where
  apply r := { r with revokedAt := some now }
  id_apply _ := rfl
  tokenHash_apply _ := rfl
  familyId_apply _ := rfl
  expiresAt_apply _ := rfl
  unrevoked_of_apply _ h := by simp at h

end Assignment

/-- `sqlite3.IntegrityError`, from the UNIQUE constraint on the hashes. -/
inductive IntegrityError where
  | unique
deriving DecidableEq

structure AuthStore where
  rows : List RefreshRow
  ids_lt : Table.Ascending (fun r : RefreshRow => r.id) rows
  ids_pos : ∀ r ∈ rows, 0 < r.id
  hashes_nodup : (rows.map fun r => r.tokenHash).Nodup

namespace AuthStore

def empty : AuthStore := ⟨[], .nil, by simp, by simp⟩

def hashes (s : AuthStore) : List String := s.rows.map fun r => r.tokenHash

def assign (a : Assignment) (p : RefreshRow → Prop) [DecidablePred p] (r : RefreshRow) :
    RefreshRow :=
  if p r then a.apply r else r

section Assign

variable (a : Assignment) (p : RefreshRow → Prop) [DecidablePred p] (r : RefreshRow)

@[simp] theorem id_assign : (assign a p r).id = r.id := by
  unfold assign; split_ifs <;> simp

@[simp] theorem tokenHash_assign : (assign a p r).tokenHash = r.tokenHash := by
  unfold assign; split_ifs <;> simp

@[simp] theorem familyId_assign : (assign a p r).familyId = r.familyId := by
  unfold assign; split_ifs <;> simp

@[simp] theorem expiresAt_assign : (assign a p r).expiresAt = r.expiresAt := by
  unfold assign; split_ifs <;> simp

end Assign

def update (s : AuthStore) (a : Assignment) (p : RefreshRow → Prop) [DecidablePred p] :
    AuthStore where
  rows := s.rows.map (assign a p)
  ids_lt := s.ids_lt.map (id_assign a p)
  ids_pos := by
    intro r' hr'
    obtain ⟨r, hr, rfl⟩ := List.mem_map.1 hr'
    rw [id_assign]
    exact s.ids_pos r hr
  hashes_nodup := by
    have : (fun r : RefreshRow => r.tokenHash) ∘ assign a p = fun r => r.tokenHash :=
      funext (tokenHash_assign a p)
    rw [List.map_map, this]
    exact s.hashes_nodup

def rowcount (s : AuthStore) (p : RefreshRow → Prop) [DecidablePred p] : ℕ :=
  s.rows.countP fun r => p r

def nextId (s : AuthStore) : ℕ := Table.maxId (fun r : RefreshRow => r.id) s.rows + 1

def newRow (s : AuthStore) (tokenHash deviceLabel scope : String) (now ttl : ℤ)
    (familyId : Option ℕ) : RefreshRow where
  id := s.nextId
  deviceLabel := deviceLabel
  scope := scope
  issuedAt := now
  expiresAt := now + ttl
  lastSeen := now
  revokedAt := none
  tokenHash := tokenHash
  familyId := familyId

/-- `INSERT INTO refresh_tokens`, with `lastrowid`. -/
def insert (s : AuthStore) (tokenHash deviceLabel scope : String) (now ttl : ℤ)
    (familyId : Option ℕ) : Except IntegrityError (AuthStore × ℕ) :=
  if h : tokenHash ∈ s.hashes then .error .unique else
    .ok ({ rows := s.rows ++ [s.newRow tokenHash deviceLabel scope now ttl familyId]
           ids_lt := s.ids_lt.concat rfl
           ids_pos := by
             intro r hr
             rcases List.mem_append.1 hr with hr | hr
             · exact s.ids_pos r hr
             · rw [List.mem_singleton.1 hr]
               exact Nat.succ_pos _
           hashes_nodup := Table.nodup_concat s.hashes_nodup h }, s.nextId)

def selectLive (s : AuthStore) (tokenHash : String) (now : ℤ) : Option RefreshRow :=
  s.rows.find? fun r => r.tokenHash = tokenHash ∧ r.Live now

def touch (s : AuthStore) (id : ℕ) (now : ℤ) : AuthStore :=
  s.update (.lastSeen now) fun r => r.id = id

/-- `UPDATE refresh_tokens SET revoked_at = ? WHERE id = ?`, the one `rotate_refresh` makes. -/
def supersede (s : AuthStore) (id : ℕ) (now : ℤ) : AuthStore :=
  s.update (.revokedAt now) fun r => r.id = id

/-- The insert of `rotate_refresh`: a row in the place of the one it selected. -/
def insertSuccessor (s : AuthStore) (row : RefreshRow) (newHash : String) (now ttl : ℤ) :
    Except IntegrityError (AuthStore × ℕ) :=
  s.insert newHash row.deviceLabel row.scope now ttl (some row.familyOrId)

def issueRefresh (s : AuthStore) (tokenHash deviceLabel scope : String) (now ttl : ℤ) :
    Except IntegrityError (AuthStore × ℕ) :=
  s.insert tokenHash deviceLabel scope now ttl none

def resolveRefresh (s : AuthStore) (tokenHash : String) (now : ℤ) :
    AuthStore × Option RefreshToken :=
  match s.selectLive tokenHash now with
  | none => (s, none)
  | some row => (s.touch row.id now, some { row.toRefreshToken with lastSeen := now })

def rotateRefresh (s : AuthStore) (oldHash newHash : String) (now ttl : ℤ) :
    Except IntegrityError (AuthStore × Option ℕ) :=
  match s.selectLive oldHash now with
  | none => .ok (s, none)
  | some row =>
    match (s.supersede row.id now).insertSuccessor row newHash now ttl with
    | .error e => .error e
    | .ok (s', id) => .ok (s', some id)

def revokeRefresh (s : AuthStore) (tokenId : ℕ) (now : ℤ) : AuthStore × Bool :=
  (s.update (.revokedAt now) fun r => r.id = tokenId ∧ r.revokedAt = none,
    s.rowcount (fun r => r.id = tokenId ∧ r.revokedAt = none) == 1)

def revokeAll (s : AuthStore) (now : ℤ) : AuthStore × ℕ :=
  (s.update (.revokedAt now) fun r => r.Live now, s.rowcount fun r => r.Live now)

def liveRefresh (s : AuthStore) (tokenId : ℕ) (now : ℤ) : Option RefreshToken :=
  (s.rows.find? fun r => r.id = tokenId ∧ r.Live now).map fun r => r.toRefreshToken

def familyOf (s : AuthStore) (tokenId : ℕ) : Option ℕ :=
  (s.rows.find? fun r => r.id = tokenId).map fun r => r.family

def familyLive (s : AuthStore) (tokenId : ℕ) (now : ℤ) : Bool :=
  s.rows.any fun r => s.familyOf tokenId = some r.family ∧ r.Live now

def NoLive (s : AuthStore) (f : ℕ) (now : ℤ) : Prop := ∀ r ∈ s.rows, r.family = f → ¬ r.Live now

def Newest (s : AuthStore) (r : RefreshRow) : Prop :=
  ∀ r' ∈ s.rows, r'.family = r.family → r'.id ≤ r.id

def unrevoked (s : AuthStore) (f : ℕ) : List RefreshRow :=
  s.rows.filter fun r => r.family = f ∧ r.revokedAt = none

inductive Op where
  | issueRefresh (tokenHash deviceLabel scope : String) (ttl : ℤ)
  | resolveRefresh (tokenHash : String)
  | rotateRefresh (oldHash newHash : String) (ttl : ℤ)
  | revokeRefresh (tokenId : ℕ)
  | revokeAll

/-- What a call leaves in the table; one that raises is rolled back. -/
def call (s : AuthStore) (now : ℤ) : Op → AuthStore
  | .issueRefresh tokenHash deviceLabel scope ttl =>
    match s.issueRefresh tokenHash deviceLabel scope now ttl with
    | .error _ => s
    | .ok (s', _) => s'
  | .resolveRefresh tokenHash => (s.resolveRefresh tokenHash now).1
  | .rotateRefresh oldHash newHash ttl =>
    match s.rotateRefresh oldHash newHash now ttl with
    | .error _ => s
    | .ok (s', _) => s'
  | .revokeRefresh tokenId => (s.revokeRefresh tokenId now).1
  | .revokeAll => (s.revokeAll now).1

/-- The store at the time of its last call. -/
structure Moment where
  store : AuthStore
  now : ℤ

def step (m : Moment) (a : ℕ × Op) : Moment := ⟨m.store.call (m.now + a.1) a.2, m.now + a.1⟩

/-- Some calls of the methods, in time order from an empty table, make the store. -/
def Reachable (s : AuthStore) : Prop :=
  ∃ (t : ℤ) (calls : List (ℕ × Op)), (Run.final step ⟨empty, t⟩ calls).store = s

end AuthStore

end Rackphone
