import Rackphone.AuthStore

/-!
# Logins as families of rows

The store's methods called one after another. The state counts the logins and carries, for its
history, which of them each row descends from; no method reads it.
-/

namespace Rackphone

structure Families where
  moment : AuthStore.Moment
  logins : ℕ
  loginOf : ℕ → ℕ

namespace Families

open AuthStore

def start (t : ℤ) : Families := ⟨⟨.empty, t⟩, 0, fun _ => 0⟩

/-- The row a call puts in the table, with the login it descends from. -/
def adds (s : Families) (now : ℤ) : Op → Option (ℕ × ℕ)
  | .issueRefresh tokenHash deviceLabel scope ttl =>
    match s.moment.store.issueRefresh tokenHash deviceLabel scope now ttl with
    | .error _ => none
    | .ok (_, id) => some (id, s.logins)
  | .rotateRefresh oldHash newHash ttl =>
    match s.moment.store.selectLive oldHash now,
        s.moment.store.rotateRefresh oldHash newHash now ttl with
    | some row, .ok (_, some id) => some (id, s.loginOf row.id)
    | _, _ => none
  | _ => none

def step (s : Families) (a : ℕ × Op) : Families where
  moment := AuthStore.step s.moment a
  logins :=
    match s.adds (s.moment.now + a.1) a.2 with
    | some (_, login) => max s.logins (login + 1)
    | none => s.logins
  loginOf :=
    match s.adds (s.moment.now + a.1) a.2 with
    | some (id, login) => Function.update s.loginOf id login
    | none => s.loginOf

/-- Two rows are of one family exactly where they descend from one login. -/
def Apart (store : AuthStore) (loginOf : ℕ → ℕ) : Prop :=
  ∀ r ∈ store.rows, ∀ r' ∈ store.rows, r.family = r'.family ↔ loginOf r.id = loginOf r'.id

structure WellFormed (s : Families) : Prop where
  length_unrevoked : ∀ f, (s.moment.store.unrevoked f).length ≤ 1
  newest : ∀ r ∈ s.moment.store.rows, r.revokedAt = none → s.moment.store.Newest r
  apart : Apart s.moment.store s.loginOf
  familyLive_iff : ∀ id t, s.moment.store.familyLive id t = true ↔
    ∃ r ∈ s.moment.store.rows, r.id = id ∧
      ∃ n ∈ s.moment.store.rows, n.family = r.family ∧ s.moment.store.Newest n ∧ n.Live t

/-- A row that is not live at some time is not live at that time or later in any state to come. -/
def StaysDead (s : Families) : Prop :=
  ∀ r ∈ s.moment.store.rows, ∀ t, ¬ r.Live t → ∀ later,
    ∀ r' ∈ (Run.final step s later).moment.store.rows, r'.id = r.id → ∀ t', t ≤ t' → ¬ r'.Live t'

/-- The rows after a renewal of `row`: it alone is revoked, and the one in its place is of its
family, with its label and scope. -/
def renewedRows (s : AuthStore) (row : RefreshRow) (id : ℕ) (newHash : String) (now ttl : ℤ) :
    List RefreshRow :=
  (s.rows.map fun r => if r = row then { r with revokedAt := some now } else r) ++
    [{ row with
        id := id
        issuedAt := now
        expiresAt := now + ttl
        lastSeen := now
        revokedAt := none
        tokenHash := newHash
        familyId := some row.family }]

/-- A renewal that succeeds replaces one live row, and any other changes nothing. -/
def Rotates (s : Families) (a : ℕ × Op) : Prop :=
  ∀ oldHash newHash ttl, a.2 = .rotateRefresh oldHash newHash ttl →
    match s.moment.store.rotateRefresh oldHash newHash (s.moment.now + a.1) ttl with
    | .ok (_, some id) => ∃ row ∈ s.moment.store.rows, row.tokenHash = oldHash
      ∧ row.Live (s.moment.now + a.1) ∧ id ∉ s.moment.store.rows.map (fun r => r.id)
      ∧ (step s a).moment.store.rows
        = renewedRows s.moment.store row id newHash (s.moment.now + a.1) ttl
    | _ => (step s a).moment.store = s.moment.store

end Families

end Rackphone
