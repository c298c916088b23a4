import Rackphone.Lib.Hex
import Rackphone.Lib.Run
import Rackphone.Lib.Writer

/-!
# The signing key on first use

`AuthStore.access_key` of `gateway/authstore.py`, a statement at a time. Threads name the calls and
connections the stores: a thread may call any store's method, and threads may share a store.
-/

namespace Rackphone

/-- The table `auth_state`, by its primary key. -/
abbrev AuthState := String → Option (List Char)

namespace AccessKey

def ACCESS_KEY : String := "access_key"

/-- `INSERT … ON CONFLICT(key) DO NOTHING`. -/
def insertOrNothing (key : String) (value : List Char) (table : AuthState) : AuthState :=
  match table key with
  | none => Function.update table key (some value)
  | some _ => table

/-- The statement a call makes next, and its connection. -/
inductive Phase (κ : Type*) where
  | idle
  | selecting (k : κ)
  | inserting (k : κ)
  | committing (k : κ)
  | rereading (k : κ)

inductive Outcome where
  | returned (key : List UInt8)
  | raised
deriving DecidableEq

structure State (τ κ : Type*) where
  database : Database κ AuthState
  phases : τ → Phase κ
  outcomes : List (τ × Outcome)

inductive Action (τ κ : Type*) where
  | accessKey (thread : τ) (k : κ)
  /-- The thread makes its next statement; `fresh` is what `token_bytes` draws for it. -/
  | statement (thread : τ) (fresh : List UInt8)

variable {τ κ : Type*} [DecidableEq τ] [DecidableEq κ]

def init (table : AuthState) : State τ κ := ⟨.quiet table, fun _ => .idle, []⟩

/-- `bytes.fromhex(row["value"])`, which raises where there is no row. -/
def outcome : Option (List Char) → Outcome
  | none => .raised
  | some value =>
    match Hex.decode value with
    | none => .raised
    | some key => .returned key

namespace State

def goto (s : State τ κ) (t : τ) (p : Phase κ) : State τ κ :=
  { s with phases := Function.update s.phases t p }

def finish (s : State τ κ) (t : τ) (o : Outcome) : State τ κ :=
  { s.goto t .idle with outcomes := s.outcomes ++ [(t, o)] }

/-- The key that is stored, in the transaction that is open where there is one. -/
def stored (s : State τ κ) : Option (List Char) := s.database.latest ACCESS_KEY

end State

def step (s : State τ κ) : Action τ κ → State τ κ
  | .accessKey t k =>
    match s.phases t with
    | .idle => s.goto t (.selecting k)
    | _ => s
  | .statement t fresh =>
    match s.phases t with
    | .idle => s
    | .selecting k =>
      match s.database.read k ACCESS_KEY with
      | some value => s.finish t (outcome (some value))
      | none => s.goto t (.inserting k)
    | .inserting k =>
      if s.database.Waits k then s
      else
        { s.goto t (.committing k) with
          database := s.database.write k (insertOrNothing ACCESS_KEY (Hex.encode fresh)) }
    | .committing k => { s.goto t (.rereading k) with database := s.database.commit k }
    | .rereading k => s.finish t (outcome (s.database.read k ACCESS_KEY))

/-- How many statements a call has still to make, at most. -/
def Phase.left : Phase κ → ℕ
  | .idle => 0
  | .selecting _ => 4
  | .inserting _ => 3
  | .committing _ => 2
  | .rereading _ => 1

/-- What calls agree on. -/
structure State.Agrees (s : State τ κ) : Prop where
  /-- All calls that have ended returned one key, and it is the one stored. -/
  same : ∃ key, ∀ o ∈ s.outcomes, o.2 = .returned key ∧ s.stored = some (Hex.encode key)
  /-- Between calls it is committed. -/
  committed : (∀ t, s.phases t = .idle) → s.database.committed ACCESS_KEY = s.stored
  /-- Nothing keeps the running calls from returning: one of them can make its next statement. -/
  progress : (∃ t, s.phases t ≠ .idle) → ∃ t, ∀ fresh,
    ((step s (.statement t fresh)).phases t).left < (s.phases t).left

end AccessKey

end Rackphone
