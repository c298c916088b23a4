import Rackphone.EventStore

/-!
# What a reader may see

The gateway's capability policy (`gateway/config.py`) and the one rule by which a query and the
live stream drop the rows a unit is not permitted to report (`readable_rows` and `permitted_rows`
in `gateway/api.py`). The page a query is cut to is compared with the page of what is permitted.
-/

namespace Rackphone

inductive Capability where
  | sms | notifications | screen | files | calls
deriving DecidableEq

def VALID_CAPABILITIES : List Capability := [.sms, .notifications, .screen, .files, .calls]

structure GatewayConfig where
  unitCapabilities : String → Option (List Capability)

/-- A unit that declares none has them all. -/
def GatewayConfig.capabilitiesFor (config : GatewayConfig) (unit : String) : List Capability :=
  (config.unitCapabilities unit).getD VALID_CAPABILITIES

def capabilityFor (kind : String) : Capability :=
  if kind = KIND_NOTIFICATION then .notifications else .sms

/-- The policy permits the row; without one every row is. -/
def Readable (config : Option GatewayConfig) (r : Row) : Prop :=
  ∀ c ∈ config, capabilityFor r.kind ∈ c.capabilitiesFor r.unit

instance (config : Option GatewayConfig) : DecidablePred (Readable config) := fun r =>
  match config with
  | none => isTrue (by simp [Readable])
  | some c =>
    decidable_of_iff (capabilityFor r.kind ∈ c.capabilitiesFor r.unit) (by simp [Readable])

def readableRows (rows : List Row) (config : Option GatewayConfig) : List Row :=
  rows.filter fun r => Readable config r

/-- `permitted_rows`, where nothing stands for the refusal of a unit that lacks the capability. -/
def permittedRows (store : EventStore) (config : GatewayConfig) (kind unit : Option String)
    (since : Option ℤ) (limit : ℕ) : Option (List Row) :=
  let required := match kind with
    | some kind => [capabilityFor kind]
    | none => [.sms, .notifications]
  if unit.any fun u => required.all fun c => c ∉ config.capabilitiesFor u then none
  else some (readableRows (store.queryEvents kind unit since limit) (some config))

section Page

variable (store : EventStore) (config : GatewayConfig) (kind unit : Option String)
  (since : Option ℤ) (limit : ℕ)

/-- The stored rows the query asks for. -/
def matchingRows : List Row := store.rows.filter fun r => EventStore.Matches kind unit since r

/-- The first of all the matching rows that the policy permits. -/
def permittedPage : List Row :=
  Page.top Row.newestKey limit (readableRows (matchingRows store kind unit since) (some config))

/-- Where a forbidden row is among the first of the matching rows, every permitted one is. -/
def NoneDisplaced : Prop :=
  ∀ forbidden ∈ matchingRows store kind unit since,
    ∀ permitted ∈ matchingRows store kind unit since,
      ¬ Readable (some config) forbidden → Readable (some config) permitted →
        Page.ahead Row.newestKey (matchingRows store kind unit since) forbidden < limit →
          Page.ahead Row.newestKey (matchingRows store kind unit since) permitted < limit

end Page

end Rackphone
