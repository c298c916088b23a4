import Rackphone.Capability
import Rackphone.Proofs.EventStore

/-!
# The page a reader gets

The store cuts the page and the policy is applied to what is left, so the reader gets the page of
what they may see exactly when no forbidden row takes a place from a permitted one.
-/

namespace Rackphone

variable {store : EventStore} {config : GatewayConfig} {kind unit : Option String}
  {since : Option ℤ} {limit : ℕ}

theorem nodup_matchingRows : ((matchingRows store kind unit since).map Row.newestKey).Nodup :=
  store.nodup_newestKey.sublist (List.filter_sublist.map _)

theorem queryEvents_eq (hpos : 1 ≤ limit) (hmax : limit ≤ MAX_QUERY_LIMIT) :
    store.queryEvents kind unit since limit =
      Page.top Row.newestKey limit (matchingRows store kind unit since) := by
  have hlimit : max 1 (min limit MAX_QUERY_LIMIT) = limit := by omega
  rw [EventStore.queryEvents, hlimit, matchingRows]

theorem eq_permittedPage_iff {page : List Row} (hpos : 1 ≤ limit) (hmax : limit ≤ MAX_QUERY_LIMIT)
    (hpage : permittedRows store config kind unit since limit = some page) :
    page = permittedPage store config kind unit since limit ↔
      NoneDisplaced store config kind unit since limit := by
  unfold permittedRows at hpage
  simp only [] at hpage
  split_ifs at hpage
  obtain rfl := Option.some.inj hpage
  rw [queryEvents_eq hpos hmax, permittedPage, readableRows, readableRows,
    Page.filter_top_iff _ _ nodup_matchingRows]
  simp only [decide_eq_false_iff_not, decide_eq_true_eq, NoneDisplaced]

/-- A request that is refused asks for nothing the reader may see. -/
theorem permittedPage_of_refused (hkind : kind ≠ some "") (hunit : unit ≠ some "")
    (h : permittedRows store config kind unit since limit = none) :
    permittedPage store config kind unit since limit = [] := by
  have hnone : readableRows (matchingRows store kind unit since) (some config) = [] := by
    rw [readableRows, List.filter_eq_nil_iff]
    intro r hr
    obtain ⟨hk, hu, -⟩ : EventStore.Matches kind unit since r := by
      simpa using (List.mem_filter.1 hr).2
    suffices hcap : capabilityFor r.kind ∉ config.capabilitiesFor r.unit by
      simpa [Readable] using hcap
    unfold permittedRows at h
    simp only [] at h
    split_ifs at h with hrefused
    obtain _ | u := unit
    · cases hrefused
    rw [show r.unit = u from hu u rfl fun hempty => hunit (congrArg some hempty)]
    obtain _ | k := kind
    · have hboth : Capability.sms ∉ config.capabilitiesFor u
          ∧ Capability.notifications ∉ config.capabilitiesFor u := by simpa using hrefused
      unfold capabilityFor
      split_ifs
      · exact hboth.2
      · exact hboth.1
    · rw [show r.kind = k from hk k rfl fun hempty => hkind (congrArg some hempty)]
      simpa using hrefused
  rw [permittedPage, hnone, Page.top, Page.descending, List.insertionSort_nil, List.take_nil]

/-! ## A unit that only shows its screen -/

def screenOnly : GatewayConfig where
  unitCapabilities unit := if unit = "lisa01" then some [.screen] else none

def smsOf (unit : String) (timestamp : ℤ) : Event where
  unit := unit
  kind := KIND_SMS
  sourceId := timestamp
  address := none
  body := none
  timestamp := some timestamp
  direction := none
  duration := none
  raw := "{}"

/-- An SMS of a second unit, and a later one of the unit that only shows its screen. -/
def twoUnits : EventStore :=
  (EventStore.empty.addEvents 3 [smsOf "lisa02" 1, smsOf "lisa01" 2]).1

theorem forbidden_displaces :
    permittedRows twoUnits screenOnly none none none 1 = some []
      ∧ (permittedPage twoUnits screenOnly none none none 1).map (fun r => r.unit) = ["lisa02"] :=
  by decide +kernel

theorem wide_page_full :
    readableRows (twoUnits.queryEvents none none none 2) (some screenOnly) =
        permittedPage twoUnits screenOnly none none none 2 ↔
      NoneDisplaced twoUnits screenOnly none none none 2 :=
  eq_permittedPage_iff (by decide) (by decide) rfl

end Rackphone
