import Rackphone.Proofs.Login
import Rackphone.Proofs.Session
import Rackphone.Relay

/-!
# A relay and the renewals of its login

`renew_lease` asks for the one row, so it holds exactly as long as that row is the newest of its
family.
-/

namespace Rackphone

namespace AuthStore

variable {s : AuthStore} {r : RefreshRow} {now : ℤ}

theorem liveRefresh_ne_none (hr : r ∈ s.rows) : s.liveRefresh r.id now ≠ none ↔ r.Live now := by
  unfold liveRefresh
  rw [Ne, Option.map_eq_none_iff]
  constructor
  · intro h
    obtain ⟨r', hr'⟩ := Option.ne_none_iff_exists'.1 h
    obtain ⟨hmem, hid, hl⟩ := find?_id_eq_some.1 hr'
    exact eq_of_id hmem hr hid ▸ hl
  · intro hl h
    rw [find?_id_eq_some.2 ⟨hr, rfl, hl⟩] at h
    cases h

/-- In a family that is live, the live row is the newest. -/
theorem Chained.live_iff_newest (hC : s.Chained) (hr : r ∈ s.rows)
    (hlive : s.familyLive r.id now = true) : r.Live now ↔ s.Newest r := by
  constructor
  · exact fun h => hC.newest r hr h.1
  · intro hnew
    obtain ⟨r', hr', hf, hl⟩ := (familyLive_iff hr).1 hlive
    have hid := le_antisymm (hnew r' hr' hf) (hC.newest r' hr' hl.1 r hr hf.symm)
    exact eq_of_id hr' hr hid ▸ hl

theorem exists_of_familyLive {id : ℕ} (h : s.familyLive id now = true) :
    ∃ r ∈ s.rows, r.id = id := by
  unfold familyLive at h
  obtain ⟨r', -, h⟩ := List.any_eq_true.1 h
  obtain ⟨hf, -⟩ := of_decide_eq_true h
  obtain ⟨r, hr, -⟩ := Option.map_eq_some_iff.1 hf
  exact ⟨r, List.mem_of_find?_eq_some hr, by simpa using List.find?_some hr⟩

end AuthStore

namespace Gateway

variable {g : Gateway}

theorem heartbeat_of_leaseFresh {lag : ℕ} {unit holder : String} (h : g.LeaseFresh lag unit holder)
    (lookup : UnitLookup) :
    (g.manager.heartbeat unit (g.now + lag) (some holder) lookup).2.isSome = true := by
  obtain ⟨s, hget, hh, hst⟩ := h
  unfold SessionManager.heartbeat
  simp [hget, hh, hst]

/-- With a fresh lease, `renew_lease` answers whether the relay's row is live. -/
theorem renewLease_iff {lag : ℕ} {unit holder : String} {r : RefreshRow} (hr : r ∈ g.tokens.rows)
    (h : g.LeaseFresh lag unit holder) (lookup : UnitLookup) :
    (g.renewLease lag unit holder (some r.id) lookup).2 = true ↔ r.Live g.now := by
  rw [← AuthStore.liveRefresh_ne_none hr]
  unfold renewLease
  by_cases hn : g.tokens.liveRefresh r.id g.now = none
  · simp [hn]
  · simp [hn, heartbeat_of_leaseFresh h]

theorem relayOutlives_iff (hC : g.tokens.Chained) (a : Action) :
    g.RelayOutlives a ↔ g.NotRenewed a := by
  cases a with
  | renewLease lag unit holder refreshId lookup =>
    cases refreshId with
    | none => exact Iff.rfl
    | some id =>
      refine forall_congr' fun hlive => forall_congr' fun hfresh => ?_
      obtain ⟨r, hr, rfl⟩ := AuthStore.exists_of_familyLive hlive
      rw [renewLease_iff hr hfresh, hC.live_iff_newest hr hlive]
      constructor
      · intro h r' hr' hid
        rwa [AuthStore.eq_of_id hr' hr hid]
      · exact fun h => h r hr rfl
  | _ => exact Iff.rfl

theorem chained_step {g : Gateway} (a : Action) (h : g.tokens.Chained) :
    (g.step a).tokens.Chained := by
  cases a with
  | tokens op => exact h.call g.now op
  | _ => exact h

/-- In every run, every relay outlives what renewals there are if and only if there are none at
any of its heartbeats. -/
theorem meets_relayOutlives_iff {tokens : AuthStore} (h : tokens.Reachable)
    (manager : SessionManager) (now : ℤ) (actions : List Action) :
    Run.Meets step RelayOutlives ⟨tokens, manager, now⟩ actions
      ↔ Run.Meets step NotRenewed ⟨tokens, manager, now⟩ actions :=
  Run.meets_congr (I := fun g : Gateway => g.tokens.Chained) (fun _ a => chained_step a)
    (fun _ a hC => relayOutlives_iff hC a) actions h.chained

def screens : SessionManager := .opened "remote" "localabstract:scrcpy" "screen" true

def attached : UnitLookup := ⟨some (some "serial-1"), some [⟨"serial-1", true⟩]⟩

def openScreen : Action :=
  .manager (.acquire "lisa01" "phone"
    ⟨attached, attached, ⟨7, by decide⟩, some "40001", true, true, none⟩)

def beat : Action := .renewLease 0 "lisa01" "phone" (some 1) attached

theorem meets_relayOutlives_unrenewed :
    Run.Meets step RelayOutlives ⟨LoginService.loggedIn, screens, 0⟩
      [openScreen, .wait 10, beat, .wait 10, beat] :=
  (meets_relayOutlives_iff LoginService.reachable_loggedIn screens 0 _).2 (by decide +kernel)

/-- The phone renews its token at some point after it has opened the relay. -/
theorem renewal_ends_relay : ¬ ∀ (tokens : AuthStore), tokens.Reachable →
    ∀ (manager : SessionManager) (now : ℤ) (actions : List Action),
      Run.Meets step RelayOutlives ⟨tokens, manager, now⟩ actions := fun h =>
  absurd (h LoginService.loggedIn LoginService.reachable_loggedIn screens 0
    [openScreen, .wait 10, beat, .tokens (.rotateRefresh "first" "second" 3600), .wait 10, beat])
    (by decide +kernel)

end Gateway

end Rackphone
