import Rackphone.Proofs.AuthStore

/-!
# The end of a login

A family without a live row stays without one: a renewal needs a live row to begin with, and a new
login is a new family. A revocation or a logout makes it so where the row it names is the newest
of the family; a row that has been renewed away is revoked already, and then neither does anything.
-/

namespace Rackphone

namespace AuthStore

variable {s s' : AuthStore} {r : RefreshRow} {now t : ℤ} {f : ℕ}

theorem NoLive.mono (h : s.NoLive f now) (hle : now ≤ t) : s.NoLive f t :=
  fun r hr hf hl => h r hr hf (hl.mono hle)

theorem live_of_assign {a : Assignment} {p : RefreshRow → Prop} [DecidablePred p]
    (h : (assign a p r).Live now) : r.Live now :=
  ⟨unrevoked_of_assign h.1, by simpa using h.2⟩

theorem NoLive.update (h : s.NoLive f now) (a : Assignment) (p : RefreshRow → Prop)
    [DecidablePred p] : (s.update a p).NoLive f now := by
  intro r' hr' hf hl
  obtain ⟨r, hr, rfl⟩ := mem_update.1 hr'
  exact h r hr (by simpa using hf) (live_of_assign hl)

theorem NoLive.insert (h : s.NoLive f now) {tokenHash deviceLabel scope : String} {ttl : ℤ}
    {familyId : Option ℕ} {id : ℕ}
    (hins : s.insert tokenHash deviceLabel scope now ttl familyId = .ok (s', id))
    (hf : familyId.getD s.nextId ≠ f) : s'.NoLive f now := by
  obtain ⟨hrows, -, -⟩ := insert_eq_ok hins
  intro r hr hrf
  rw [hrows] at hr
  rcases List.mem_append.1 hr with hr | hr
  · exact h r hr hrf
  · rw [List.mem_singleton.1 hr] at hrf
    exact absurd hrf hf

/-- A store where the family is there and over. -/
structure FamilyOver (s : AuthStore) (f : ℕ) (now : ℤ) : Prop where
  chained : s.Chained
  known : ∃ r ∈ s.rows, r.family = f
  noLive : s.NoLive f now

namespace FamilyOver

theorem lt_nextId (h : FamilyOver s f now) : f < s.nextId := by
  obtain ⟨r, hr, rfl⟩ := h.known
  exact (h.chained.family_le r hr).trans_lt (AuthStore.lt_nextId hr)

theorem update (h : FamilyOver s f now) (a : Assignment) (p : RefreshRow → Prop)
    [DecidablePred p] : FamilyOver (s.update a p) f now where
  chained := h.chained.update a p
  known := by
    obtain ⟨r, hr, hf⟩ := h.known
    exact ⟨_, mem_update_of_mem hr, by simpa using hf⟩
  noLive := h.noLive.update a p

theorem known_insert (h : ∃ r ∈ s.rows, r.family = f) {tokenHash deviceLabel scope : String}
    {ttl : ℤ} {familyId : Option ℕ} {id : ℕ}
    (hins : s.insert tokenHash deviceLabel scope now ttl familyId = .ok (s', id)) :
    ∃ r ∈ s'.rows, r.family = f := by
  obtain ⟨r, hr, hf⟩ := h
  exact ⟨r, (insert_eq_ok hins).1 ▸ List.mem_append_left _ hr, hf⟩

theorem issue (h : FamilyOver s f now) {tokenHash deviceLabel scope : String} {ttl : ℤ} {id : ℕ}
    (hins : s.issueRefresh tokenHash deviceLabel scope now ttl = .ok (s', id)) :
    FamilyOver s' f now :=
  ⟨h.chained.issue hins, known_insert h.known hins, h.noLive.insert hins h.lt_nextId.ne'⟩

theorem rotate (h : FamilyOver s f now) {oldHash newHash : String} {ttl : ℤ} {id : Option ℕ}
    (hrot : s.rotateRefresh oldHash newHash now ttl = .ok (s', id)) : FamilyOver s' f now := by
  have hC := h.chained.rotate hrot
  rcases rotateRefresh_eq_ok hrot with ⟨-, rfl, -⟩ | ⟨row, i, hrow, hins, -⟩
  · exact h
  · -- the row that is renewed is live, so it is of another family
    obtain ⟨hr, -, hlive⟩ := selectLive_eq_some.1 hrow
    have hU := h.update (.revokedAt now) fun r => r.id = row.id
    refine ⟨hC, known_insert hU.known hins, hU.noLive.insert hins fun hf => ?_⟩
    rw [Option.getD_some, RefreshRow.familyOrId_eq (h.chained.family_pos row hr)] at hf
    exact h.noLive row hr hf hlive

theorem resolve (h : FamilyOver s f now) (tokenHash : String) :
    FamilyOver (s.resolveRefresh tokenHash now).1 f now := by
  unfold resolveRefresh
  cases s.selectLive tokenHash now with
  | none => exact h
  | some row => exact h.update _ _

theorem call (h : FamilyOver s f now) (op : Op) : FamilyOver (s.call now op) f now := by
  unfold AuthStore.call
  cases op with
  | issueRefresh tokenHash deviceLabel scope ttl =>
    rcases hins : s.issueRefresh tokenHash deviceLabel scope now ttl with e | ⟨s', id⟩
    · simpa only [hins] using h
    · simpa only [hins] using h.issue hins
  | resolveRefresh tokenHash => exact h.resolve tokenHash
  | rotateRefresh oldHash newHash ttl =>
    rcases hrot : s.rotateRefresh oldHash newHash now ttl with e | ⟨s', id⟩
    · simpa only [hrot] using h
    · simpa only [hrot] using h.rotate hrot
  | revokeRefresh tokenId => exact h.update _ _
  | revokeAll => exact h.update _ _

theorem wait (h : FamilyOver s f now) (elapsed : ℕ) : FamilyOver s f (now + elapsed) :=
  ⟨h.chained, h.known, h.noLive.mono (Int.le_add_of_nonneg_right (Int.natCast_nonneg _))⟩

theorem step {m : Moment} (h : FamilyOver m.store f m.now) (a : ℕ × Op) :
    FamilyOver (AuthStore.step m a).store f (AuthStore.step m a).now :=
  (h.wait a.1).call a.2

end FamilyOver

/-- Once the newest row of a family is revoked, no row of it is left. -/
theorem Chained.noLive_revokeRefresh (hC : s.Chained) (hr : r ∈ s.rows) (hnew : s.Newest r) :
    (s.revokeRefresh r.id t).1.NoLive r.family now := by
  intro r' hr' hf hl
  obtain ⟨r₀, hr₀, rfl⟩ := mem_update.1 hr'
  have hu := unrevoked_assign_revokedAt.1 hl.1
  rw [family_assign] at hf
  have hid : r₀.id = r.id :=
    le_antisymm (hnew r₀ hr₀ hf) (hC.newest r₀ hr₀ hu.1 r hr hf.symm)
  exact hu.2 ⟨hid, hu.1⟩

theorem revokeRefresh_of_revoked (hr : r ∈ s.rows) (hu : r.revokedAt ≠ none) :
    (s.revokeRefresh r.id t).1.rows = s.rows := by
  refine (List.map_congr_left fun r' hr' => ?_).trans (List.map_id _)
  refine if_neg fun h => hu ?_
  rw [← eq_of_id hr' hr h.1]
  exact h.2

end AuthStore

namespace LoginService

open AuthStore

variable (L : LoginService)

/-- The login is over: no row of the family is live, no refresh with a token of it succeeds and
`family_live` is false for all its ids, now and at any later time. -/
def Ended (f : ℕ) (m : Moment) : Prop :=
  ∀ t, m.now ≤ t → ∀ r ∈ m.store.rows, r.family = f → ¬ r.Live t
    ∧ (∀ refreshToken replacement, L.hashToken refreshToken = r.tokenHash →
        (L.refresh m.store refreshToken replacement t).2 = .ok (.error .badCredentials))
    ∧ m.store.familyLive r.id t = false

/-- It is over now and stays so, whatever is called later. -/
def Ends (f : ℕ) (m : Moment) : Prop := ∀ later, Run.Always step (L.Ended f) m later

variable {L} {s : AuthStore} {r : RefreshRow} {now : ℤ} {f : ℕ}

theorem refresh_of_not_live {refreshToken replacement : String} (hr : r ∈ s.rows)
    (hh : L.hashToken refreshToken = r.tokenHash) (hl : ¬ r.Live now) :
    (L.refresh s refreshToken replacement now).2 = .ok (.error .badCredentials) := by
  have hnone : s.selectLive (L.hashToken refreshToken) now = none :=
    selectLive_eq_none.2 fun r' hr' hh' => eq_of_tokenHash hr' hr (hh'.trans hh) ▸ hl
  simp [refresh, resolveRefresh, hnone]

theorem ended_of_familyOver {m : Moment} (h : FamilyOver m.store f m.now) : L.Ended f m := by
  intro t ht r hr hf
  have hno := h.noLive.mono ht
  refine ⟨hno r hr hf, fun _ _ hh => refresh_of_not_live hr hh (hno r hr hf), ?_⟩
  rw [← Bool.not_eq_true, familyLive_iff hr]
  rintro ⟨r', hr', hf', hl⟩
  exact hno r' hr' (hf'.trans hf) hl

theorem ends_of_familyOver {m : Moment} (h : FamilyOver m.store f m.now) : L.Ends f m :=
  fun later => Run.always_of_invariant (I := fun m => FamilyOver m.store f m.now)
    (fun _ => ended_of_familyOver) (fun _ a h => h.step a) later h

theorem noLive_of_ends {m : Moment} (h : L.Ends f m) : m.store.NoLive f m.now :=
  fun r hr hf => ((h []) m.now le_rfl r hr hf).1

theorem logOut_cases (L : LoginService) (s : AuthStore) (refreshToken : String) (now : ℤ) :
    s.selectLive (L.hashToken refreshToken) now = none ∧ (L.logOut s refreshToken now).1 = s ∨
      ∃ row, s.selectLive (L.hashToken refreshToken) now = some row
        ∧ (L.logOut s refreshToken now).1
          = ((s.touch row.id now).revokeRefresh row.id now).1 := by
  unfold logOut resolveRefresh
  rcases s.selectLive (L.hashToken refreshToken) now with _ | row
  · exact .inl ⟨rfl, rfl⟩
  · exact .inr ⟨row, rfl, rfl⟩

theorem ends_iff {s' : AuthStore} (hC : s.Chained) (hr : r ∈ s.rows)
    (hnew : s.Newest r → FamilyOver s' r.family now)
    (hno : s.NoLive r.family now → FamilyOver s' r.family now)
    (hsame : r.revokedAt ≠ none → s'.rows = s.rows) :
    L.Ends r.family ⟨s', now⟩ ↔ s.Newest r ∨ s.NoLive r.family now := by
  constructor
  · intro h
    by_contra hn
    rw [not_or] at hn
    have hrows := hsame fun hu => hn.1 (hC.newest r hr hu)
    exact hn.2 fun r' hr' => noLive_of_ends h r' (hrows ▸ hr')
  · rintro (h | h)
    · exact ends_of_familyOver (hnew h)
    · exact ends_of_familyOver (hno h)

theorem ends_revokeRefresh_iff (hC : s.Chained) (hr : r ∈ s.rows) :
    L.Ends r.family ⟨(s.revokeRefresh r.id now).1, now⟩ ↔
      s.Newest r ∨ s.NoLive r.family now := by
  refine ends_iff hC hr (fun hnew => ?_) (fun hno => ?_)
    (revokeRefresh_of_revoked hr)
  · exact ⟨hC.update _ _, ⟨_, mem_update_of_mem hr, family_assign r⟩,
      hC.noLive_revokeRefresh hr hnew⟩
  · exact FamilyOver.update ⟨hC, ⟨r, hr, rfl⟩, hno⟩ _ _

theorem ends_logOut_iff (hC : s.Chained) (hr : r ∈ s.rows) {refreshToken : String}
    (hh : L.hashToken refreshToken = r.tokenHash) :
    L.Ends r.family ⟨(L.logOut s refreshToken now).1, now⟩ ↔
      s.Newest r ∨ s.NoLive r.family now := by
  rcases logOut_cases L s refreshToken now with ⟨hnone, hsame⟩ | ⟨row, hrow, hsame⟩
  · -- the token is not live: the family is over if it is the newest
    have hl := selectLive_eq_none.1 hnone r hr hh.symm
    have hno : s.Newest r → s.NoLive r.family now := by
      intro hnew r' hr' hf hl'
      have hid := le_antisymm (hnew r' hr' hf) (hC.newest r' hr' hl'.1 r hr hf.symm)
      exact hl (eq_of_id hr' hr hid ▸ hl')
    rw [hsame]
    exact ends_iff hC hr (fun h => ⟨hC, ⟨r, hr, rfl⟩, hno h⟩) (fun h => ⟨hC, ⟨r, hr, rfl⟩, h⟩)
      fun _ => rfl
  · obtain ⟨hmem, hrh, hl⟩ := selectLive_eq_some.1 hrow
    obtain rfl := eq_of_tokenHash hmem hr (hrh.trans hh)
    rw [hsame]
    have hT : (s.touch row.id now).Chained := hC.update _ _
    have hrT : assign (.lastSeen now) (fun r => r.id = row.id) row ∈ (s.touch row.id now).rows :=
      mem_update_of_mem hr
    have hover : FamilyOver ((s.touch row.id now).revokeRefresh row.id now).1 row.family now := by
      refine ⟨hT.update _ _, ⟨_, mem_update_of_mem hrT, by simp⟩, ?_⟩
      have hno : ((s.touch row.id now).revokeRefresh _ now).1.NoLive _ now :=
        hT.noLive_revokeRefresh hrT (hT.newest _ hrT (by simpa using hl.1))
      simpa using hno
    exact ends_iff hC hr (fun _ => hover) (fun _ => hover) fun hu => absurd hl.1 hu

/-- A revocation of a row, or a logout with its token, ends the login if and only if the row is
the newest of its family or nothing in the family is live. -/
theorem revoke_and_logOut_end_iff (L : LoginService) {s : AuthStore} (h : s.Reachable)
    {r : RefreshRow} (hr : r ∈ s.rows) (now : ℤ) :
    (L.Ends r.family ⟨(s.revokeRefresh r.id now).1, now⟩ ↔
        s.Newest r ∨ s.NoLive r.family now)
      ∧ ∀ refreshToken, L.hashToken refreshToken = r.tokenHash →
        (L.Ends r.family ⟨(L.logOut s refreshToken now).1, now⟩ ↔
          s.Newest r ∨ s.NoLive r.family now) :=
  ⟨ends_revokeRefresh_iff h.chained hr, fun _ hh => ends_logOut_iff h.chained hr hh⟩

/-- A service that stores its tokens as they are. -/
def plain : LoginService := ⟨fun t => t, 900, 3600⟩

/-- A login's first row, and the table it is alone in. -/
def firstRow : RefreshRow where
  id := 1
  deviceLabel := "phone"
  scope := "admin"
  issuedAt := 0
  expiresAt := 3600
  lastSeen := 0
  revokedAt := none
  tokenHash := "first"
  familyId := none

def loggedIn : AuthStore :=
  (Run.final step ⟨.empty, 0⟩ [(0, .issueRefresh "first" "phone" "admin" 3600)]).store

theorem reachable_loggedIn : loggedIn.Reachable := ⟨0, _, rfl⟩

theorem firstRow_mem : firstRow ∈ loggedIn.rows := by decide

theorem hash_firstRow : firstRow.tokenHash = plain.hashToken "first" := rfl

theorem logOut_first_ends : plain.Ends 1 ⟨(plain.logOut loggedIn "first" 60).1, 60⟩ :=
  ((revoke_and_logOut_end_iff plain reachable_loggedIn firstRow_mem 60).2 "first" rfl).2
    (.inl (by unfold Newest; decide))

def renewedOnce : AuthStore :=
  (Run.final step ⟨.empty, 0⟩ [(0, .issueRefresh "first" "phone" "admin" 3600),
    (60, .rotateRefresh "first" "second" 3600)]).store

/-- Its first row and its first token are of the family, and neither ends it. -/
theorem renewed_survives : renewedOnce.Reachable ∧ renewedOnce.familyOf 1 = some 1
    ∧ (renewedOnce.rows.find? fun r => r.tokenHash = "first").map (fun r => r.id) = some 1
    ∧ ¬ plain.Ends 1 ⟨(renewedOnce.revokeRefresh 1 120).1, 120⟩
    ∧ ¬ plain.Ends 1 ⟨(plain.logOut renewedOnce "first" 120).1, 120⟩ := by
  refine ⟨⟨0, _, rfl⟩, by decide, by decide, fun h => ?_, fun h => ?_⟩
  · exact absurd (noLive_of_ends h) (by unfold NoLive; decide)
  · exact absurd (noLive_of_ends h) (by unfold NoLive; decide)

end LoginService

end Rackphone
