import Rackphone.Families
import Rackphone.Proofs.AuthStore

/-!
# Token families stay well formed

A call updates rows in place, which leaves a row's id, family and expiry and any revocation, or
puts one row on top. The row of a new login starts a family above every other; the row of a
renewal joins the family it was renewed from.
-/

namespace Rackphone

/-- What the calls made on a store may have made of a row. -/
structure RefreshRow.Becomes (r r' : RefreshRow) : Prop where
  id : r'.id = r.id
  family : r'.family = r.family
  expiresAt : r'.expiresAt = r.expiresAt
  unrevoked : r'.revokedAt = none → r.revokedAt = none

namespace RefreshRow.Becomes

variable {r r' r'' : RefreshRow}

theorem refl (r : RefreshRow) : r.Becomes r := ⟨rfl, rfl, rfl, fun hu => hu⟩

theorem trans (h : r.Becomes r') (h' : r'.Becomes r'') : r.Becomes r'' :=
  ⟨h'.id.trans h.id, h'.family.trans h.family, h'.expiresAt.trans h.expiresAt,
    fun hu => h.unrevoked (h'.unrevoked hu)⟩

theorem not_live (h : r.Becomes r') {t t' : ℤ} (hl : ¬ r.Live t) (hle : t ≤ t') : ¬ r'.Live t' :=
  fun hl' => hl ⟨h.unrevoked hl'.1, hle.trans_lt (h.expiresAt ▸ hl'.2)⟩

end RefreshRow.Becomes

namespace AuthStore

variable {s s₁ s' : AuthStore} {r r' new : RefreshRow} {now : ℤ}

/-- A call that puts no row in the table. -/
structure KeepsRows (s s' : AuthStore) : Prop where
  of_mem : ∀ r' ∈ s'.rows, ∃ r ∈ s.rows, r.Becomes r'
  nextId : s'.nextId = s.nextId

/-- A call that puts one row in the table, above the others. -/
structure PutsRow (s s' : AuthStore) (new : RefreshRow) : Prop where
  of_mem : ∀ r' ∈ s'.rows, (∃ r ∈ s.rows, r.Becomes r') ∨ r' = new
  id : new.id = s.nextId
  nextId : s.nextId < s'.nextId

theorem keepsRows_refl (s : AuthStore) : s.KeepsRows s := ⟨fun r hr => ⟨r, hr, .refl r⟩, rfl⟩

theorem keepsRows_update (s : AuthStore) (a : Assignment) (p : RefreshRow → Prop)
    [DecidablePred p] : s.KeepsRows (s.update a p) := by
  refine ⟨fun r' hr' => ?_, nextId_update⟩
  obtain ⟨r, hr, rfl⟩ := mem_update.1 hr'
  exact ⟨r, hr, id_assign a p r, family_assign r, expiresAt_assign a p r, unrevoked_of_assign⟩

theorem putsRow_insert {tokenHash deviceLabel scope : String} {ttl : ℤ} {familyId : Option ℕ}
    {id : ℕ} (hkeep : s.KeepsRows s₁)
    (h : s₁.insert tokenHash deviceLabel scope now ttl familyId = .ok (s', id)) :
    s.PutsRow s' (s₁.newRow tokenHash deviceLabel scope now ttl familyId) := by
  obtain ⟨hrows, -, -⟩ := insert_eq_ok h
  refine ⟨fun r' hr' => ?_, hkeep.nextId, ?_⟩
  · rw [hrows, List.mem_append, List.mem_singleton] at hr'
    exact hr'.imp_left (hkeep.of_mem r')
  · rw [← hkeep.nextId]
    exact lt_nextId (r := s₁.newRow tokenHash deviceLabel scope now ttl familyId) (by simp [hrows])

theorem keepsRows_resolveRefresh (s : AuthStore) (tokenHash : String) (t : ℤ) :
    s.KeepsRows (s.resolveRefresh tokenHash t).1 := by
  unfold resolveRefresh
  cases s.selectLive tokenHash t with
  | none => exact s.keepsRows_refl
  | some row => exact s.keepsRows_update _ _

end AuthStore

namespace Families

open AuthStore

variable {s : Families} {a : ℕ × Op}

/-- What a call does: it puts no row in the table, or the first row of a new login, or a row of
the family it renews. -/
theorem step_cases (hC : s.moment.store.Chained) (a : ℕ × Op) :
    (s.adds (s.moment.now + a.1) a.2 = none
        ∧ s.moment.store.KeepsRows (step s a).moment.store) ∨
      ∃ new login, s.adds (s.moment.now + a.1) a.2 = some (new.id, login)
        ∧ s.moment.store.PutsRow (step s a).moment.store new
        ∧ (new.family = new.id ∧ login = s.logins ∨
          ∃ row ∈ s.moment.store.rows, new.family = row.family ∧ login = s.loginOf row.id) := by
  obtain ⟨elapsed, op⟩ := a
  simp only [step, AuthStore.step, AuthStore.call]
  cases op with
  | issueRefresh tokenHash deviceLabel scope ttl =>
    simp only [adds]
    rcases h : s.moment.store.issueRefresh tokenHash deviceLabel scope (s.moment.now + elapsed) ttl
      with e | ⟨s', id⟩
    · exact .inl ⟨rfl, s.moment.store.keepsRows_refl⟩
    · obtain ⟨-, rfl, -⟩ := insert_eq_ok h
      exact .inr ⟨_, s.logins, rfl, putsRow_insert s.moment.store.keepsRows_refl h, .inl ⟨rfl, rfl⟩⟩
  | resolveRefresh tokenHash => exact .inl ⟨rfl, keepsRows_resolveRefresh _ _ _⟩
  | rotateRefresh oldHash newHash ttl =>
    simp only [adds]
    rcases h : s.moment.store.rotateRefresh oldHash newHash (s.moment.now + elapsed) ttl
      with e | ⟨s', id⟩
    · refine .inl ⟨?_, s.moment.store.keepsRows_refl⟩
      cases s.moment.store.selectLive oldHash (s.moment.now + elapsed) <;> rfl
    · rcases rotateRefresh_eq_ok h with ⟨hnone, rfl, rfl⟩ | ⟨row, i, hrow, hins, rfl⟩
      · rw [hnone]
        exact .inl ⟨rfl, s.moment.store.keepsRows_refl⟩
      · obtain ⟨hr, -, -⟩ := selectLive_eq_some.1 hrow
        obtain ⟨-, rfl, -⟩ := insert_eq_ok hins
        rw [hrow]
        refine .inr ⟨_, s.loginOf row.id, rfl, putsRow_insert (keepsRows_update _ _ _) hins, .inr
          ⟨row, hr, ?_, rfl⟩⟩
        exact RefreshRow.familyOrId_eq (hC.family_pos row hr)
  | revokeRefresh tokenId => exact .inl ⟨rfl, keepsRows_update _ _ _⟩
  | revokeAll => exact .inl ⟨rfl, keepsRows_update _ _ _⟩

structure Inv (s : Families) : Prop where
  chained : s.moment.store.Chained
  apart : Apart s.moment.store s.loginOf
  loginOf_lt : ∀ r ∈ s.moment.store.rows, s.loginOf r.id < s.logins

theorem inv_start (t : ℤ) : (start t).Inv :=
  ⟨chained_empty, (fun _ hr => nomatch hr), (fun _ hr => nomatch hr)⟩

/-- A row the table had keeps its login, and a row's login is the one its call was made for. -/
theorem Inv.step (h : s.Inv) (a : ℕ × Op) : (step s a).Inv := by
  have hC : (Families.step s a).moment.store.Chained := h.chained.call _ _
  rcases step_cases h.chained a with ⟨hadds, hkeep⟩ | ⟨new, login, hadds, hput, hnew⟩
  · have hlogin : (Families.step s a).loginOf = s.loginOf := by simp only [Families.step, hadds]
    have hlogins : (Families.step s a).logins = s.logins := by simp only [Families.step, hadds]
    refine ⟨hC, fun r₁ hr₁ r₂ hr₂ => ?_, fun r₁ hr₁ => ?_⟩
    · obtain ⟨r, hr, hb⟩ := hkeep.of_mem r₁ hr₁
      obtain ⟨r', hr', hb'⟩ := hkeep.of_mem r₂ hr₂
      rw [hlogin, hb.id, hb'.id, hb.family, hb'.family]
      exact h.apart r hr r' hr'
    · obtain ⟨r, hr, hb⟩ := hkeep.of_mem r₁ hr₁
      rw [hlogin, hlogins, hb.id]
      exact h.loginOf_lt r hr
  · have hlogin : (Families.step s a).loginOf = Function.update s.loginOf new.id login := by
      simp only [Families.step, hadds]
    have hlogins : (Families.step s a).logins = max s.logins (login + 1) := by
      simp only [Families.step, hadds]
    have hold : ∀ {r r'}, r ∈ s.moment.store.rows → r.Becomes r' →
        (Families.step s a).loginOf r'.id = s.loginOf r.id := by
      intro r r' hr hb
      have hlt : r.id < new.id := hput.id ▸ lt_nextId hr
      rw [hlogin, hb.id, Function.update_of_ne hlt.ne]
    have hself : (Families.step s a).loginOf new.id = login := by
      rw [hlogin, Function.update_self]
    have hsplit : ∀ r ∈ s.moment.store.rows, r.family = new.family ↔ s.loginOf r.id = login := by
      intro r hr
      rcases hnew with ⟨hfam, rfl⟩ | ⟨row, hrow, hfam, rfl⟩
      · have hlt : r.family < new.family := by
          rw [hfam, hput.id]
          exact (h.chained.family_le r hr).trans_lt (lt_nextId hr)
        exact iff_of_false hlt.ne (h.loginOf_lt r hr).ne
      · rw [hfam]
        exact h.apart r hr row hrow
    refine ⟨hC, fun r₁ hr₁ r₂ hr₂ => ?_, fun r₁ hr₁ => ?_⟩
    · rcases hput.of_mem r₁ hr₁ with ⟨r, hr, hb⟩ | rfl <;>
        rcases hput.of_mem r₂ hr₂ with ⟨r', hr', hb'⟩ | rfl
      · rw [hold hr hb, hold hr' hb', hb.family, hb'.family]
        exact h.apart r hr r' hr'
      · rw [hold hr hb, hself, hb.family]
        exact hsplit r hr
      · rw [hold hr' hb', hself, hb'.family, eq_comm, hsplit r' hr', eq_comm]
      · exact Iff.of_eq (by simp)
    · rw [hlogins]
      rcases hput.of_mem r₁ hr₁ with ⟨r, hr, hb⟩ | rfl
      · rw [hold hr hb]
        exact lt_max_of_lt_left (h.loginOf_lt r hr)
      · rw [hself]
        exact lt_max_of_lt_right (Nat.lt_succ_self login)

theorem Inv.familyLive_iff (h : s.Inv) (id : ℕ) (t : ℤ) :
    s.moment.store.familyLive id t = true ↔
      ∃ r ∈ s.moment.store.rows, r.id = id ∧
        ∃ n ∈ s.moment.store.rows, n.family = r.family ∧ s.moment.store.Newest n ∧ n.Live t := by
  by_cases hid : ∃ r ∈ s.moment.store.rows, r.id = id
  · obtain ⟨r, hr, rfl⟩ := hid
    rw [AuthStore.familyLive_iff hr]
    constructor
    · rintro ⟨n, hn, hf, hl⟩
      exact ⟨r, hr, rfl, n, hn, hf, h.chained.newest n hn hl.1, hl⟩
    · rintro ⟨r', hr', hid, n, hn, hf, -, hl⟩
      rw [eq_of_id hr' hr hid] at hf
      exact ⟨n, hn, hf, hl⟩
  · refine iff_of_false ?_ fun ⟨r, hr, hrid, _⟩ => hid ⟨r, hr, hrid⟩
    have hnone : s.moment.store.familyOf id = none := by
      rw [familyOf, Option.map_eq_none_iff, List.find?_eq_none]
      intro r hr
      simpa using fun hrid => hid ⟨r, hr, hrid⟩
    simp [familyLive, hnone]

theorem Inv.wellFormed (h : s.Inv) : s.WellFormed :=
  ⟨h.chained.length_unrevoked, h.chained.newest, h.apart, h.familyLive_iff⟩

/-- The rows a state has become those of that id in the states to come. -/
theorem Inv.becomes_final (h : s.Inv) {r : RefreshRow} (hr : r ∈ s.moment.store.rows)
    (later : List (ℕ × Op)) : ∀ r' ∈ (Run.final Families.step s later).moment.store.rows,
      r'.id = r.id → r.Becomes r' := by
  let I (s' : Families) : Prop := s'.Inv ∧ r.id < s'.moment.store.nextId
    ∧ ∀ r' ∈ s'.moment.store.rows, r'.id = r.id → r.Becomes r'
  have hinit : I s := by
    refine ⟨h, lt_nextId hr, fun r' hr' hid => ?_⟩
    rw [eq_of_id hr' hr hid]
    exact .refl r
  refine (Run.final_of_invariant (I := I) (fun s' a hI => ?_) later hinit).2.2
  obtain ⟨hinv, hlt, hbec⟩ := hI
  rcases step_cases hinv.chained a with ⟨-, hkeep⟩ | ⟨new, login, -, hput, -⟩
  · refine ⟨hinv.step a, hkeep.nextId ▸ hlt, fun r' hr' hid => ?_⟩
    obtain ⟨r₀, hr₀, hb⟩ := hkeep.of_mem r' hr'
    exact (hbec r₀ hr₀ (hb.id ▸ hid)).trans hb
  · refine ⟨hinv.step a, hlt.trans hput.nextId, fun r' hr' hid => ?_⟩
    rcases hput.of_mem r' hr' with ⟨r₀, hr₀, hb⟩ | rfl
    · exact (hbec r₀ hr₀ (hb.id ▸ hid)).trans hb
    · rw [hput.id] at hid
      exact absurd hid hlt.ne'

theorem Inv.staysDead (h : s.Inv) : s.StaysDead :=
  fun _ hr _ hl later r' hr' hid _ hle => (h.becomes_final hr later r' hr' hid).not_live hl hle

theorem rows_supersede {store : AuthStore} {row : RefreshRow} (hr : row ∈ store.rows) (t : ℤ) :
    (store.supersede row.id t).rows
      = store.rows.map fun r => if r = row then { r with revokedAt := some t } else r := by
  refine List.map_congr_left fun r hr' => ?_
  unfold AuthStore.assign
  by_cases he : r = row
  · rw [if_pos he, if_pos (congrArg (fun r => r.id) he)]
    rfl
  · rw [if_neg he, if_neg fun hid => he (eq_of_id hr' hr hid)]

theorem Inv.rotates (h : s.Inv) (a : ℕ × Op) : s.Rotates a := by
  obtain ⟨elapsed, op⟩ := a
  rintro oldHash newHash ttl rfl
  simp only [Families.step, AuthStore.step, AuthStore.call]
  rcases hrot : s.moment.store.rotateRefresh oldHash newHash (s.moment.now + elapsed) ttl
    with e | ⟨s', id⟩
  · rfl
  · rcases rotateRefresh_eq_ok hrot with ⟨-, rfl, rfl⟩ | ⟨row, i, hrow, hins, rfl⟩
    · rfl
    · obtain ⟨hr, hh, hl⟩ := selectLive_eq_some.1 hrow
      obtain ⟨hrows, rfl, -⟩ := insert_eq_ok hins
      refine ⟨row, hr, hh, hl, fun hmem => ?_, ?_⟩
      · obtain ⟨r, hr', hid⟩ := List.mem_map.1 hmem
        have hlt := lt_nextId hr'
        rw [hid] at hlt
        simp [supersede] at hlt
      · rw [hrows, rows_supersede hr, renewedRows,
          RefreshRow.familyOrId_eq (h.chained.family_pos row hr)]
        rfl

/-- Token families stay well formed, whatever is called and whenever. -/
theorem families_wellFormed (t : ℤ) (calls : List (ℕ × Op)) :
    Run.Always Families.step (fun s => s.WellFormed ∧ s.StaysDead) (start t) calls
      ∧ Run.Meets Families.step Rotates (start t) calls :=
  ⟨Run.always_of_invariant (fun _ h => ⟨h.wellFormed, h.staysDead⟩) (fun _ a h => h.step a) calls
      (inv_start t),
    Run.meets_of_invariant (fun _ a h => h.rotates a) (fun _ a h => h.step a) calls (inv_start t)⟩

end Families

end Rackphone
