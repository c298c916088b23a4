import Rackphone.Login

/-!
# Families are chains

A renewal revokes the row it selected and puts the next one on top of the family, so in a store
that only the methods have changed every unrevoked row is the newest of its family: a family has
at most one, and it is live or nothing in the family is. The rows below it stay revoked.
-/

namespace Rackphone

namespace RefreshRow

theorem familyOrId_eq {r : RefreshRow} (h : 0 < r.family) : r.familyOrId = r.family := by
  unfold familyOrId family at *
  rcases hf : r.familyId with _ | _ | f
  · rfl
  · simp [hf] at h
  · rfl

theorem Live.mono {r : RefreshRow} {now t : ℤ} (h : r.Live t) (hle : now ≤ t) : r.Live now :=
  ⟨h.1, hle.trans_lt h.2⟩

end RefreshRow

namespace AuthStore

variable {s s' : AuthStore} {r r' : RefreshRow} {now : ℤ}

theorem eq_of_id (hr : r ∈ s.rows) (hr' : r' ∈ s.rows) (h : r.id = r'.id) : r = r' :=
  s.ids_lt.eq_of_id hr hr' h

theorem eq_of_tokenHash (hr : r ∈ s.rows) (hr' : r' ∈ s.rows) (h : r.tokenHash = r'.tokenHash) :
    r = r' :=
  List.inj_on_of_nodup_map s.hashes_nodup hr hr' h

theorem lt_nextId (hr : r ∈ s.rows) : r.id < s.nextId :=
  Nat.lt_succ_of_le (@Table.le_maxId _ (fun r : RefreshRow => r.id) _ _ hr)

section Update

variable {a : Assignment} {p : RefreshRow → Prop} [DecidablePred p]

@[simp] theorem family_assign (r : RefreshRow) : (assign a p r).family = r.family := by
  simp [RefreshRow.family]

theorem mem_update : r ∈ (s.update a p).rows ↔ ∃ r₀ ∈ s.rows, assign a p r₀ = r := List.mem_map

theorem mem_update_of_mem (hr : r ∈ s.rows) : assign a p r ∈ (s.update a p).rows :=
  List.mem_map_of_mem hr

theorem unrevoked_of_assign (h : (assign a p r).revokedAt = none) : r.revokedAt = none := by
  unfold assign at h
  split_ifs at h
  · exact a.unrevoked_of_apply r h
  · exact h

theorem unrevoked_assign_revokedAt {t : ℤ} :
    (assign (.revokedAt t) p r).revokedAt = none ↔ r.revokedAt = none ∧ ¬ p r := by
  unfold assign
  split_ifs with h <;> simp [Assignment.revokedAt, h]

@[simp] theorem revokedAt_assign_lastSeen {t : ℤ} :
    (assign (.lastSeen t) p r).revokedAt = r.revokedAt := by
  unfold assign
  split_ifs <;> rfl

@[simp] theorem nextId_update : (s.update a p).nextId = s.nextId :=
  congrArg (· + 1) (Table.maxId_map (id_assign a p) s.rows)

@[simp] theorem hashes_update : (s.update a p).hashes = s.hashes := by
  unfold hashes update
  rw [List.map_map]
  exact List.map_congr_left fun r _ => tokenHash_assign a p r

end Update

theorem selectLive_eq_some {tokenHash : String} :
    s.selectLive tokenHash now = some r ↔ r ∈ s.rows ∧ r.tokenHash = tokenHash ∧ r.Live now :=
  Table.find?_eq_some_iff fun _ hr _ hr' h h' => eq_of_tokenHash hr hr' (h.1.trans h'.1.symm)

theorem selectLive_eq_none {tokenHash : String} :
    s.selectLive tokenHash now = none ↔ ∀ r ∈ s.rows, r.tokenHash = tokenHash → ¬ r.Live now := by
  simp [selectLive]

theorem find?_id_eq_some {p : RefreshRow → Prop} [DecidablePred p] {tokenId : ℕ} :
    s.rows.find? (fun r => r.id = tokenId ∧ p r) = some r ↔
      r ∈ s.rows ∧ r.id = tokenId ∧ p r :=
  Table.find?_eq_some_iff fun _ hr _ hr' h h' => eq_of_id hr hr' (h.1.trans h'.1.symm)

theorem familyOf_id (hr : r ∈ s.rows) : s.familyOf r.id = some r.family := by
  have h : s.rows.find? (fun r' => r'.id = r.id) = some r :=
    (Table.find?_eq_some_iff fun _ ha _ hb h h' => eq_of_id ha hb (h.trans h'.symm)).2 ⟨hr, rfl⟩
  rw [familyOf, h, Option.map_some]

theorem familyLive_iff (hr : r ∈ s.rows) :
    s.familyLive r.id now = true ↔ ∃ r' ∈ s.rows, r'.family = r.family ∧ r'.Live now := by
  unfold familyLive
  rw [List.any_eq_true, familyOf_id hr]
  simp only [Option.some.injEq, decide_eq_true_eq]
  exact exists_congr fun r' => and_congr_right fun _ => and_congr_left fun _ => eq_comm

theorem mem_unrevoked {f : ℕ} :
    r ∈ s.unrevoked f ↔ r ∈ s.rows ∧ r.family = f ∧ r.revokedAt = none := by
  simp [unrevoked]

theorem insert_eq_ok {tokenHash deviceLabel scope : String} {ttl : ℤ} {familyId : Option ℕ}
    {id : ℕ} (h : s.insert tokenHash deviceLabel scope now ttl familyId = .ok (s', id)) :
    s'.rows = s.rows ++ [s.newRow tokenHash deviceLabel scope now ttl familyId] ∧ id = s.nextId
      ∧ tokenHash ∉ s.hashes := by
  unfold insert at h
  split_ifs at h with hh
  obtain ⟨rfl, rfl⟩ := Prod.mk.inj (Except.ok.inj h)
  exact ⟨rfl, rfl, hh⟩

/-- A renewal that does not raise found no live row or superseded the one it found. -/
theorem rotateRefresh_eq_ok {oldHash newHash : String} {ttl : ℤ} {id : Option ℕ}
    (h : s.rotateRefresh oldHash newHash now ttl = .ok (s', id)) :
    (s.selectLive oldHash now = none ∧ s' = s ∧ id = none) ∨
      ∃ row i, s.selectLive oldHash now = some row
        ∧ (s.supersede row.id now).insertSuccessor row newHash now ttl = .ok (s', i)
        ∧ id = some i := by
  unfold rotateRefresh at h
  rcases hrow : s.selectLive oldHash now with _ | row
  · simp only [hrow, Except.ok.injEq, Prod.mk.injEq] at h
    exact .inl ⟨rfl, h.1.symm, h.2.symm⟩
  · simp only [hrow] at h
    rcases hins : (s.supersede row.id now).insertSuccessor row newHash now ttl with e | ⟨s₁, i⟩
    · simp [hins] at h
    · simp only [hins, Except.ok.injEq, Prod.mk.injEq] at h
      obtain ⟨rfl, rfl⟩ := h
      exact .inr ⟨row, i, rfl, hins, rfl⟩

/-- The row is still in the table, whatever has been set in it. -/
def Persists (r : RefreshRow) (s : AuthStore) : Prop :=
  ∃ r' ∈ s.rows, r'.id = r.id ∧ r'.tokenHash = r.tokenHash ∧ r'.family = r.family

theorem Persists.update (h : Persists r s) (a : Assignment) (p : RefreshRow → Prop)
    [DecidablePred p] : Persists r (s.update a p) := by
  obtain ⟨r', hr', hid, hh, hf⟩ := h
  exact ⟨_, mem_update_of_mem hr', by simpa using hid, by simpa using hh, by simpa using hf⟩

theorem Persists.insert (h : Persists r s) {tokenHash deviceLabel scope : String} {ttl : ℤ}
    {familyId : Option ℕ} {id : ℕ}
    (hins : s.insert tokenHash deviceLabel scope now ttl familyId = .ok (s', id)) :
    Persists r s' := by
  obtain ⟨r', hr', hsame⟩ := h
  exact ⟨r', (insert_eq_ok hins).1 ▸ List.mem_append_left _ hr', hsame⟩

theorem Persists.resolve (h : Persists r s) (tokenHash : String) (t : ℤ) :
    Persists r (s.resolveRefresh tokenHash t).1 := by
  unfold resolveRefresh
  cases s.selectLive tokenHash t with
  | none => exact h
  | some row => exact h.update _ _

theorem Persists.rotate (h : Persists r s) {oldHash newHash : String} {t ttl : ℤ} {id : Option ℕ}
    (hrot : s.rotateRefresh oldHash newHash t ttl = .ok (s', id)) : Persists r s' := by
  rcases rotateRefresh_eq_ok hrot with ⟨-, rfl, -⟩ | ⟨row, i, -, hins, -⟩
  · exact h
  · exact (h.update (.revokedAt t) fun r => r.id = row.id).insert hins

/-- No call takes a row out of the table. -/
theorem persists_call (hr : r ∈ s.rows) (t : ℤ) (op : Op) : Persists r (s.call t op) := by
  have h : Persists r s := ⟨r, hr, rfl, rfl, rfl⟩
  unfold AuthStore.call
  cases op with
  | issueRefresh tokenHash deviceLabel scope ttl =>
    rcases hins : s.issueRefresh tokenHash deviceLabel scope t ttl with e | ⟨s', id⟩
    · simpa only [hins] using h
    · simpa only [hins] using h.insert hins
  | resolveRefresh tokenHash => exact h.resolve tokenHash t
  | rotateRefresh oldHash newHash ttl =>
    rcases hrot : s.rotateRefresh oldHash newHash t ttl with e | ⟨s', id⟩
    · simpa only [hrot] using h
    · simpa only [hrot] using h.rotate hrot
  | revokeRefresh tokenId => exact h.update _ _
  | revokeAll => exact h.update _ _

/-- What a family of a store is that only the methods have changed. -/
structure Chained (s : AuthStore) : Prop where
  family_pos : ∀ r ∈ s.rows, 0 < r.family
  family_le : ∀ r ∈ s.rows, r.family ≤ r.id
  newest : ∀ r ∈ s.rows, r.revokedAt = none → s.Newest r

theorem chained_empty : Chained empty :=
  ⟨fun _ h => by simp [empty] at h, fun _ h => by simp [empty] at h,
    fun _ h => by simp [empty] at h⟩

namespace Chained

theorem eq_of_unrevoked (hC : Chained s) (hr : r ∈ s.rows) (hr' : r' ∈ s.rows)
    (hf : r'.family = r.family) (hu : r.revokedAt = none) (hu' : r'.revokedAt = none) : r = r' :=
  eq_of_id hr hr' (le_antisymm (hC.newest r' hr' hu' r hr hf.symm) (hC.newest r hr hu r' hr' hf))

theorem length_unrevoked (hC : Chained s) (f : ℕ) : (s.unrevoked f).length ≤ 1 := by
  refine Table.length_le_one (s.ids_lt.nodup.filter _) fun r hr r' hr' => ?_
  obtain ⟨hmem, hf, hu⟩ := mem_unrevoked.1 hr
  obtain ⟨hmem', hf', hu'⟩ := mem_unrevoked.1 hr'
  exact hC.eq_of_unrevoked hmem hmem' (hf'.trans hf.symm) hu hu'

theorem unrevoked_eq (hC : Chained s) (hr : r ∈ s.rows) (hu : r.revokedAt = none) :
    s.unrevoked r.family = [r] := by
  have hmem : r ∈ s.unrevoked r.family := mem_unrevoked.2 ⟨hr, rfl, hu⟩
  have hle := hC.length_unrevoked r.family
  rcases h : s.unrevoked r.family with _ | ⟨r', _ | ⟨r'', l⟩⟩
  · simp [h] at hmem
  · rw [h] at hmem
    rw [List.mem_singleton.1 hmem]
  · simp [h] at hle

theorem update (hC : Chained s) (a : Assignment) (p : RefreshRow → Prop) [DecidablePred p] :
    Chained (s.update a p) where
  family_pos r' hr' := by
    obtain ⟨r, hr, rfl⟩ := mem_update.1 hr'
    simpa using hC.family_pos r hr
  family_le r' hr' := by
    obtain ⟨r, hr, rfl⟩ := mem_update.1 hr'
    simpa using hC.family_le r hr
  newest r₁ hr₁ hu r₂ hr₂ hf := by
    obtain ⟨r, hr, rfl⟩ := mem_update.1 hr₁
    obtain ⟨r', hr', rfl⟩ := mem_update.1 hr₂
    simpa using hC.newest r hr (unrevoked_of_assign hu) r' hr' (by simpa using hf)

/-- A new row goes on top of a family that has no unrevoked row. -/
theorem insert (hC : Chained s) {tokenHash deviceLabel scope : String} {ttl : ℤ}
    {familyId : Option ℕ} {id : ℕ}
    (h : s.insert tokenHash deviceLabel scope now ttl familyId = .ok (s', id))
    (hpos : 0 < familyId.getD s.nextId) (hle : familyId.getD s.nextId ≤ s.nextId)
    (hrev : ∀ r ∈ s.rows, r.family = familyId.getD s.nextId → r.revokedAt ≠ none) :
    Chained s' := by
  obtain ⟨hrows, -, -⟩ := insert_eq_ok h
  have hmem : ∀ r, r ∈ s'.rows ↔
      r ∈ s.rows ∨ r = s.newRow tokenHash deviceLabel scope now ttl familyId := by
    intro r
    rw [hrows, List.mem_append, List.mem_singleton]
  refine ⟨fun r hr => ?_, fun r hr => ?_, fun r hr hu r' hr' hf => ?_⟩
  · rcases (hmem r).1 hr with hr | rfl
    · exact hC.family_pos r hr
    · exact hpos
  · rcases (hmem r).1 hr with hr | rfl
    · exact hC.family_le r hr
    · exact hle
  · rcases (hmem r').1 hr' with hr' | rfl
    · rcases (hmem r).1 hr with hr | rfl
      · exact hC.newest r hr hu r' hr' hf
      · exact (lt_nextId hr').le
    · rcases (hmem r).1 hr with hr | rfl
      · exact absurd hu (hrev r hr hf.symm)
      · exact le_rfl

theorem issue (hC : Chained s) {tokenHash deviceLabel scope : String} {ttl : ℤ} {id : ℕ}
    (h : s.issueRefresh tokenHash deviceLabel scope now ttl = .ok (s', id)) : Chained s' := by
  refine hC.insert h (Nat.succ_pos _) le_rfl fun r hr hf => ?_
  have hle := hC.family_le r hr
  have hlt := lt_nextId hr
  rw [Option.getD_none] at hf
  omega

/-- The row selected was the one unrevoked row of its family; superseding it leaves none. -/
theorem revoked_of_supersede (hC : Chained s) (hr : r ∈ s.rows) (hu : r.revokedAt = none) (t : ℤ) :
    ∀ r' ∈ (s.supersede r.id t).rows, r'.family = r.family → r'.revokedAt ≠ none := by
  intro r₁ hr₁ hf hu'
  obtain ⟨r', hr', rfl⟩ := mem_update.1 hr₁
  rw [unrevoked_assign_revokedAt] at hu'
  rw [family_assign] at hf
  exact hu'.2 (congrArg (·.id) (hC.eq_of_unrevoked hr hr' hf hu hu'.1).symm)

theorem insertSuccessor (hC : Chained s) {t ttl : ℤ} {newHash : String} {id : ℕ}
    (hr : r ∈ s.rows) (hu : r.revokedAt = none)
    (h : (s.supersede r.id t).insertSuccessor r newHash now ttl = .ok (s', id)) :
    Chained s' := by
  have hfam := RefreshRow.familyOrId_eq (hC.family_pos r hr)
  unfold AuthStore.insertSuccessor at h
  rw [hfam] at h
  refine (hC.update _ _).insert h (hC.family_pos r hr) ?_ (hC.revoked_of_supersede hr hu t)
  rw [nextId_update]
  exact (hC.family_le r hr).trans (lt_nextId hr).le

theorem resolve (hC : Chained s) (tokenHash : String) (t : ℤ) :
    Chained (s.resolveRefresh tokenHash t).1 := by
  unfold resolveRefresh
  cases s.selectLive tokenHash t with
  | none => exact hC
  | some row => exact hC.update _ _

theorem rotate (hC : Chained s) {oldHash newHash : String} {t ttl : ℤ} {id : Option ℕ}
    (h : s.rotateRefresh oldHash newHash t ttl = .ok (s', id)) : Chained s' := by
  rcases rotateRefresh_eq_ok h with ⟨-, rfl, -⟩ | ⟨row, i, hrow, hins, -⟩
  · exact hC
  · obtain ⟨hr, -, hlive⟩ := selectLive_eq_some.1 hrow
    exact hC.insertSuccessor hr hlive.1 hins

theorem call (hC : Chained s) (t : ℤ) (op : Op) : Chained (s.call t op) := by
  unfold AuthStore.call
  cases op with
  | issueRefresh tokenHash deviceLabel scope ttl =>
    rcases h : s.issueRefresh tokenHash deviceLabel scope t ttl with e | ⟨s', id⟩
    · simpa only [h] using hC
    · simpa only [h] using hC.issue h
  | resolveRefresh tokenHash => exact hC.resolve tokenHash t
  | rotateRefresh oldHash newHash ttl =>
    rcases h : s.rotateRefresh oldHash newHash t ttl with e | ⟨s', id⟩
    · simpa only [h] using hC
    · simpa only [h] using hC.rotate h
  | revokeRefresh tokenId => exact hC.update _ _
  | revokeAll => exact hC.update _ _

end Chained

theorem Reachable.chained (h : s.Reachable) : Chained s := by
  obtain ⟨t, calls, rfl⟩ := h
  exact Run.final_of_invariant (I := fun m : Moment => Chained m.store)
    (fun m a hC => hC.call (m.now + a.1) a.2) calls chained_empty

end AuthStore

end Rackphone
