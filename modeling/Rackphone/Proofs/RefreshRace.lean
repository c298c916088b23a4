import Rackphone.RefreshRace
import Rackphone.Proofs.Login

/-!
# One successor

As long as no refresh revokes a row that is revoked already, at most one gets past its `UPDATE`:
from there to its `INSERT` the family has no unrevoked row, and after it the successor is the one.
A revocation that takes that row leaves nothing for a later statement to bring back.
-/

namespace Rackphone

namespace AuthStore

def Dead (s : AuthStore) (f : ℕ) : Prop := ∀ r ∈ s.rows, r.family = f → r.revokedAt ≠ none

theorem Dead.update {s : AuthStore} {f : ℕ} (h : s.Dead f) (a : Assignment)
    (p : RefreshRow → Prop) [DecidablePred p] : (s.update a p).Dead f := by
  intro r' hr' hf hu
  obtain ⟨r, hr, rfl⟩ := mem_update.1 hr'
  exact h r hr (by simpa using hf) (unrevoked_of_assign hu)

end AuthStore

namespace RefreshPhase

def replacement : RefreshPhase → Option String
  | resolveSelect t | resolveUpdate t _ | resolveCommit t _ | rotateSelect t _
  | rotateUpdate t _ _ | rotateInsert t _ _ => some t
  | _ => none

def row : RefreshPhase → Option RefreshRow
  | rotateUpdate _ _ row | rotateInsert _ _ row => some row
  | _ => none

def Pending : RefreshPhase → Prop
  | rotateInsert _ _ _ => True
  | _ => False

def Past : RefreshPhase → Prop
  | rotateInsert _ _ _ | rotateCommit _ _ _ | answered _ => True
  | _ => False

theorem Pending.past {p : RefreshPhase} (h : p.Pending) : p.Past := by
  cases p <;> trivial

theorem Answered.past {p : RefreshPhase} (h : p.Answered) : p.Past := by
  cases p <;> trivial

end RefreshPhase

namespace RefreshRequest

variable (q : RefreshRequest)

theorem row_begin : q.begin.row = none := by cases q <;> rfl

theorem revokedRows_begin : q.begin.revokedRows = [] := by cases q <;> rfl

theorem not_past_begin : ¬ q.begin.Past := by cases q <;> exact id

theorem eq_of_replacement_begin {t : String} (h : q.begin.replacement = some t) :
    q = .refresh t := by
  cases q with
  | refresh t' => exact congrArg refresh (Option.some.inj h)
  | revokeRefresh tokenId => cases h
  | revokeAll => cases h

end RefreshRequest

namespace RefreshRace

variable {n : ℕ} (R : RefreshRace n) {s : State n}

@[simp] theorem phases_goto (i j : Fin n) (p : RefreshPhase) :
    (s.goto i p).phases j = if j = i then p else s.phases j := by
  simp [State.goto, Function.update_apply]

@[simp] theorem table_goto (i : Fin n) (p : RefreshPhase) : (s.goto i p).table = s.table := rfl

/-- The row is one the token names, whatever has been set in it since the calls began. -/
def Names (r : RefreshRow) : Prop :=
  r.tokenHash = R.oldHash ∧ r.id = R.row.id ∧ r.family = R.row.family

structure Inv (s : State n) : Prop where
  chained : s.table.Chained
  old : ∃ r ∈ s.table.rows, R.Names r
  row : ∀ i r, (s.phases i).row = some r → R.Names r
  fresh : ∀ i t, (s.phases i).replacement = some t →
    R.requests i = .refresh t ∧ R.login.hashToken t ∉ s.table.hashes
  past_unique : ∀ i j, (s.phases i).Past → (s.phases j).Past → i = j
  past_revoked : ∀ i, (s.phases i).Past → ∀ r ∈ s.table.rows, r.id = R.row.id → r.revokedAt ≠ none
  pending : ∀ i, (s.phases i).Pending → s.table.Dead R.row.family ∧ ¬ R.FamilyRevoked s
  revoked : R.FamilyRevoked s → s.table.Dead R.row.family

theorem unrevoked_eq_nil : s.table.unrevoked R.row.family = [] ↔ s.table.Dead R.row.family := by
  simp [AuthStore.unrevoked, AuthStore.Dead]

variable {R}

theorem FamilyRevoked.of_goto {i : Fin n} {p : RefreshPhase}
    (hp : p.revokedRows = (s.phases i).revokedRows) :
    R.FamilyRevoked (s.goto i p) → R.FamilyRevoked s := by
  rintro ⟨j, r, hr, hf⟩
  rw [phases_goto] at hr
  split_ifs at hr with hj
  · rw [hp] at hr
    exact ⟨i, r, hr, hf⟩
  · exact ⟨j, r, hr, hf⟩

namespace Inv

/-- Where the token's row is what a search by its hash finds. -/
theorem names_of_selectLive (hI : Inv R s) {t : ℤ} {r : RefreshRow}
    (h : s.table.selectLive R.oldHash t = some r) : R.Names r := by
  obtain ⟨hr, hh, -⟩ := AuthStore.selectLive_eq_some.1 h
  obtain ⟨r', hr', hn⟩ := hI.old
  rwa [AuthStore.eq_of_tokenHash hr hr' (hh.trans hn.1.symm)]

theorem commit (hI : Inv R s) : Inv R s.commit :=
  ⟨hI.chained, hI.old, hI.row, hI.fresh, hI.past_unique, hI.past_revoked, hI.pending, hI.revoked⟩

theorem goto (hI : Inv R s) {i : Fin n} {p : RefreshPhase}
    (hrow : ∀ r, p.row = some r → R.Names r)
    (hfresh : ∀ t, p.replacement = some t → (s.phases i).replacement = some t)
    (hpast : p.Past → (s.phases i).Past) (hpend : ¬ p.Pending)
    (hrev : p.revokedRows = (s.phases i).revokedRows) : Inv R (s.goto i p) := by
  have hpast' : ∀ j, ((s.goto i p).phases j).Past → (s.phases j).Past := by
    intro j hj
    rw [phases_goto] at hj
    split_ifs at hj with h
    · exact h ▸ hpast hj
    · exact hj
  refine ⟨hI.chained, hI.old, fun j r hj => ?_, fun j t hj => ?_,
    fun j k hj hk => hI.past_unique j k (hpast' j hj) (hpast' k hk),
    fun j hj => hI.past_revoked j (hpast' j hj), fun j hj => ?_,
    fun h => hI.revoked (h.of_goto hrev)⟩
  · rw [phases_goto] at hj
    split_ifs at hj
    · exact hrow r hj
    · exact hI.row j r hj
  · rw [phases_goto] at hj
    split_ifs at hj with h
    · exact h ▸ hI.fresh i t (hfresh t hj)
    · exact hI.fresh j t hj
  · rw [phases_goto] at hj
    split_ifs at hj
    · exact absurd hj hpend
    · exact ⟨(hI.pending j hj).1, fun h => (hI.pending j hj).2 (h.of_goto hrev)⟩

theorem update (hI : Inv R s) (a : Assignment) (p : RefreshRow → Prop) [DecidablePred p] :
    Inv R (s.write (s.table.update a p)) where
  chained := hI.chained.update a p
  old := by
    obtain ⟨r, hr, hn⟩ := hI.old
    exact ⟨_, AuthStore.mem_update_of_mem hr, by simpa [Names] using hn⟩
  row := hI.row
  fresh i t h := by
    rw [show (s.write (s.table.update a p)).table.hashes = s.table.hashes from
      AuthStore.hashes_update]
    exact hI.fresh i t h
  past_unique := hI.past_unique
  past_revoked i hi r' hr' hid hu := by
    obtain ⟨r, hr, rfl⟩ := AuthStore.mem_update.1 hr'
    exact hI.past_revoked i hi r hr (by simpa using hid) (AuthStore.unrevoked_of_assign hu)
  pending i hi := ⟨(hI.pending i hi).1.update a p, (hI.pending i hi).2⟩
  revoked h := (hI.revoked h).update a p

theorem supersede (hI : Inv R s) {i : Fin n} {t : String} {session : RefreshToken}
    {row : RefreshRow} (hi : s.phases i = .rotateUpdate t session row)
    (hu : ∀ r ∈ s.table.rows, r.id = row.id → r.revokedAt = none) (now : ℤ) :
    Inv R ((s.write (s.table.supersede row.id now)).goto i (.rotateInsert t session row)) := by
  have hn : R.Names row := hI.row i row (by rw [hi]; rfl)
  obtain ⟨r, hr, hnr⟩ := hI.old
  have hid : r.id = row.id := hnr.2.1.trans hn.2.1.symm
  have hur := hu r hr hid
  have hpast : ∀ j, ¬ (s.phases j).Past := fun j hj => hI.past_revoked j hj r hr hnr.2.1 hur
  have hfam : ¬ R.FamilyRevoked s := fun h => hI.revoked h r hr hnr.2.2 hur
  have hfam' : ¬ R.FamilyRevoked
      ((s.write (s.table.supersede row.id now)).goto i (.rotateInsert t session row)) :=
    fun h => hfam (h.of_goto (s := s.write (s.table.supersede row.id now)) (by
      rw [show (s.write (s.table.supersede row.id now)).phases i = s.phases i from rfl, hi]
      rfl))
  have hU : Inv R (s.write (s.table.supersede row.id now)) := hI.update _ _
  have hdead : (s.table.supersede row.id now).Dead R.row.family := by
    intro r' hr' hf
    rw [← hid] at hr'
    exact hI.chained.revoked_of_supersede hr hur now r' hr' (hf.trans hnr.2.2.symm)
  have honly : ∀ j, (((s.write (s.table.supersede row.id now)).goto i
      (.rotateInsert t session row)).phases j).Past → j = i := by
    intro j hj
    by_contra hne
    rw [phases_goto, if_neg hne] at hj
    exact hpast j hj
  refine ⟨hU.chained, hU.old, fun j r' hj => ?_, fun j t' hj => ?_,
    fun j k hj hk => (honly j hj).trans (honly k hk).symm, fun j _ r' hr' hid' hu' => ?_,
    fun _ _ => ⟨hdead, hfam'⟩, fun h => absurd h hfam'⟩
  · rw [phases_goto] at hj
    split_ifs at hj
    · exact (Option.some.inj hj) ▸ hn
    · exact hI.row j r' hj
  · rw [phases_goto] at hj
    split_ifs at hj with h
    · exact hU.fresh j t' (by rw [h]; exact (congrArg _ hi).trans hj)
    · exact hU.fresh j t' hj
  · -- the row itself is what the statement has just revoked
    obtain ⟨r₀, hr₀, rfl⟩ := AuthStore.mem_update.1 hr'
    rw [AuthStore.id_assign] at hid'
    rw [AuthStore.unrevoked_assign_revokedAt] at hu'
    exact hu'.2 (hid'.trans hn.2.1.symm)

theorem insertSuccessor (hI : Inv R s) {i : Fin n} {t : String} {session : RefreshToken}
    {row : RefreshRow} (hi : s.phases i = .rotateInsert t session row) {now : ℤ}
    {table : AuthStore} {refreshId : ℕ}
    (h : s.table.insertSuccessor row (R.login.hashToken t) now R.login.refreshTtlSeconds
      = .ok (table, refreshId)) :
    Inv R ((s.write table).goto i (.rotateCommit t session refreshId)) := by
  have hn : R.Names row := hI.row i row (by rw [hi]; rfl)
  have hpend := hI.pending i (by rw [hi]; trivial)
  obtain ⟨r, hr, hnr⟩ := hI.old
  have hpos : 0 < row.family := by
    rw [hn.2.2, ← hnr.2.2]
    exact hI.chained.family_pos r hr
  have hle : R.row.family ≤ s.table.nextId := by
    rw [← hnr.2.2]
    exact (hI.chained.family_le r hr).trans (AuthStore.lt_nextId hr).le
  unfold AuthStore.insertSuccessor at h
  rw [RefreshRow.familyOrId_eq hpos, hn.2.2] at h
  obtain ⟨hrows, -, -⟩ := AuthStore.insert_eq_ok h
  have hpast : ∀ j, (((s.write table).goto i (.rotateCommit t session refreshId)).phases j).Past →
      (s.phases j).Past := by
    intro j hj
    rw [phases_goto] at hj
    split_ifs at hj with hji
    · rw [hji, hi]
      trivial
    · exact hj
  refine ⟨hI.chained.insert h (hn.2.2 ▸ hpos) hle hpend.1,
    ⟨r, show r ∈ table.rows from hrows ▸ List.mem_append_left _ hr, hnr⟩, fun j r' hj => ?_,
    fun j t' hj => ?_, fun j k hj hk => hI.past_unique j k (hpast j hj) (hpast k hk),
    fun j hj r' hr' hid => ?_, fun j hj => ?_, fun hf => absurd (hf.of_goto (by
      rw [show (s.write table).phases i = s.phases i from rfl, hi]; rfl)) hpend.2⟩
  · rw [phases_goto] at hj
    split_ifs at hj
    · exact absurd hj (by simp [RefreshPhase.row])
    · exact hI.row j r' hj
  · rw [phases_goto] at hj
    split_ifs at hj with hji
    · exact absurd hj (by simp [RefreshPhase.replacement])
    · obtain ⟨hreq, hnot⟩ := hI.fresh j t' hj
      obtain ⟨hreq', -⟩ := hI.fresh i t (by rw [hi]; rfl)
      refine ⟨hreq, fun hmem => ?_⟩
      have : R.login.hashToken t' ∈ s.table.hashes ++ [R.login.hashToken t] := by
        unfold AuthStore.hashes at hmem ⊢
        rwa [table_goto, show (s.write table).table.rows = table.rows from rfl, hrows,
          List.map_append] at hmem
      -- a token that another call has generated is another one
      rcases List.mem_append.1 this with hm | hm
      · exact hnot hm
      · exact hji (R.replacement_inj j i t' t hreq hreq' (List.mem_singleton.1 hm))
  · rcases List.mem_append.1 (hrows ▸ hr' : r' ∈ _) with hr' | hr'
    · exact hI.past_revoked j (hpast j hj) r' hr' hid
    · -- the successor has an id of its own
      have hlt := AuthStore.lt_nextId hr
      rw [List.mem_singleton.1 hr', ← hnr.2.1] at hid
      exact absurd hid hlt.ne'
  · rw [phases_goto] at hj
    split_ifs at hj with hji
    · exact absurd hj (by simp [RefreshPhase.Pending])
    · exact absurd (hI.past_unique j i hj.past (by rw [hi]; trivial)) hji

theorem revoke (hI : Inv R s) {i : Fin n} (p : RefreshRow → Prop) [DecidablePred p]
    (hp : ∀ r, p r → r.revokedAt = none) (now : ℤ) :
    Inv R ((s.write (s.table.update (.revokedAt now) p)).goto i
      (.revokeCommit (matched s p))) := by
  have hU : Inv R (s.write (s.table.update (.revokedAt now) p)) := hI.update _ _
  have hcases : R.FamilyRevoked ((s.write (s.table.update (.revokedAt now) p)).goto i
      (.revokeCommit (matched s p))) →
      R.FamilyRevoked s ∨ ∃ r ∈ s.table.rows, p r ∧ r.family = R.row.family := by
    rintro ⟨j, r, hr, hf⟩
    rw [phases_goto] at hr
    split_ifs at hr
    · obtain ⟨hr, hpr⟩ := List.mem_filter.1 hr
      exact .inr ⟨r, hr, by simpa using hpr, hf⟩
    · exact .inl ⟨j, r, hr, hf⟩
  have hpast : ∀ j, (((s.write (s.table.update (.revokedAt now) p)).goto i
      (.revokeCommit (matched s p))).phases j).Past → (s.phases j).Past := by
    intro j hj
    rw [phases_goto] at hj
    split_ifs at hj
    · exact hj.elim
    · exact hj
  refine ⟨hU.chained, hU.old, fun j r' hj => ?_, fun j t' hj => ?_,
    fun j k hj hk => hI.past_unique j k (hpast j hj) (hpast k hk),
    fun j hj => hU.past_revoked j (hpast j hj), fun j hj => ?_, fun h => ?_⟩
  · rw [phases_goto] at hj
    split_ifs at hj
    · exact absurd hj (by simp [RefreshPhase.row])
    · exact hI.row j r' hj
  · rw [phases_goto] at hj
    split_ifs at hj
    · exact absurd hj (by simp [RefreshPhase.replacement])
    · exact hU.fresh j t' hj
  · rw [phases_goto] at hj
    split_ifs at hj
    · exact hj.elim
    · refine ⟨(hU.pending j hj).1, fun h => ?_⟩
      rcases hcases h with h | ⟨r, hr, hpr, hf⟩
      · exact (hI.pending j hj).2 h
      · exact (hI.pending j hj).1 r hr hf (hp r hpr)
  · rcases hcases h with h | ⟨r, hr, hpr, hf⟩
    · exact hU.revoked h
    · -- the row it took was the family's one unrevoked row
      intro r' hr' hf' hu'
      obtain ⟨r₀, hr₀, rfl⟩ := AuthStore.mem_update.1 hr'
      rw [AuthStore.unrevoked_assign_revokedAt] at hu'
      rw [AuthStore.family_assign] at hf'
      rw [hI.chained.eq_of_unrevoked hr₀ hr (hf.trans hf'.symm) hu'.1 (hp r hpr)] at hu'
      exact hu'.2 hpr

theorem refuse (hI : Inv R s) {i : Fin n} (hi : (s.phases i).revokedRows = []) :
    Inv R (s.goto i .refuseCommit) :=
  hI.goto (by simp [RefreshPhase.row]) (by simp [RefreshPhase.replacement]) (fun h => h.elim)
    (fun h => h.elim) hi.symm

theorem step (hI : Inv R s) (i : Fin n) (hc : StillUnrevoked s i) : Inv R (R.step s i) := by
  unfold RefreshRace.step
  cases hi : s.phases i with
  | resolveSelect t =>
    cases hrow : s.table.selectLive R.oldHash (R.now i) with
    | none => exact hI.refuse (by rw [hi]; rfl)
    | some row =>
      exact hI.goto (by simp [RefreshPhase.row]) (fun _ h => by rw [hi]; exact h) (fun h => h.elim)
        (fun h => h.elim) (by rw [hi]; rfl)
  | resolveUpdate t row =>
    have hU : Inv R (s.write (s.table.touch row.id (R.now i))) := hI.update _ _
    exact hU.goto (by simp [RefreshPhase.row]) (fun _ h => (congrArg _ hi).trans h)
      (fun h => h.elim) (fun h => h.elim) (congrArg RefreshPhase.revokedRows hi).symm
  | resolveCommit t session =>
    exact hI.commit.goto (by simp [RefreshPhase.row]) (fun _ h => (congrArg _ hi).trans h)
      (fun h => h.elim) (fun h => h.elim) (congrArg RefreshPhase.revokedRows hi).symm
  | rotateSelect t session =>
    cases hrow : s.table.selectLive R.oldHash (R.now i) with
    | none => exact hI.refuse (by rw [hi]; rfl)
    | some row =>
      exact hI.goto (fun r h => Option.some.inj h ▸ names_of_selectLive hI hrow)
        (fun _ h => by rw [hi]; exact h) (fun h => h.elim) (fun h => h.elim) (by rw [hi]; rfl)
  | rotateUpdate t session row =>
    refine hI.supersede hi (fun r hr hid => hc r hr ?_) (R.now i)
    rw [hi, hid]
    rfl
  | rotateInsert t session row =>
    cases hins : s.table.insertSuccessor row (R.login.hashToken t) (R.now i)
        R.login.refreshTtlSeconds with
    | error e =>
      -- the token it has generated is new
      have hnot := (hI.fresh i t (by rw [hi]; rfl)).2
      simp [AuthStore.insertSuccessor, AuthStore.insert, hnot] at hins
    | ok result =>
      simp only [hins]
      exact hI.insertSuccessor hi hins
  | rotateCommit t session refreshId =>
    exact hI.commit.goto (by simp [RefreshPhase.row]) (by simp [RefreshPhase.replacement])
      (fun _ => by rw [show s.commit.phases i = s.phases i from rfl, hi]; trivial)
      (fun h => h.elim) (congrArg RefreshPhase.revokedRows hi).symm
  | refuseCommit =>
    exact hI.commit.goto (by simp [RefreshPhase.row]) (by simp [RefreshPhase.replacement])
      (fun h => h.elim) (fun h => h.elim) (congrArg RefreshPhase.revokedRows hi).symm
  | revokeUpdate tokenId => exact hI.revoke _ (fun _ h => h.2) (R.now i)
  | revokeAllUpdate => exact hI.revoke _ (fun _ h => h.1) (R.now i)
  | revokeCommit rows =>
    exact hI.commit.goto (by simp [RefreshPhase.row]) (by simp [RefreshPhase.replacement])
      (fun h => h.elim) (fun h => h.elim) (congrArg RefreshPhase.revokedRows hi).symm
  | answered tokens => exact hI
  | refused => exact hI
  | raised => exact hI
  | revoked rows => exact hI

theorem oneSuccessor (hI : Inv R s) : R.OneSuccessor s := by
  refine ⟨fun i j hi hj => hI.past_unique i j hi.past hj.past,
    fun _ => ⟨hI.chained.length_unrevoked _, fun h => ?_⟩⟩
  rw [unrevoked_eq_nil]
  exact hI.revoked h

end Inv

theorem inv_init (R : RefreshRace n) : Inv R R.init where
  chained := R.reachable.chained
  old := ⟨R.row, R.row_mem, R.row_hash, rfl, rfl⟩
  row i r h := nomatch (R.requests i).row_begin.symm.trans h
  fresh i t h :=
    have hreq := (R.requests i).eq_of_replacement_begin h
    ⟨hreq, R.replacement_fresh i t hreq⟩
  past_unique i _ h := absurd h (R.requests i).not_past_begin
  past_revoked i h := absurd h (R.requests i).not_past_begin
  pending i h := absurd h.past (R.requests i).not_past_begin
  revoked h := by
    obtain ⟨i, r, hr, -⟩ := h
    exact absurd ((R.requests i).revokedRows_begin ▸ hr) List.not_mem_nil

theorem always_oneSuccessor (R : RefreshRace n) (schedule : List (Fin n))
    (h : Run.Meets R.step StillUnrevoked R.init schedule) :
    Run.Always R.step R.OneSuccessor R.init schedule :=
  Run.always_of_meets (fun _ hI => hI.oneSuccessor) (fun _ i hI => hI.step i) schedule R.inv_init h

/-- Two refreshes with the one token of a login. -/
def twoRefreshes : RefreshRace 2 where
  login := .plain
  store := LoginService.loggedIn
  reachable := LoginService.reachable_loggedIn
  refreshToken := "first"
  row := LoginService.firstRow
  row_mem := LoginService.firstRow_mem
  row_hash := LoginService.hash_firstRow
  requests i := .refresh (if i = 0 then "second" else "third")
  now _ := 60
  replacement_fresh i t h := by
    obtain rfl := RefreshRequest.refresh.inj h
    clear h
    revert i
    decide
  replacement_inj i j t t' hi hj := by
    obtain rfl := RefreshRequest.refresh.inj hi
    obtain rfl := RefreshRequest.refresh.inj hj
    clear hi hj
    revert i j
    decide

/-- One call after the other: the second finds the token revoked. -/
theorem always_oneSuccessor_inTurn :
    Run.Always twoRefreshes.step twoRefreshes.OneSuccessor twoRefreshes.init
      [0, 0, 0, 0, 0, 0, 0, 1, 1] :=
  always_oneSuccessor twoRefreshes _ (by decide +kernel)

/-- Both calls make their second `SELECT` before either makes its second `UPDATE`. -/
theorem twoSuccessors : ¬ ∀ (n : ℕ) (R : RefreshRace n) (schedule : List (Fin n)),
    Run.Always R.step R.OneSuccessor R.init schedule := fun h =>
  absurd (h 2 twoRefreshes [0, 0, 0, 0, 1, 1, 1, 1, 0, 0, 0, 1, 1, 1]) (by decide +kernel)

end RefreshRace

end Rackphone
