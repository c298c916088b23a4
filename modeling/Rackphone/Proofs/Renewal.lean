import Rackphone.Proofs.Login
import Rackphone.Renewal

/-!
# Renewals in turn

The family has one unrevoked row, and its token is in the store, or is the answer of the server
that one isolate has yet to write. A token that is presented is the live one exactly if it is the
stored one and there is no such answer.
-/

namespace Rackphone

namespace AuthStore

variable {s s' s'' : AuthStore} {r r' : RefreshRow} {now : ℤ}

def Keeps (s s' : AuthStore) : Prop :=
  ∀ r ∈ s.rows, ∃ r' ∈ s'.rows, r'.tokenHash = r.tokenHash ∧ r'.family = r.family

theorem Keeps.trans (h : Keeps s s') (h' : Keeps s' s'') : Keeps s s'' := by
  intro r hr
  obtain ⟨r', hr', hh, hf⟩ := h r hr
  obtain ⟨r'', hr'', hh', hf'⟩ := h' r' hr'
  exact ⟨r'', hr'', hh'.trans hh, hf'.trans hf⟩

theorem keeps_update (a : Assignment) (p : RefreshRow → Prop) [DecidablePred p] :
    Keeps s (s.update a p) :=
  fun _ hr => ⟨_, mem_update_of_mem hr, by simp, by simp⟩

/-- What a renewal that finds a live row makes of the table. -/
structure Succeeds (s : AuthStore) (r : RefreshRow) (newHash : String) (s' : AuthStore)
    (r' : RefreshRow) : Prop where
  chained : s'.Chained
  keeps : Keeps s s'
  mem : r' ∈ s'.rows
  family : r'.family = r.family
  unrevoked : r'.revokedAt = none
  tokenHash : r'.tokenHash = newHash
  fresh : newHash ∉ s.hashes

theorem rotateRefresh_of_live (hC : s.Chained) (hr : r ∈ s.rows) (hl : r.Live now)
    (newHash : String) (ttl : ℤ) :
    s.rotateRefresh r.tokenHash newHash now ttl = .error .unique ∨
      ∃ s' r' id, s.rotateRefresh r.tokenHash newHash now ttl = .ok (s', some id)
        ∧ Succeeds s r newHash s' r' := by
  have hsel : s.selectLive r.tokenHash now = some r := selectLive_eq_some.2 ⟨hr, rfl, hl⟩
  rcases hins : (s.supersede r.id now).insertSuccessor r newHash now ttl with e | ⟨s', id⟩
  · left
    cases e
    simp [rotateRefresh, hsel, hins]
  · right
    have hC' := hC.insertSuccessor hr hl.1 hins
    have hfam := RefreshRow.familyOrId_eq (hC.family_pos r hr)
    unfold insertSuccessor at hins
    obtain ⟨hrows, -, hnot⟩ := insert_eq_ok hins
    refine ⟨s', (s.supersede r.id now).newRow newHash r.deviceLabel r.scope now ttl
      (some r.familyOrId), id, ?_, hC', ?_, ?_, hfam, rfl, rfl, ?_⟩
    · simp [rotateRefresh, hsel, insertSuccessor, hins]
    · have hkeeps : Keeps s (s.supersede r.id now) := keeps_update _ _
      refine hkeeps.trans fun a ha => ⟨a, ?_, rfl, rfl⟩
      rw [hrows]
      exact List.mem_append_left _ ha
    · rw [hrows]
      exact List.mem_append_right _ (List.mem_singleton_self _)
    · rwa [supersede, hashes_update] at hnot

end AuthStore

namespace LoginService

open AuthStore

variable {L : LoginService} {s : AuthStore} {r : RefreshRow} {now : ℤ}

/-- A renewal with a live row's token renews it, unless the new token's hash is taken, and then
the row is as it was but for the time it was last seen. -/
theorem refresh_of_live {refreshToken : String} (replacement : String) (hC : s.Chained)
    (hr : r ∈ s.rows) (hh : r.tokenHash = L.hashToken refreshToken) (hl : r.Live now) :
    (∃ s', (L.refresh s refreshToken replacement now) = (s', .error .unique)
      ∧ s'.Chained ∧ Keeps s s'
      ∧ ∃ r' ∈ s'.rows, r'.tokenHash = r.tokenHash ∧ r'.family = r.family ∧ r'.revokedAt = none) ∨
    ∃ s' r' tokens, L.refresh s refreshToken replacement now = (s', .ok (.ok tokens))
      ∧ tokens.refresh = replacement ∧ Succeeds s r (L.hashToken replacement) s' r' := by
  have hres : s.resolveRefresh (L.hashToken refreshToken) now
      = (s.touch r.id now, some { r.toRefreshToken with lastSeen := now }) := by
    have hsel := selectLive_eq_some.2 ⟨hr, hh, hl⟩
    simp [resolveRefresh, hsel]
  -- the row as `resolve_refresh` leaves it
  obtain ⟨r₁, hr₁, hh₁, hf₁, hl₁⟩ : ∃ r₁ ∈ (s.touch r.id now).rows,
      r₁.tokenHash = r.tokenHash ∧ r₁.family = r.family ∧ r₁.Live now :=
    ⟨_, mem_update_of_mem hr, by simp, by simp, by simpa using hl.1, by simpa using hl.2⟩
  have hT : (s.touch r.id now).Chained := hC.update _ _
  rcases rotateRefresh_of_live hT hr₁ hl₁ (L.hashToken replacement) L.refreshTtlSeconds with
    he | ⟨s', r', id, hok, hS⟩
  · rw [hh₁, hh] at he
    refine .inl ⟨s.touch r.id now, by simp [refresh, hres, he], hT, keeps_update _ _, r₁, hr₁,
      hh₁, hf₁, hl₁.1⟩
  · rw [hh₁, hh] at hok
    refine .inr ⟨s', r', _, by simp [refresh, hres, hok]; rfl, rfl, hS.chained,
      (keeps_update _ _).trans hS.keeps, hS.mem, hS.family.trans hf₁, hS.unrevoked, hS.tokenHash,
      ?_⟩
    have := hS.fresh
    rwa [touch, hashes_update] at this

end LoginService

namespace SignedIn

open AuthStore

variable (S : SignedIn) {s : State} {σ : StoredSession} {r : RefreshRow}

@[simp] theorem phases_goto (i j : Isolate) (p : RenewalPhase) :
    (s.goto i p).phases j = if j = i then p else s.phases j := by
  simp [State.goto, Function.update_apply]

def Seen (s : State) (σ : StoredSession) (t : String) : Prop :=
  t = σ.refreshToken ∨ ∃ i, (s.phases i).held = some t

def Running (p : RenewalPhase) : Prop := p ≠ .refused ∧ p ≠ .signedOut

/-- The session `σ` is stored and `r` is the family's unrevoked row. -/
structure Holds (s : State) (σ : StoredSession) (r : RefreshRow) : Prop where
  chained : s.server.Chained
  failed : s.failed = false
  running : ∀ i, Running (s.phases i)
  session : s.session ≠ none
  stored : s.store = some σ
  mem : r ∈ s.server.rows
  family : r.family = S.row.family
  unrevoked : r.revokedAt = none
  known : ∀ t, Seen s σ t →
    ∃ a ∈ s.server.rows, a.tokenHash = S.login.hashToken t ∧ a.family = S.row.family
  held : ∀ i t, (s.phases i).held = some t →
    S.login.hashToken t = S.login.hashToken σ.refreshToken → t = σ.refreshToken
  settled : (∀ i, (s.phases i).pending = none) →
    r.tokenHash = S.login.hashToken σ.refreshToken
  pending : ∀ i tokens, (s.phases i).pending = some tokens →
    r.tokenHash = S.login.hashToken tokens.refresh
      ∧ ∀ t, Seen s σ t → S.login.hashToken t ≠ r.tokenHash
  pending_unique : ∀ i j, (s.phases i).pending ≠ none → (s.phases j).pending ≠ none → i = j

theorem holds_init : S.Holds S.init S.session S.row where
  chained := S.reachable.chained
  failed := rfl
  running _ := ⟨nofun, nofun⟩
  session := nofun
  stored := rfl
  mem := S.row_mem
  family := rfl
  unrevoked := S.row_unrevoked
  known := by
    rintro t (rfl | ⟨i, hi⟩)
    · exact ⟨S.row, S.row_mem, S.row_hash, rfl⟩
    · cases hi
  held i t h := nomatch h
  settled _ := S.row_hash
  pending i tokens h := nomatch h
  pending_unique i j h := absurd rfl h

variable {S}

namespace Holds

/-- The row of a token that is presented is live only if it is the family's unrevoked row. -/
theorem eq_of_live (h : S.Holds s σ r) {t : String} (ht : Seen s σ t) {now : ℤ} {a : RefreshRow}
    (ha : s.server.selectLive (S.login.hashToken t) now = some a) :
    r.tokenHash = S.login.hashToken t := by
  obtain ⟨hmem, hh, hl⟩ := selectLive_eq_some.1 ha
  obtain ⟨b, hb, hbh, hbf⟩ := h.known t ht
  obtain rfl := eq_of_tokenHash hmem hb (hh.trans hbh.symm)
  rw [h.chained.eq_of_unrevoked h.mem hmem (hbf.trans h.family.symm) h.unrevoked hl.1]
  exact hh

theorem goto (h : S.Holds s σ r) {i : Isolate} {p : RenewalPhase} (hrun : Running p)
    (hheld : ∀ t, p.held = some t → t = σ.refreshToken ∨ (s.phases i).held = some t)
    (hpend : p.pending = (s.phases i).pending) : S.Holds (s.goto i p) σ r := by
  have hseen : ∀ t, Seen (s.goto i p) σ t → Seen s σ t := by
    rintro t (rfl | ⟨j, hj⟩)
    · exact .inl rfl
    · rw [phases_goto] at hj
      split_ifs at hj
      · exact (hheld t hj).imp id fun hi => ⟨i, hi⟩
      · exact .inr ⟨j, hj⟩
  have hpend' : ∀ j, ((s.goto i p).phases j).pending = (s.phases j).pending := by
    intro j
    rw [phases_goto]
    split_ifs with hj
    · rw [hpend, hj]
    · rfl
  refine ⟨h.chained, h.failed, fun j => ?_, h.session, h.stored, h.mem, h.family, h.unrevoked,
    fun t ht => h.known t (hseen t ht), fun j t hj => ?_, fun hn => h.settled fun j => ?_,
    fun j tokens hj => ?_, fun j k hj hk => ?_⟩
  · rw [phases_goto]
    split_ifs
    · exact hrun
    · exact h.running j
  · rw [phases_goto] at hj
    split_ifs at hj
    · rcases hheld t hj with rfl | hi
      · exact fun _ => rfl
      · exact h.held i t hi
    · exact h.held j t hj
  · rw [← hpend' j]
    exact hn j
  · rw [hpend'] at hj
    exact ⟨(h.pending j tokens hj).1, fun t ht => (h.pending j tokens hj).2 t (hseen t ht)⟩
  · rw [hpend'] at hj hk
    exact h.pending_unique j k hj hk

theorem write (h : S.Holds s σ r) {i : Isolate} {tokens : Tokens}
    (hi : (s.phases i).pending = some tokens) {σ' : StoredSession}
    (hσ : σ'.refreshToken = tokens.refresh) {x : Option StoredSession} (hx : x ≠ none) :
    S.Holds (({ s with store := some σ', session := x } : State).goto i .idle) σ' r := by
  obtain ⟨hrow, hne⟩ := h.pending i tokens hi
  have hphases : ∀ j, (({ s with store := some σ', session := x } : State).goto i .idle).phases j
      = if j = i then .idle else s.phases j := fun j => phases_goto i j .idle
  have hheld : ∀ j t, ((({ s with store := some σ', session := x } : State).goto i .idle).phases
      j).held = some t → (s.phases j).held = some t := by
    intro j t hj
    rw [hphases] at hj
    split_ifs at hj
    · cases hj
    · exact hj
  have hpend : ∀ j, ((({ s with store := some σ', session := x } : State).goto i .idle).phases
      j).pending = none := by
    intro j
    rw [hphases]
    split_ifs with hj
    · rfl
    · by_contra hn
      exact hj (h.pending_unique j i hn (by simp [hi]))
  refine ⟨h.chained, h.failed, fun j => ?_, hx, rfl, h.mem, h.family, h.unrevoked, ?_,
    fun j t hj he => ?_, fun _ => by rw [hrow, hσ], fun j tokens' hj => ?_, fun j _ hj => ?_⟩
  · rw [hphases]
    split_ifs
    · exact ⟨nofun, nofun⟩
    · exact h.running j
  · rintro t (rfl | ⟨j, hj⟩)
    · exact ⟨r, h.mem, by rw [hrow, hσ], h.family⟩
    · exact h.known t (.inr ⟨j, hheld j t hj⟩)
  · exact absurd (by rw [he, hσ, hrow]) (hne t (.inr ⟨j, hheld j t hj⟩))
  · rw [hpend j] at hj
    cases hj
  · exact absurd (hpend j) hj

theorem server (h : S.Holds s σ r) {server : AuthStore} (hC : server.Chained)
    (hkeeps : Keeps s.server server) {r' : RefreshRow} (hr' : r' ∈ server.rows)
    (hh : r'.tokenHash = r.tokenHash) (hf : r'.family = r.family) (hu : r'.revokedAt = none) :
    S.Holds { s with server } σ r' where
  chained := hC
  failed := h.failed
  running := h.running
  session := h.session
  stored := h.stored
  mem := hr'
  family := hf.trans h.family
  unrevoked := hu
  known t ht := by
    obtain ⟨a, ha, hah, haf⟩ := h.known t ht
    obtain ⟨a', ha', hah', haf'⟩ := hkeeps a ha
    exact ⟨a', ha', hah'.trans hah, haf'.trans haf⟩
  held := h.held
  settled hn := hh.trans (h.settled hn)
  pending i tokens hi := by
    rw [hh]
    exact h.pending i tokens hi
  pending_unique := h.pending_unique

/-- The stored token is presented, with nothing of an earlier renewal left to write. -/
theorem present (h : S.Holds s σ r) {i : Isolate} (hi : s.phases i = .hasRead σ.refreshToken)
    (hpend : ∀ j, (s.phases j).pending = none) (replacement : String) {now : ℤ}
    (hexp : now < r.expiresAt) :
    ∃ r', S.Holds (S.step s (.present i replacement now)) σ r' := by
  rcases LoginService.refresh_of_live (L := S.login) replacement h.chained h.mem (h.settled hpend)
    ⟨h.unrevoked, hexp⟩ with
    ⟨server, he, hC, hkeeps, r', hr', hh, hf, hu⟩ | ⟨server, r', tokens, hok, htok, hS⟩
  · -- the call raised, and what it changed was rolled back but for the last use
    have hstep : S.step s (.present i replacement now)
        = ({ s with server } : State).goto i .idle := by simp only [step, hi, he]
    rw [hstep]
    refine ⟨r', (h.server hC hkeeps hr' hh hf hu).goto ⟨nofun, nofun⟩ (fun _ h => nomatch h) ?_⟩
    exact (hpend i).symm
  · have hstep : S.step s (.present i replacement now)
        = ({ s with server } : State).goto i (.answered tokens) := by simp only [step, hi, hok]
    rw [hstep]
    have hphases : ∀ j, (({ s with server } : State).goto i (.answered tokens)).phases j
        = if j = i then .answered tokens else s.phases j := fun j => phases_goto i j _
    have hseen : ∀ t, Seen (({ s with server } : State).goto i (.answered tokens)) σ t →
        Seen s σ t := by
      rintro t (rfl | ⟨j, hj⟩)
      · exact .inl rfl
      · rw [hphases] at hj
        split_ifs at hj
        · cases hj
        · exact .inr ⟨j, hj⟩
    -- the answer is the only one that is yet to be written
    have honly : ∀ j tokens', ((({ s with server } : State).goto i (.answered tokens)).phases
        j).pending = some tokens' → j = i ∧ tokens' = tokens := by
      intro j tokens' hj
      rw [hphases] at hj
      split_ifs at hj with hji
      · exact ⟨hji, (Option.some.inj hj).symm⟩
      · rw [hpend j] at hj
        cases hj
    refine ⟨r', hS.chained, h.failed, fun j => ?_, h.session, h.stored, hS.mem,
      hS.family.trans h.family, hS.unrevoked, fun t ht => ?_, fun j t hj => ?_, fun hn => ?_,
      fun j tokens' hj => ?_, fun j k hj hk => ?_⟩
    · rw [hphases]
      split_ifs
      · exact ⟨nofun, nofun⟩
      · exact h.running j
    · obtain ⟨a, ha, hah, haf⟩ := h.known t (hseen t ht)
      obtain ⟨a', ha', hah', haf'⟩ := hS.keeps a ha
      exact ⟨a', ha', hah'.trans hah, haf'.trans haf⟩
    · rw [hphases] at hj
      split_ifs at hj
      · cases hj
      · exact h.held j t hj
    · have := hn i
      rw [hphases, if_pos rfl] at this
      cases this
    · obtain ⟨-, rfl⟩ := honly j tokens' hj
      refine ⟨by rw [hS.tokenHash, htok], fun t ht he => ?_⟩
      obtain ⟨a, ha, hah, -⟩ := h.known t (hseen t ht)
      refine hS.fresh ?_
      rw [← hS.tokenHash, ← he, ← hah]
      exact List.mem_map_of_mem ha
    · obtain ⟨a, ha⟩ := Option.ne_none_iff_exists'.1 hj
      obtain ⟨b, hb⟩ := Option.ne_none_iff_exists'.1 hk
      exact (honly j a ha).1.trans (honly k b hb).1.symm

/-- Any other token that is presented is refused. -/
theorem present_refused (h : S.Holds s σ r) {i : Isolate} {t : String}
    (hi : s.phases i = .hasRead t)
    (hc : ¬ (t = σ.refreshToken ∧ ∀ j, (s.phases j).pending = none)) (replacement : String)
    (now : ℤ) : (S.step s (.present i replacement now)).failed = true := by
  have hseen : Seen s σ t := .inr ⟨i, by rw [hi]; rfl⟩
  have hnone : s.server.selectLive (S.login.hashToken t) now = none := by
    rcases hsel : s.server.selectLive (S.login.hashToken t) now with _ | a
    · rfl
    · have hrow := h.eq_of_live hseen hsel
      by_cases hpend : ∀ j, (s.phases j).pending = none
      · have ht := h.held i t (by rw [hi]; rfl) (hrow.symm.trans (h.settled hpend))
        exact absurd ⟨ht, hpend⟩ hc
      · obtain ⟨j, hj⟩ := not_forall.1 hpend
        obtain ⟨tokens, htok⟩ := Option.ne_none_iff_exists'.1 hj
        exact absurd hrow.symm ((h.pending j tokens htok).2 t hseen)
  have hrefused : S.login.refresh s.server t replacement now
      = (s.server, .ok (.error .badCredentials)) := by
    simp [LoginService.refresh, resolveRefresh, hnone]
  simp only [step, hi, hrefused]
  rfl

theorem keptSignedIn (h : S.Holds s σ r) : S.KeptSignedIn s := by
  refine ⟨h.failed, by simp [h.stored], fun hq => ?_⟩
  have hpend : ∀ i, (s.phases i).pending = none := by
    rintro (_ | _)
    · rw [hq.1]
      rfl
    · rw [hq.2]
      rfl
  rw [← h.family, h.chained.unrevoked_eq h.mem h.unrevoked, h.stored]
  simp [h.settled hpend]

end Holds

theorem Holds.setSession (h : S.Holds s σ r) (session : StoredSession) :
    S.Holds { s with session := some session } σ r :=
  ⟨h.chained, h.failed, h.running, nofun, h.stored, h.mem, h.family, h.unrevoked, h.known, h.held,
    h.settled, h.pending, h.pending_unique⟩

theorem Holds.setOriginal (h : S.Holds s σ r) (original : StoredSession) :
    S.Holds { s with original } σ r :=
  ⟨h.chained, h.failed, h.running, h.session, h.stored, h.mem, h.family, h.unrevoked, h.known,
    h.held, h.settled, h.pending, h.pending_unique⟩

theorem Holds.hasRead (h : S.Holds s σ r) {i : Isolate} (hi : s.phases i = .idle) :
    S.Holds (s.goto i (.hasRead σ.refreshToken)) σ r :=
  h.goto ⟨nofun, nofun⟩ (fun _ ht => .inl (Option.some.inj ht).symm) (by rw [hi]; rfl)

theorem Holds.restore (h : S.Holds s σ r) : ∃ σ' r', S.Holds (S.step s .restore) σ' r' := by
  cases hp : s.phases .app with
  | idle =>
    have hstep : S.step s .restore = ({ s with session := some σ } : State).goto .app
        (.hasRead σ.refreshToken) := by simp only [step, hp, h.stored]
    rw [hstep]
    exact ⟨σ, r, (h.setSession σ).hasRead hp⟩
  | _ =>
    simp only [step, hp]
    exact ⟨σ, r, h⟩

theorem Holds.listen (h : S.Holds s σ r) : ∃ σ' r', S.Holds (S.step s .listen) σ' r' := by
  cases hp : s.phases .service with
  | idle =>
    have hstep : S.step s .listen = { s with original := σ } := by simp only [step, hp, h.stored]
    rw [hstep]
    exact ⟨σ, r, h.setOriginal σ⟩
  | _ =>
    simp only [step, hp]
    exact ⟨σ, r, h⟩

theorem Holds.read (h : S.Holds s σ r) (i : Isolate) :
    ∃ σ' r', S.Holds (S.step s (.read i)) σ' r' := by
  cases hp : s.phases i with
  | idle =>
    simp only [step, hp, h.stored]
    exact ⟨σ, r, h.hasRead hp⟩
  | _ =>
    simp only [step, hp]
    exact ⟨σ, r, h⟩

theorem Holds.presentStored (h : S.Holds s σ r) {i : Isolate} {replacement : String} {now : ℤ}
    (hexp : S.NotExpired s (.present i replacement now))
    (hc : PresentsStored s (.present i replacement now)) :
    ∃ σ' r', S.Holds (S.step s (.present i replacement now)) σ' r' := by
  cases hp : s.phases i with
  | hasRead t =>
    obtain ⟨ht, happ, hservice⟩ := hc t (by rw [hp]; rfl)
    rw [h.stored, Option.map_some, Option.some.injEq] at ht
    obtain rfl := ht
    have hpend : ∀ j, (s.phases j).pending = none := by
      rintro (_ | _)
      · exact happ
      · exact hservice
    obtain ⟨r', h'⟩ := h.present hp hpend replacement
      (hexp r (mem_unrevoked.2 ⟨h.mem, h.family, h.unrevoked⟩))
    exact ⟨σ, r', h'⟩
  | _ =>
    simp only [step, hp]
    exact ⟨σ, r, h⟩

theorem Holds.reread (h : S.Holds s σ r) : ∃ σ' r', S.Holds (S.step s .reread) σ' r' := by
  cases hp : s.phases .service with
  | answered tokens =>
    simp only [step, hp]
    exact ⟨σ, r, h.goto ⟨nofun, nofun⟩ (fun _ ht => nomatch ht) (by rw [hp]; rfl)⟩
  | _ =>
    simp only [step, hp]
    exact ⟨σ, r, h⟩

theorem Holds.writeBack (h : S.Holds s σ r) (i : Isolate) :
    ∃ σ' r', S.Holds (S.step s (.write i)) σ' r' := by
  cases i with
  | app =>
    obtain ⟨current, hcur⟩ := Option.ne_none_iff_exists'.1 h.session
    cases hp : s.phases .app with
    | answered tokens =>
      simp only [step, hp, hcur]
      exact ⟨current.renewed tokens, r,
        h.write (show (s.phases .app).pending = some tokens by rw [hp]; rfl) rfl nofun⟩
    | _ =>
      simp only [step, hp]
      exact ⟨σ, r, h⟩
  | service =>
    -- what the service read again may be older than the store; its token is replaced all the same
    cases hp : s.phases .service with
    | rewriting current tokens =>
      simp only [step, hp]
      exact ⟨current.renewed tokens, r,
        h.write (show (s.phases .service).pending = some tokens by rw [hp]; rfl) rfl h.session⟩
    | _ =>
      simp only [step, hp]
      exact ⟨σ, r, h⟩

/-- No isolate has a failure to answer for, so nothing is cleared. -/
theorem Holds.clear (h : S.Holds s σ r) (i : Isolate) : S.step s (.clear i) = s := by
  have hrun := (h.running i).1
  cases i with
  | app =>
    cases hp : s.phases .app with
    | refused => exact absurd hp hrun
    | _ => simp only [step, hp]
  | service =>
    cases hp : s.phases .service with
    | refused => exact absurd hp hrun
    | _ => simp only [step, hp]

theorem Holds.report (h : S.Holds s σ r) : S.step s .report = s := by
  cases hp : s.phases .app with
  | refused => exact absurd hp (h.running .app).1
  | _ => simp only [step, hp]

theorem step_holds (h : S.Holds s σ r) (a : Action) (hexp : S.NotExpired s a)
    (hc : PresentsStored s a) : ∃ σ' r', S.Holds (S.step s a) σ' r' := by
  cases a with
  | restore => exact h.restore
  | listen => exact h.listen
  | read i => exact h.read i
  | present i replacement now => exact h.presentStored hexp hc
  | reread => exact h.reread
  | write i => exact h.writeBack i
  | clear i =>
    rw [h.clear i]
    exact ⟨σ, r, h⟩
  | report =>
    rw [h.report]
    exact ⟨σ, r, h⟩

/-- For every run in which the login does not expire: the client stays signed in throughout if and
only if each token that is presented is the stored one, with no answer left to write. -/
theorem always_keptSignedIn_iff (S : SignedIn) (actions : List Action)
    (hexp : Run.Meets S.step S.NotExpired S.init actions) :
    Run.Always S.step S.KeptSignedIn S.init actions
      ↔ Run.Meets S.step PresentsStored S.init actions := by
  refine Run.always_iff_meets (I := fun s => ∃ σ r, S.Holds s σ r)
    (fun s h => ?_) (fun s a h he hc => ?_) (fun s a h he hc hP => ?_) actions
    ⟨_, _, S.holds_init⟩ hexp
  · obtain ⟨σ, r, h⟩ := h
    exact h.keptSignedIn
  · obtain ⟨σ, r, h⟩ := h
    exact step_holds h a he hc
  · obtain ⟨σ, r, h⟩ := h
    cases a with
    | present i replacement now =>
      obtain ⟨t, ht, hn⟩ : ∃ t, (s.phases i).held = some t ∧ ¬ (_ ∧ _) := by
        simpa only [PresentsStored, not_forall, exists_prop] using hc
      have hp : s.phases i = .hasRead t := by
        cases hp : s.phases i with
        | hasRead t' => rw [hp] at ht; exact congrArg RenewalPhase.hasRead (Option.some.inj ht)
        | _ => rw [hp] at ht; cases ht
      have hfail := h.present_refused hp (fun hh => hn ?_) replacement now
      · rw [hP.1] at hfail
        cases hfail
      · rw [h.stored, hh.1]
        exact ⟨rfl, hh.2 .app, hh.2 .service⟩
    | _ => exact hc trivial

def phone : SignedIn where
  login := .plain
  server := LoginService.loggedIn
  reachable := LoginService.reachable_loggedIn
  session := ⟨"https://rack", "first", "phone", "admin", 3600⟩
  row := LoginService.firstRow
  row_mem := LoginService.firstRow_mem
  row_hash := LoginService.hash_firstRow
  row_unrevoked := rfl

/-- The app renews, and after it the service. -/
theorem always_keptSignedIn_inTurn : Run.Always phone.step phone.KeptSignedIn phone.init
    [.read .app, .present .app "second" 60, .write .app,
     .read .service, .present .service "third" 120, .reread, .write .service] :=
  (always_keptSignedIn_iff phone _ (by decide +kernel)).2 (by decide +kernel)

/-- Both isolates read the token before either presents it, and the service, which comes second,
clears the store. -/
theorem secondRenewal_clears : ¬ ∀ (S : SignedIn) (actions : List Action),
    Run.Meets S.step S.NotExpired S.init actions →
      Run.Always S.step S.KeptSignedIn S.init actions := fun h =>
  absurd (h phone [.read .app, .read .service, .present .app "second" 60, .write .app,
    .present .service "third" 60, .clear .service] (by decide +kernel)) (by decide +kernel)

end SignedIn

end Rackphone
