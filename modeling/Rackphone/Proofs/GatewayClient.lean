import Rackphone.GatewayClient
import Rackphone.Proofs.Renewal

/-!
# Renewal is single-flight

A call that was given the stored token goes on in the same step, so it finds the renewal running
that is about to replace the token, or there is none and the token is the last one the server gave
out. A token the server has accepted is in its table, and a token it gives out is not, so no
accepted token is ever the stored one again.
-/

namespace Rackphone

namespace LoginService

open AuthStore

/-- What a refresh leaves of the hashes, and the token it gives out. -/
theorem refresh_hashes {L : LoginService} {s s' : AuthStore} {token replacement : String} {now : ℤ}
    {out : Except IntegrityError (Except RefusalReason Tokens)}
    (h : L.refresh s token replacement now = (s', out)) :
    s.hashes ⊆ s'.hashes ∧ ∀ tokens, out = .ok (.ok tokens) → tokens.refresh = replacement
      ∧ L.hashToken replacement ∉ s.hashes ∧ L.hashToken token ∈ s.hashes := by
  unfold refresh resolveRefresh at h
  rcases hsel : s.selectLive (L.hashToken token) now with _ | row
  · simp only [hsel, Prod.mk.injEq] at h
    obtain ⟨rfl, rfl⟩ := h
    exact ⟨List.Subset.refl _, fun tokens ht => by simp at ht⟩
  · obtain ⟨hrow, hhash, -⟩ := selectLive_eq_some.1 hsel
    have htouch : (s.touch row.id now).hashes = s.hashes := hashes_update
    simp only [hsel] at h
    rcases hrot : (s.touch row.id now).rotateRefresh (L.hashToken token) (L.hashToken replacement)
        now L.refreshTtlSeconds with e | ⟨s₁, id⟩
    · simp only [hrot, Prod.mk.injEq] at h
      obtain ⟨rfl, rfl⟩ := h
      exact ⟨htouch ▸ List.Subset.refl _, fun tokens ht => by simp at ht⟩
    · rcases rotateRefresh_eq_ok hrot with ⟨-, rfl, rfl⟩ | ⟨row', i, -, hins, rfl⟩
      · simp only [hrot, Prod.mk.injEq] at h
        obtain ⟨rfl, rfl⟩ := h
        exact ⟨htouch ▸ List.Subset.refl _, fun tokens ht => by simp at ht⟩
      · simp only [hrot, Prod.mk.injEq] at h
        obtain ⟨rfl, rfl⟩ := h
        obtain ⟨hrows, -, hnew⟩ := insert_eq_ok hins
        have hsup : ((s.touch row.id now).supersede row'.id now).hashes = s.hashes :=
          hashes_update.trans htouch
        have hsub : ((s.touch row.id now).supersede row'.id now).hashes ⊆ s₁.hashes := by
          unfold hashes
          rw [hrows, List.map_append]
          exact List.subset_append_left _ _
        rw [hsup] at hnew hsub
        refine ⟨hsub, fun tokens ht => ⟨?_, hnew, hhash ▸ List.mem_map_of_mem hrow⟩⟩
        simp only [Except.ok.injEq] at ht
        rw [← ht]
        rfl

end LoginService

theorem AuthStore.hashes_subset_call (s : AuthStore) (now : ℤ) (op : AuthStore.Op) :
    s.hashes ⊆ (s.call now op).hashes := by
  intro h hmem
  obtain ⟨r, hr, rfl⟩ := List.mem_map.1 hmem
  obtain ⟨r', hr', -, hh, -⟩ := AuthStore.persists_call hr now op
  exact hh ▸ List.mem_map_of_mem hr'

namespace GatewayClient

variable {L : LoginService} {s : GatewayClient}

/-! ## The calls -/

/-- Not sent for a second time, and with no result. -/
def Early (c : ClientCall) : Prop :=
  c.phase ≠ .retried ∧ c.phase ≠ .returned ∧ c.phase ≠ .failed

/-- The calls where `running` is the number of the renewal, if there is one. -/
structure Calls (calls : List ClientCall) (running : Option ℕ) (answered : List Presentation) :
    Prop where
  early : ∀ c ∈ calls, Early c → c.sends ≤ 1
  retried : ∀ c ∈ calls, c.sends ≤ 2
  awaited : ∀ c ∈ calls, ∀ n, c.phase = .waiting n → running = some n
  seen : ∀ c ∈ calls, ∀ saw ∈ c.saw, (answered[saw.1]?).map Presentation.outcome = some saw.2

namespace Calls

variable {calls : List ClientCall} {running running' : Option ℕ} {answered : List Presentation}
  {c : ClientCall}

theorem concat (h : Calls calls running answered) (hsends : c.sends ≤ 1)
    (hphase : ∀ n, c.phase ≠ .waiting n) (hsaw : c.saw = none) :
    Calls (calls ++ [c]) running answered := by
  have hsplit : ∀ d ∈ calls ++ [c], d ∈ calls ∨ d = c := fun d hd =>
    (List.mem_append.1 hd).imp_right List.mem_singleton.1
  refine ⟨fun d hd he => ?_, fun d hd => ?_, fun d hd n hn => ?_, fun d hd saw hs => ?_⟩ <;>
    rcases hsplit d hd with hd | rfl
  · exact h.early d hd he
  · exact hsends
  · exact h.retried d hd
  · exact hsends.trans one_le_two
  · exact h.awaited d hd n hn
  · exact absurd hn (hphase n)
  · exact h.seen d hd saw hs
  · exact absurd hs (by simp [hsaw])

theorem set (h : Calls calls running answered) {i : ℕ} (hi : calls[i]? = some c)
    {phase : CallPhase} (hrunning : ∀ n, running = some n → running' = some n)
    (hphase : ∀ n, phase = .waiting n → running' = some n)
    (hearly : Early { c with phase } → Early c) :
    Calls (calls.set i { c with phase }) running' answered := by
  have hc : c ∈ calls := List.mem_of_getElem? hi
  refine ⟨fun d hd he => ?_, fun d hd => ?_, fun d hd n hn => ?_, fun d hd saw hs => ?_⟩ <;>
    rcases List.mem_or_eq_of_mem_set hd with hd | rfl
  · exact h.early d hd he
  · exact h.early c hc (hearly he)
  · exact h.retried d hd
  · exact h.retried c hc
  · exact hrunning n (h.awaited d hd n hn)
  · exact hphase n hn
  · exact h.seen d hd saw hs
  · exact h.seen c hc saw hs

theorem answer (h : Calls calls running answered) (p : Presentation) :
    Calls calls running (answered ++ [p]) := by
  refine ⟨h.early, h.retried, h.awaited, fun c hc saw hs => ?_⟩
  have hseen := h.seen c hc saw hs
  obtain ⟨q, hq, -⟩ := Option.map_eq_some_iff.1 hseen
  rwa [List.getElem?_append_left (List.getElem?_eq_some_iff.1 hq).1]

/-- The renewal is over: every call that waited for it goes on with its outcome. -/
theorem settle {n : ℕ} (h : Calls calls (some n) answered) {outcome : RenewalOutcome}
    (hn : (answered[n]?).map Presentation.outcome = some outcome) :
    Calls (calls.map (resumed n outcome)) none answered := by
  refine ⟨fun d hd he => ?_, fun d hd => ?_, fun d hd m hm => ?_, fun d hd saw hs => ?_⟩ <;>
    obtain ⟨c, hc, rfl⟩ := List.mem_map.1 hd
  · unfold resumed at he ⊢
    split_ifs at he ⊢ with hw
    · rcases outcome with e | tokens
      · exact absurd rfl he.2.2
      · rcases hk : c.kind <;> simp only [hk] at he ⊢
        · exact absurd rfl he.1
        · exact absurd rfl he.2.1
    · exact h.early c hc he
  · have hearly : c.phase = .waiting n → c.sends ≤ 1 := fun hw =>
      h.early c hc (by simp [Early, hw])
    have htwice := h.retried c hc
    unfold resumed
    split_ifs with hw
    · have honce := hearly hw
      rcases outcome with e | tokens
      · exact htwice
      · rcases c.kind
        · exact Nat.succ_le_succ honce
        · exact htwice
    · exact htwice
  · unfold resumed at hm
    split_ifs at hm with hw
    · rcases outcome with e | tokens
      · simp at hm
      · rcases hk : c.kind <;> simp [hk] at hm
    · obtain rfl := Option.some.inj (h.awaited c hc m hm)
      exact absurd hm hw
  · unfold resumed at hs
    split_ifs at hs with hw
    · have hsaw : saw = (n, outcome) := by
        rcases outcome with e | tokens
        · exact (Option.some.inj hs).symm
        · rcases hk : c.kind <;> simp only [hk] at hs <;> exact (Option.some.inj hs).symm
      rw [hsaw]
      exact hn
    · exact h.seen c hc saw hs

end Calls

/-! ## The store's operations -/

def written : StoreOperation → Option StoredSession
  | .write session => some session
  | .read _ => none

def asked : StoreOperation → Option ℕ
  | .read i => some i
  | .write _ => none

/-- Every read is asked for by a call of its own, which waits for it. -/
structure Reads (operations : List StoreOperation) (calls : List ClientCall) : Prop where
  nodup : (operations.filterMap asked).Nodup
  reading : ∀ i ∈ operations.filterMap asked, ∃ c, calls[i]? = some c ∧ c.phase = .reading

namespace Reads

variable {operations operations' : List StoreOperation} {calls : List ClientCall}
  {c d : ClientCall} {i : ℕ}

theorem not_mem (h : Reads operations calls) (hi : calls[i]? = some c) (hc : c.phase ≠ .reading) :
    i ∉ operations.filterMap asked := by
  intro hmem
  obtain ⟨c', hi', hphase⟩ := h.reading i hmem
  rw [hi] at hi'
  exact hc (Option.some.inj hi' ▸ hphase)

theorem same (h : Reads operations calls)
    (hw : operations'.filterMap asked = operations.filterMap asked) : Reads operations' calls :=
  ⟨hw ▸ h.nodup, fun i hi => h.reading i (hw ▸ hi)⟩

theorem set (h : Reads operations calls) (hi : i ∉ operations.filterMap asked) :
    Reads operations (calls.set i d) := by
  refine ⟨h.nodup, fun j hj => ?_⟩
  have hne : i ≠ j := fun he => hi (he ▸ hj)
  rw [List.getElem?_set_ne hne]
  exact h.reading j hj

theorem concat (h : Reads operations calls) : Reads operations (calls ++ [c]) := by
  refine ⟨h.nodup, fun i hi => ?_⟩
  obtain ⟨d, hd, hphase⟩ := h.reading i hi
  exact ⟨d, by rw [List.getElem?_append_left (List.getElem?_eq_some_iff.1 hd).1, hd], hphase⟩

theorem resumed (h : Reads operations calls) (n : ℕ) (outcome : RenewalOutcome) :
    Reads operations (calls.map (resumed n outcome)) := by
  refine ⟨h.nodup, fun i hi => ?_⟩
  obtain ⟨c, hc, hphase⟩ := h.reading i hi
  refine ⟨c, ?_, hphase⟩
  simp [hc, GatewayClient.resumed, hphase]

/-- A call that did not wait for a read asks for one. -/
theorem ask (h : Reads operations calls) (hi : i ∉ operations.filterMap asked)
    (hc : calls[i]? = some c) (hphase : c.phase = .reading) :
    Reads (operations ++ [.read i]) calls := by
  have hasked : (operations ++ [StoreOperation.read i]).filterMap asked
      = operations.filterMap asked ++ [i] := by
    rw [List.filterMap_append]
    rfl
  refine ⟨?_, fun j hj => ?_⟩
  · rw [hasked]
    exact h.nodup.append (List.nodup_singleton i) (List.disjoint_singleton.2 hi)
  · rw [hasked] at hj
    rcases List.mem_append.1 hj with hj | hj
    · exact h.reading j hj
    · rw [List.mem_singleton.1 hj]
      exact ⟨c, hc, hphase⟩

theorem pop {rest : List StoreOperation} (h : Reads (.read i :: rest) calls) :
    Reads rest calls ∧ i ∉ rest.filterMap asked
      ∧ ∃ c, calls[i]? = some c ∧ c.phase = .reading := by
  obtain ⟨hnot, hnodup⟩ := List.nodup_cons.1 h.nodup
  exact ⟨⟨hnodup, fun j hj => h.reading j (List.mem_cons_of_mem i hj)⟩, hnot,
    h.reading i List.mem_cons_self⟩

end Reads

/-! ## The tokens -/

/-- No presentation of the token was accepted. -/
def Fresh (answered : List Presentation) (token : String) : Prop :=
  ∀ p ∈ answered, p.token = token → p.Refused

section Standing

variable (L) (hashes : List String) (stored : String) (operations : List StoreOperation)
  (answered : List Presentation)

/-- Nothing is written, and the token that is presented is the stored one, never accepted. -/
structure Presents (n : ℕ) (token : String) : Prop where
  number : n = answered.length
  token_eq : token = stored
  fresh : Fresh answered token
  writes : operations.filterMap written = []

/-- Where the renewal is, with the store's operations and the tokens. -/
def Standing : Option RunningRenewal → Prop
  | none => Fresh answered stored ∧ operations.filterMap written = []
  | some ⟨n, token, .presented⟩ => Presents stored operations answered n token
  | some ⟨n, token, .handled outcome⟩ => Presents stored operations answered n token
    ∧ ∀ tokens, outcome = .ok tokens →
      L.hashToken token ∈ hashes ∧ Fresh answered tokens.refresh ∧ token ≠ tokens.refresh
  | some ⟨n, token, .persisting tokens⟩ => answered[n]? = some ⟨token, .ok tokens⟩
    ∧ Fresh answered tokens.refresh
    ∧ ∃ session, operations.filterMap written = [session] ∧ session.refreshToken = tokens.refresh

end Standing

variable (L) in
structure Inv (s : GatewayClient) : Prop where
  once : s.answered.Pairwise fun p q => p.token = q.token → p.Refused
  accepted : ∀ p ∈ s.answered, p.Refused ∨ L.hashToken p.token ∈ s.server.hashes
  standing : Standing L s.server.hashes s.stored.refreshToken s.operations s.answered s.renewal
  calls : Calls s.calls (s.renewal.map RunningRenewal.number) s.answered
  reads : Reads s.operations s.calls

theorem inv_start (server : AuthStore) (session : StoredSession) :
    Inv L (start server session) where
  once := List.Pairwise.nil
  accepted _ h := absurd h List.not_mem_nil
  standing := ⟨fun _ h => absurd h List.not_mem_nil, rfl⟩
  calls := ⟨fun _ h => absurd h List.not_mem_nil, fun _ h => absurd h List.not_mem_nil,
    fun _ h => absurd h List.not_mem_nil, fun _ h => absurd h List.not_mem_nil⟩
  reads := ⟨List.nodup_nil, fun _ h => absurd h List.not_mem_nil⟩

/-- Operations that write the same leave the renewal where it is. -/
theorem Standing.operations {hashes : List String} {stored : String}
    {operations operations' : List StoreOperation} {answered : List Presentation}
    {renewal : Option RunningRenewal} (h : Standing L hashes stored operations answered renewal)
    (hw : operations'.filterMap written = operations.filterMap written) :
    Standing L hashes stored operations' answered renewal := by
  rcases renewal with _ | ⟨n, token, _ | outcome | tokens⟩
  · exact ⟨h.1, hw.trans h.2⟩
  · exact ⟨h.number, h.token_eq, h.fresh, hw.trans h.writes⟩
  · exact ⟨⟨h.1.number, h.1.token_eq, h.1.fresh, hw.trans h.1.writes⟩, h.2⟩
  · obtain ⟨hn, hfresh, session, hwrite, hsame⟩ := h
    exact ⟨hn, hfresh, session, hw.trans hwrite, hsame⟩

theorem Standing.hashes {hashes hashes' : List String} {stored : String}
    {operations : List StoreOperation} {answered : List Presentation}
    {renewal : Option RunningRenewal} (h : Standing L hashes stored operations answered renewal)
    (hsub : hashes ⊆ hashes') : Standing L hashes' stored operations answered renewal := by
  rcases renewal with _ | ⟨n, token, _ | outcome | tokens⟩
  · exact h
  · exact h
  · exact ⟨h.1, fun tokens ht => ⟨hsub (h.2 tokens ht).1, (h.2 tokens ht).2⟩⟩
  · exact h

/-- The calls move on and the store is asked to read. -/
theorem Inv.frame (h : Inv L s) {calls : List ClientCall} {operations : List StoreOperation}
    (hcalls : Calls calls (s.renewal.map RunningRenewal.number) s.answered)
    (hw : operations.filterMap written = s.operations.filterMap written)
    (hreads : Reads operations calls) : Inv L { s with calls, operations } :=
  ⟨h.once, h.accepted, h.standing.operations hw, hcalls, hreads⟩

theorem Inv.setCall (h : Inv L s) {i : ℕ} {c : ClientCall} (hi : s.calls[i]? = some c)
    (hasked : i ∉ s.operations.filterMap asked) {phase : CallPhase}
    (hphase : ∀ n, phase = .waiting n → s.renewal.map RunningRenewal.number = some n)
    (hearly : Early { c with phase } → Early c) : Inv L (s.setCall i { c with phase }) :=
  h.frame (h.calls.set hi (fun _ hn => hn) hphase hearly) rfl (h.reads.set hasked)

/-- A call that has the stored token joins the renewal, or presents the token for the first time
since the server gave it out. -/
theorem Inv.provided (h : Inv L s) {i : ℕ} {c : ClientCall} (hi : s.calls[i]? = some c)
    (hasked : i ∉ s.operations.filterMap asked) (hearly : Early c) :
    Inv L (s.provided i c s.stored.refreshToken) := by
  unfold GatewayClient.provided
  split_ifs
  · split <;> exact h.setCall hi hasked (fun n hn => by cases hn) fun _ => hearly
  · unfold renewOnce
    rcases hr : s.renewal with _ | running
    · have hstand := h.standing
      have hcalls := h.calls
      rw [hr] at hstand hcalls
      have hset : Calls (s.calls.set i { c with phase := .waiting s.answered.length })
          (some s.answered.length) s.answered :=
        hcalls.set hi (fun n hn => by cases hn)
          (fun n hn => congrArg some (CallPhase.waiting.inj hn)) fun _ => hearly
      exact ⟨h.once, h.accepted, ⟨rfl, rfl, hstand.1, hstand.2⟩, hset, h.reads.set hasked⟩
    · refine h.setCall hi hasked (fun n hn => ?_) fun _ => hearly
      rw [hr, ← CallPhase.waiting.inj hn]
      rfl

theorem Fresh.concat {answered : List Presentation} {token : String} (h : Fresh answered token)
    {p : Presentation} (hp : p.token = token → p.Refused) : Fresh (answered ++ [p]) token := by
  intro q hq
  rcases List.mem_append.1 hq with hq | hq
  · exact h q hq
  · exact List.mem_singleton.1 hq ▸ hp

theorem once_concat {answered : List Presentation} {p : Presentation}
    (h : answered.Pairwise fun p q => p.token = q.token → p.Refused) (hp : Fresh answered p.token) :
    (answered ++ [p]).Pairwise fun p q => p.token = q.token → p.Refused := by
  refine List.pairwise_append.2 ⟨h, List.pairwise_singleton _ _, fun q hq r hr he => ?_⟩
  rw [List.mem_singleton.1 hr] at he
  exact hp q hq he

theorem endpoint_hashes {server : AuthStore} {token replacement : String} {now : ℤ} :
    server.hashes ⊆ (endpoint L server token replacement now).1.hashes ∧
      ∀ tokens, (endpoint L server token replacement now).2 = .ok tokens →
        tokens.refresh = replacement ∧ L.hashToken replacement ∉ server.hashes
          ∧ L.hashToken token ∈ server.hashes := by
  rcases h : L.refresh server token replacement now with ⟨server', e | e | tokens⟩
  · refine ⟨?_, fun tokens ht => ?_⟩
    · simpa only [endpoint, h] using (LoginService.refresh_hashes h).1
    · simp [endpoint, h] at ht
  · refine ⟨?_, fun tokens ht => ?_⟩
    · simpa only [endpoint, h] using (LoginService.refresh_hashes h).1
    · simp [endpoint, h] at ht
  · obtain ⟨hsub, hnew⟩ := LoginService.refresh_hashes h
    refine ⟨by simpa only [endpoint, h] using hsub, fun tokens' ht => ?_⟩
    simp only [endpoint, h, Except.ok.injEq] at ht
    exact ht ▸ hnew tokens rfl

/-- The server handles the refresh: a token it gives out is not in its table, and every token it
accepted is. -/
theorem Inv.handle (h : Inv L s) {n : ℕ} {token : String}
    (hr : s.renewal = some ⟨n, token, .presented⟩) (replacement : String) (now : ℤ) :
    Inv L { s with
      server := (endpoint L s.server token replacement now).1
      renewal := some ⟨n, token, .handled (endpoint L s.server token replacement now).2⟩ } := by
  obtain ⟨hsub, hnew⟩ := @endpoint_hashes L s.server token replacement now
  have hstand := h.standing
  have hcalls := h.calls
  rw [hr] at hstand hcalls
  refine ⟨h.once, fun p hp => (h.accepted p hp).imp_right fun hmem => hsub hmem,
    ⟨hstand, fun tokens ht => ?_⟩, hcalls, h.reads⟩
  obtain ⟨rfl, hout, hin⟩ := hnew tokens ht
  refine ⟨hsub hin, fun p hp he => ?_, fun he => hout (he ▸ hin)⟩
  exact (h.accepted p hp).resolve_right fun hmem => hout (he ▸ hmem)

theorem Inv.turnAway (h : Inv L s) {n : ℕ} {token : String}
    (hr : s.renewal = some ⟨n, token, .presented⟩) (status : ℕ) :
    Inv L { s with renewal := some ⟨n, token, .handled (.error status)⟩ } := by
  have hstand := h.standing
  have hcalls := h.calls
  rw [hr] at hstand hcalls
  exact ⟨h.once, h.accepted, ⟨hstand, fun tokens ht => absurd ht (by simp)⟩, hcalls, h.reads⟩

/-- The answer arrives. -/
theorem Inv.receive (h : Inv L s) {n : ℕ} {token : String} {outcome : RenewalOutcome}
    (hr : s.renewal = some ⟨n, token, .handled outcome⟩) :
    Inv L (s.receive ⟨n, token, .handled outcome⟩ outcome) := by
  have hstand := h.standing
  have hcalls := h.calls
  rw [hr] at hstand hcalls
  obtain ⟨⟨rfl, rfl, hfresh, hwrites⟩, hok⟩ := hstand
  have hlast : ∀ p : Presentation, (s.answered ++ [p])[s.answered.length]? = some p := by simp
  have honce := once_concat h.once (show Fresh s.answered
    (Presentation.mk s.stored.refreshToken outcome).token from hfresh)
  have haccepted : ∀ p ∈ s.answered ++ [Presentation.mk s.stored.refreshToken outcome],
      p.Refused ∨ L.hashToken p.token ∈ s.server.hashes := by
    intro p hp
    rcases List.mem_append.1 hp with hp | hp
    · exact h.accepted p hp
    · rw [List.mem_singleton.1 hp]
      rcases outcome with status | tokens
      · exact .inl ⟨status, rfl⟩
      · exact .inr (hok tokens rfl).1
  unfold GatewayClient.receive
  rcases outcome with status | tokens
  · refine ⟨honce, haccepted, ⟨hfresh.concat fun _ => ⟨status, rfl⟩, hwrites⟩, ?_,
      h.reads.resumed _ _⟩
    exact (hcalls.answer _).settle (by simp)
  · obtain ⟨-, hnew, hne⟩ := hok tokens rfl
    refine ⟨honce, haccepted, ⟨hlast _, hnew.concat fun he => absurd he hne,
      s.session.renewed tokens, ?_, rfl⟩, hcalls.answer _, h.reads.same ?_⟩
    · simp [hwrites, written]
    · simp [asked]

/-- The store completes the write: it holds the token the server gave out. -/
theorem Inv.write (h : Inv L s) {session : StoredSession} {rest : List StoreOperation}
    (hops : s.operations = .write session :: rest) : Inv L (s.step L .complete) := by
  have hstand := h.standing
  have hcalls := h.calls
  have hhead : s.operations.filterMap written = session :: rest.filterMap written := by
    rw [hops]
    rfl
  simp only [GatewayClient.step, hops]
  rcases hr : s.renewal with _ | ⟨n, token, _ | outcome | tokens⟩ <;> rw [hr] at hstand hcalls
  · exact absurd (hhead.symm.trans hstand.2) (by simp)
  · exact absurd (hhead.symm.trans hstand.writes) (by simp)
  · exact absurd (hhead.symm.trans hstand.1.writes) (by simp)
  · obtain ⟨hn, hfresh, session', hwrite, hsame⟩ := hstand
    obtain ⟨rfl, hnone⟩ := List.cons.inj (hhead.symm.trans hwrite)
    refine ⟨h.once, h.accepted, ⟨hsame ▸ hfresh, hnone⟩, ?_, ?_⟩
    · exact hcalls.settle (by rw [hn]; rfl)
    · have hreads : Reads rest s.calls := h.reads.same (by rw [hops]; rfl)
      exact hreads.resumed _ _

/-- The store completes the read: the call it was for goes on with the stored token. -/
theorem Inv.read (h : Inv L s) {i : ℕ} {rest : List StoreOperation}
    (hops : s.operations = .read i :: rest) : Inv L (s.step L .complete) := by
  obtain ⟨hreads, hasked, c, hi, hphase⟩ := Reads.pop (hops ▸ h.reads)
  have hrest : Inv L { s with operations := rest } := h.frame h.calls (by rw [hops]; rfl)
    hreads
  have hearly : Early c := by simp [Early, hphase]
  simp only [GatewayClient.step, hops, hi]
  exact hrest.provided hi hasked hearly

theorem Inv.respond (h : Inv L s) (i status : ℕ) : Inv L (s.step L (.respond i status)) := by
  simp only [GatewayClient.step]
  rcases hi : s.calls[i]? with _ | c
  · exact h
  · rcases hphase : c.phase <;> simp only [hphase]
    case sent =>
      have hasked := h.reads.not_mem hi (by simp [hphase])
      refine h.setCall hi hasked (fun n hn => ?_) fun _ => by simp [Early, hphase]
      split_ifs at hn
    case retried =>
      have hasked := h.reads.not_mem hi (by simp [hphase])
      refine h.setCall hi hasked (fun n hn => ?_) fun he => ?_
      · split_ifs at hn
      · simp only [Early] at he
        split_ifs at he <;> simp at he
    all_goals exact h

theorem Inv.drained (h : Inv L s) (i : ℕ) : Inv L (s.step L (.drained i)) := by
  simp only [GatewayClient.step]
  rcases hi : s.calls[i]? with _ | c
  · exact h
  · simp only
    split_ifs with hphase
    · have hasked := h.reads.not_mem hi (by simp [hphase])
      have hget : (s.calls.set i { c with phase := .reading })[i]?
          = some { c with phase := .reading } := by
        rw [List.getElem?_set_self (List.getElem?_eq_some_iff.1 hi).1]
      refine h.frame (h.calls.set hi (fun _ hn => hn) (fun n hn => by cases hn)
        fun _ => ?_) ?_ ((h.reads.set hasked).ask hasked hget rfl)
      · simp [Early, hphase]
      · simp [written]
    · exact h

theorem Inv.step (h : Inv L s) (a : Action) : Inv L (s.step L a) := by
  cases a with
  | request =>
    exact h.frame (h.calls.concat le_rfl (fun n hn => by cases hn) rfl) rfl h.reads.concat
  | openSocket =>
    have hasked : s.calls.length ∉ s.operations.filterMap asked := fun hmem => by
      obtain ⟨c, hc, -⟩ := h.reads.reading _ hmem
      exact absurd (List.getElem?_eq_some_iff.1 hc).1 (lt_irrefl _)
    refine h.frame (h.calls.concat (Nat.zero_le _) (fun n hn => by cases hn) rfl) ?_
      (h.reads.concat.ask hasked (List.getElem?_concat_length) rfl)
    simp [written]
  | respond i status => exact h.respond i status
  | drained i => exact h.drained i
  | complete =>
    rcases hops : s.operations with _ | ⟨i | session, rest⟩
    · simpa only [GatewayClient.step, hops] using h
    · exact h.read hops
    · exact h.write hops
  | handle replacement now =>
    simp only [GatewayClient.step]
    rcases hr : s.renewal with _ | ⟨n, token, _ | outcome | tokens⟩
    · exact h
    · exact h.handle hr replacement now
    · exact h
    · exact h
  | turnAway status =>
    simp only [GatewayClient.step]
    rcases hr : s.renewal with _ | ⟨n, token, _ | outcome | tokens⟩
    · exact h
    · exact h.turnAway hr status
    · exact h
    · exact h
  | answer =>
    simp only [GatewayClient.step]
    rcases hr : s.renewal with _ | ⟨n, token, _ | outcome | tokens⟩
    · exact h
    · exact h
    · exact h.receive hr
    · exact h
  | elsewhere now op =>
    have hsub := s.server.hashes_subset_call now op
    exact ⟨h.once, fun p hp => (h.accepted p hp).imp_right fun hmem => hsub hmem,
      h.standing.hashes hsub, h.calls, h.reads⟩

section Hears

variable {calls : List ClientCall} {s' : GatewayClient}

theorem Hears.refl : Hears s s := fun _ c _ hi _ => ⟨c, hi, .inl rfl⟩

end Hears

end GatewayClient

end Rackphone
