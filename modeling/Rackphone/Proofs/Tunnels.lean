import Rackphone.Proofs.Session
import Rackphone.Tunnels

/-!
# When every tunnel is accounted for

A held session's tunnel is recorded and was not removed. A release that resolves its device removes
the recorded tunnel once more, since the table keeps it, and an acquire replaces the record.
-/

namespace Rackphone

namespace Ledger

open SessionManager (Op)

variable {l : Ledger} {unit unit' : String} {now : ℤ}

@[simp] theorem manager_record (e : LogEntry) : (l.record e).manager = l.manager.record e := rfl

@[simp] theorem recorded_record (e : LogEntry) : (l.record e).recorded = l.recorded := rfl

@[simp] theorem opened_record (e : LogEntry) : (l.record e).opened = l.opened := rfl

@[simp] theorem manager_stop (unit serial : String) :
    (l.stop unit serial).manager = l.manager.stop unit serial := rfl

@[simp] theorem recorded_stop (unit serial : String) :
    (l.stop unit serial).recorded = l.recorded := rfl

@[simp] theorem opened_stop (unit serial : String) : (l.stop unit serial).opened = l.opened := rfl

@[simp] theorem recorded_closeTunnel (unit serial : String) (ref : Option TunnelRef) :
    (l.closeTunnel unit serial ref).recorded = l.recorded := by
  cases ref <;> rfl

@[simp] theorem manager_closeTunnel (unit serial : String) (ref : Option TunnelRef) :
    (l.closeTunnel unit serial ref).manager
      = l.manager.closeTunnel unit serial (ref.map TunnelRef.tunnel) := by
  cases ref <;> rfl

theorem opened_closeTunnel (unit serial : String) (ref : Option TunnelRef) :
    (l.closeTunnel unit serial ref).opened
      = ref.elim l.opened fun ref => l.opened.modify ref.id OpenedTunnel.close := by
  cases ref <;> rfl

/-! ### The ledger beside its manager -/

/-- The table says what the manager's says. -/
def Agrees (l : Ledger) : Prop :=
  ∀ unit, l.manager.tunnels.get unit = (l.recorded unit).map TunnelRef.tunnel

/-- The ledger's answer is the manager's. -/
structure Mirrors (r : Ledger × Except AcquireError ScreenSession)
    (r' : SessionManager × Except AcquireError ScreenSession) : Prop where
  manager : r.1.manager = r'.1
  answer : r.2 = r'.2
  agrees : r.1.Agrees

theorem tunnels_closeTunnel (m : SessionManager) (unit serial : String) (tunnel : Option Tunnel) :
    (m.closeTunnel unit serial tunnel).tunnels = m.tunnels := by
  rcases tunnel with _ | ⟨port, _ | remote⟩ <;> rfl

@[simp] theorem recorded_releaseLocked (lookup : UnitLookup) :
    (l.releaseLocked unit lookup).recorded = l.recorded := by
  unfold releaseLocked
  rcases lookup.cleanupSerial with _ | serial
  · rfl
  · exact recorded_closeTunnel ..

namespace Agrees

theorem record (h : l.Agrees) (e : LogEntry) : (l.record e).Agrees := h

theorem add (h : l.Agrees) (unit : String) (tunnel : Tunnel) : (l.add unit tunnel).1.Agrees := h

theorem manager_releaseLocked (h : l.Agrees) (unit : String) (lookup : UnitLookup) :
    (l.releaseLocked unit lookup).manager = l.manager.releaseLocked unit lookup := by
  unfold Ledger.releaseLocked SessionManager.releaseLocked
  rcases lookup.cleanupSerial with _ | serial
  · rfl
  · simp only [manager_stop, manager_closeTunnel, ← h unit]

theorem releaseLocked (h : l.Agrees) (unit : String) (lookup : UnitLookup) :
    (l.releaseLocked unit lookup).Agrees := by
  intro u
  rw [recorded_releaseLocked, h.manager_releaseLocked, ← h u]
  unfold SessionManager.releaseLocked
  rcases lookup.cleanupSerial with _ | serial
  · rfl
  · exact congrArg (fun d => d.get u) (tunnels_closeTunnel ..)

theorem abandon (h : l.Agrees) (unit serial : String) (ref : Option TunnelRef) :
    Mirrors (l.abandon unit serial ref)
      (l.manager.abandon unit serial (ref.map TunnelRef.tunnel)) := by
  refine ⟨by simp [Ledger.abandon, SessionManager.abandon], rfl, fun u => ?_⟩
  simp only [Ledger.abandon, manager_stop, manager_closeTunnel, recorded_stop, recorded_closeTunnel,
    ← h u]
  exact congrArg (fun d => d.get u) (tunnels_closeTunnel ..)

theorem establish (h : l.Agrees) (unit holder : String) (now : ℤ) (ref : TunnelRef) :
    Mirrors (l.establish unit holder now ref)
      (l.manager.establish unit holder now ref.tunnel) := by
  refine ⟨rfl, rfl, fun u => ?_⟩
  simp only [Ledger.establish, SessionManager.establish, Dict.get_set]
  by_cases hu : u = unit
  · subst hu
    rw [if_pos rfl, Function.update_self, Option.map_some]
  · rw [if_neg hu, Function.update_of_ne hu]
    exact h u

theorem startDevice (h : l.Agrees) (unit holder serial socketId remote : String) (now : ℤ)
    (ref : Option TunnelRef) (env : AcquireEnv) :
    Mirrors (l.startDevice unit holder serial socketId remote now ref env)
      (l.manager.startDevice unit holder serial socketId remote now (ref.map TunnelRef.tunnel)
        env) := by
  unfold Ledger.startDevice SessionManager.startDevice
  have hstart := h.record (.call unit serial (.start l.manager.plugin socketId))
  have hforward := hstart.record (.call unit serial (.forward remote))
  by_cases hs : env.start = true
  · simp only [if_pos hs]
    rcases ref with _ | ref
    · rcases env.forward with _ | port
      · exact hforward.abandon unit serial none
      · exact (hforward.add unit ⟨port, none⟩).establish unit holder now _
    · exact hstart.establish unit holder now ref
  · simp only [if_neg hs]
    exact hstart.abandon unit serial ref

theorem acquireFree (h : l.Agrees) (unit holder : String) (now : ℤ) (env : AcquireEnv) :
    Mirrors (l.acquireFree unit holder now env) (l.manager.acquireFree unit holder now env) := by
  unfold Ledger.acquireFree SessionManager.acquireFree
  rcases env.lookup.serial with _ | serial
  · exact ⟨rfl, rfl, h⟩
  · unfold Ledger.openTunnel SessionManager.openTunnel
    by_cases hr : l.manager.reverse = true
    · simp only [if_pos hr]
      rcases env.port with _ | port
      · exact ⟨rfl, rfl, h⟩
      · by_cases hreverse : env.reverse = true
        · simp only [if_pos hreverse]
          exact ((h.record _).add unit ⟨port, some _⟩).startDevice unit holder serial _ _ now
            (some _) env
        · simp only [if_neg hreverse]
          exact ⟨rfl, rfl, h⟩
    · simp only [if_neg hr]
      exact h.startDevice unit holder serial _ _ now none env

theorem acquire (h : l.Agrees) (unit holder : String) (now : ℤ) (env : AcquireEnv) :
    Mirrors (l.acquire unit holder now env) (l.manager.acquire unit holder now env) := by
  unfold Ledger.acquire SessionManager.acquire
  rcases l.manager.sessions.get unit with _ | current
  · exact h.acquireFree unit holder now env
  · by_cases hst : current.Stale now
    · simp only [if_pos hst]
      rw [← h.manager_releaseLocked]
      exact (h.releaseLocked unit env.stale).acquireFree unit holder now env
    · simp only [if_neg hst]
      exact ⟨rfl, rfl, h⟩

theorem heartbeat (h : l.Agrees) (unit : String) (now : ℤ) (holder : Option String)
    (lookup : UnitLookup) :
    (l.heartbeat unit now holder lookup).manager = (l.manager.heartbeat unit now holder lookup).1
      ∧ (l.heartbeat unit now holder lookup).Agrees := by
  unfold Ledger.heartbeat SessionManager.heartbeat
  rcases l.manager.sessions.get unit with _ | current
  · exact ⟨rfl, h⟩
  · by_cases hh : ∃ h, holder = some h ∧ current.holder ≠ h
    · simp only [if_pos hh, true_and]
      exact h
    · by_cases hst : current.Stale now
      · simp only [if_neg hh, if_pos hst]
        exact ⟨h.manager_releaseLocked unit lookup, h.releaseLocked unit lookup⟩
      · simp only [if_neg hh, if_neg hst, true_and]
        exact h

theorem reap (now : ℤ) (lookups : String → UnitLookup) (h : l.Agrees) :
    (l.reap now lookups).manager = l.manager.reap now lookups ∧ (l.reap now lookups).Agrees := by
  unfold Ledger.reap SessionManager.reap
  generalize l.manager.staleUnits now = units
  induction units generalizing l with
  | nil => exact ⟨rfl, h⟩
  | cons unit units ih =>
    rw [List.foldl_cons, List.foldl_cons, ← h.manager_releaseLocked]
    exact ih (h.releaseLocked unit (lookups unit))

/-- Kept beside it or not, a manager does the same. -/
theorem step (h : l.Agrees) (now : ℤ) (op : Op) :
    (l.step (now, op)).manager = l.manager.call now op ∧ (l.step (now, op)).Agrees := by
  cases op with
  | acquire unit holder env =>
    exact ⟨(h.acquire unit holder now env).manager, (h.acquire unit holder now env).agrees⟩
  | heartbeat unit holder lookup => exact h.heartbeat unit now holder lookup
  | release unit lookup => exact ⟨h.manager_releaseLocked unit lookup, h.releaseLocked unit lookup⟩
  | takeOver unit holder lookup env =>
    have hacq := (h.releaseLocked unit lookup).acquire unit holder now env
    rw [h.manager_releaseLocked] at hacq
    exact ⟨hacq.manager, hacq.agrees⟩
  | reap lookups => exact h.reap now lookups

end Agrees

/-- The ledger of a run stands beside the manager of the same run. -/
theorem manager_final (plugin socket kind : String) (reverse : Bool) (calls : List (ℤ × Op)) :
    (Run.final step (start plugin socket kind reverse) calls).manager
      = Run.final (fun m (a : ℤ × Op) => m.call a.1 a.2)
        (.opened plugin socket kind reverse) calls :=
  Run.final_simulates (I := Agrees) (fun _ a h => h.step a.1 a.2) calls fun _ => rfl

/-! ### What a call does to the tunnels -/

theorem modify_concat {α : Type*} (xs : List α) (x : α) (f : α → α) :
    (xs ++ [x]).modify xs.length f = xs ++ [f x] := by
  induction xs with
  | nil => rfl
  | cons y ys ih => simpa using ih

/-- An acquire that gets no session leaves no tunnel that was not removed. -/
structure Fails (l l' : Ledger) : Prop where
  sessions : l'.manager.sessions = l.manager.sessions
  recorded : l'.recorded = l.recorded
  opened : l'.opened = l.opened
    ∨ ∃ o, o.removals = 1 ∧ o.listening = false ∧ l'.opened = l.opened ++ [o]

/-- One that gets a session records the tunnel it opened for it. -/
structure Gains (l l' : Ledger) (unit : String) (session : ScreenSession) (tunnel : Tunnel)
    (listening : Bool) : Prop where
  sessions : l'.manager.sessions = l.manager.sessions.set unit session
  localPort : session.localPort = tunnel.port
  recorded : l'.recorded = Function.update l.recorded unit (some ⟨l.opened.length, tunnel⟩)
  opened : l'.opened = l.opened ++ [⟨unit, tunnel, 0, listening⟩]

theorem fails_abandon_add (l : Ledger) (unit serial : String) (tunnel : Tunnel) (e : LogEntry) :
    Fails l (((l.add unit tunnel).1.record e).abandon unit serial (l.add unit tunnel).2).1 := by
  refine ⟨?_, rfl, .inr ⟨(OpenedTunnel.mk unit tunnel 0 tunnel.reverseName.isSome).close, rfl, rfl,
    ?_⟩⟩
  · exact (SessionManager.sessions_stop _ _).trans (SessionManager.sessions_closeTunnel _ _ _)
  · exact modify_concat ..

theorem Fails.of_record {l' : Ledger} {e : LogEntry} (h : Fails (l.record e) l') : Fails l l' :=
  ⟨h.sessions, h.recorded, h.opened⟩

theorem acquireFree_cases (l : Ledger) (unit holder : String) (now : ℤ) (env : AcquireEnv) :
    ¬ env.Succeeds l.manager.reverse ∧ Fails l (l.acquireFree unit holder now env).1
      ∨ env.Succeeds l.manager.reverse ∧ ∃ session tunnel listening,
        Gains l (l.acquireFree unit holder now env).1 unit session tunnel listening := by
  unfold acquireFree AcquireEnv.Succeeds
  rcases env.lookup.serial with _ | serial
  · exact .inl ⟨fun h => h.1 rfl, rfl, rfl, .inl rfl⟩
  · unfold openTunnel
    by_cases hr : l.manager.reverse = true
    · simp only [if_pos hr]
      rcases env.port with _ | port
      · exact .inl ⟨fun h => h.2.2.1 rfl, rfl, rfl, .inl rfl⟩
      · by_cases hreverse : env.reverse = true
        · simp only [if_pos hreverse]
          unfold startDevice
          by_cases hs : env.start = true
          · simp only [if_pos hs]
            exact .inr ⟨⟨nofun, hs, nofun, hreverse⟩, _, _, _, rfl, rfl, rfl, rfl⟩
          · simp only [if_neg hs]
            exact .inl ⟨fun h => hs h.2.1, (fails_abandon_add ..).of_record⟩
        · simp only [if_neg hreverse]
          exact .inl ⟨fun h => hreverse h.2.2.2, rfl, rfl, .inl rfl⟩
    · simp only [if_neg hr]
      unfold startDevice
      by_cases hs : env.start = true
      · simp only [if_pos hs]
        rcases env.forward with _ | port
        · exact .inl ⟨fun h => h.2.2 rfl, rfl, rfl, .inl rfl⟩
        · exact .inr ⟨⟨nofun, hs, nofun⟩, _, _, _, rfl, rfl, rfl, rfl⟩
      · simp only [if_neg hs]
        exact .inl ⟨fun h => hs h.2.1, rfl, rfl, .inl rfl⟩

theorem reverse_closeTunnel (l : Ledger) (unit serial : String) (ref : Option TunnelRef) :
    (l.closeTunnel unit serial ref).manager.reverse = l.manager.reverse := by
  rcases ref with _ | ⟨id, port, _ | remote⟩ <;> rfl

@[simp] theorem sessions_releaseLocked (l : Ledger) (unit : String) (lookup : UnitLookup) :
    (l.releaseLocked unit lookup).manager.sessions = l.manager.sessions.pop unit := by
  unfold releaseLocked
  rcases lookup.cleanupSerial with _ | serial
  · rfl
  · simp

@[simp] theorem reverse_releaseLocked (l : Ledger) (unit : String) (lookup : UnitLookup) :
    (l.releaseLocked unit lookup).manager.reverse = l.manager.reverse := by
  unfold releaseLocked
  rcases lookup.cleanupSerial with _ | serial
  · rfl
  · exact reverse_closeTunnel ..

/-- A release that resolves its device closes the tunnel the table records, and no other. -/
theorem getElem?_releaseLocked (l : Ledger) (unit : String) (lookup : UnitLookup) (id : ℕ) :
    (l.releaseLocked unit lookup).opened[id]? =
      if lookup.Resolves ∧ (l.recorded unit).map TunnelRef.id = some id then
        l.opened[id]?.map OpenedTunnel.close
      else l.opened[id]? := by
  rcases hser : lookup.cleanupSerial with _ | serial
  · rw [if_neg fun h => h.1 hser]
    unfold releaseLocked
    rw [hser]
    rfl
  · have hres : lookup.Resolves := fun h => nomatch hser.symm.trans h
    unfold releaseLocked
    simp only [hser, opened_stop, opened_closeTunnel]
    rcases l.recorded unit with _ | ref
    · exact (if_neg fun h => nomatch h.2).symm
    · by_cases hid : ref.id = id
      · rw [if_pos ⟨hres, congrArg some hid⟩, ← hid]
        exact List.getElem?_modify_eq ..
      · rw [if_neg fun h => hid (Option.some.inj h.2)]
        exact List.getElem?_modify_ne _ _ hid

theorem removed_releaseLocked (l : Ledger) (unit : String) (lookup : UnitLookup) :
    (l.releaseLocked unit lookup).Removed unit ↔ lookup.Resolves ∨ l.Removed unit := by
  simp only [Removed, recorded_releaseLocked, getElem?_releaseLocked]
  by_cases hres : lookup.Resolves
  · refine iff_of_true (fun ref href o ho => ?_) (.inl hres)
    rw [if_pos ⟨hres, by rw [href, Option.map_some]⟩] at ho
    obtain ⟨o', -, rfl⟩ := Option.map_eq_some_iff.1 ho
    exact Nat.succ_pos _
  · simp only [hres, false_and, if_false, false_or]

/-! ### Accounting -/

structure Inv (l : Ledger) : Prop where
  recorded : ∀ unit ref, l.recorded unit = some ref → ∃ o, l.opened[ref.id]? = some o
    ∧ o.unit = unit
  held : ∀ unit session, l.manager.sessions.get unit = some session → ∃ ref o,
    l.recorded unit = some ref ∧ l.opened[ref.id]? = some o ∧ o.removals = 0
      ∧ session.localPort = o.tunnel.port
  kept : ∀ (id : ℕ) (o : OpenedTunnel), l.opened[id]? = some o →
    (l.Recorded id o ∨ 0 < o.removals) ∧ o.removals ≤ 1
  closed : ∀ (id : ℕ) (o : OpenedTunnel), l.opened[id]? = some o → 0 < o.removals →
    o.listening = false

theorem inv_start (plugin socket kind : String) (reverse : Bool) :
    (start plugin socket kind reverse).Inv :=
  ⟨fun _ _ h => (nomatch h), fun _ _ h => (nomatch h), fun _ _ h => (nomatch h),
    fun _ _ h => (nomatch h)⟩

theorem Inv.unremoved {session : ScreenSession} (h : l.Inv)
    (hs : l.manager.sessions.get unit = some session) : l.Unremoved unit := by
  obtain ⟨ref, o, href, ho, hzero, -⟩ := h.held unit session hs
  intro ref' href' o' ho'
  obtain rfl := Option.some.inj (href.symm.trans href')
  obtain rfl := Option.some.inj (ho.symm.trans ho')
  exact hzero

theorem Inv.accounted (h : l.Inv) : l.Accounted := by
  intro id o ho
  obtain ⟨hkept, hle⟩ := h.kept id o ho
  exact ⟨.inr (hkept.imp_right fun hpos => ⟨hpos, h.closed id o ho hpos⟩), hle⟩

theorem Inv.releaseLocked (h : l.Inv) (lookup : UnitLookup)
    (hok : lookup.Resolves → l.Unremoved unit) : (l.releaseLocked unit lookup).Inv where
  recorded u ref href := by
    rw [recorded_releaseLocked] at href
    obtain ⟨o, ho, hu⟩ := h.recorded u ref href
    rw [getElem?_releaseLocked, ho]
    split_ifs
    · exact ⟨o.close, rfl, hu⟩
    · exact ⟨o, rfl, hu⟩
  held u session hs := by
    rw [sessions_releaseLocked, Dict.get_pop] at hs
    split_ifs at hs with hne
    obtain ⟨ref, o, href, ho, hkept⟩ := h.held u session hs
    rw [recorded_releaseLocked]
    refine ⟨ref, o, href, ?_, hkept⟩
    rw [getElem?_releaseLocked, if_neg]
    · exact ho
    · -- two units do not record one tunnel
      rintro ⟨-, hid⟩
      obtain ⟨ref', href', hid'⟩ := Option.map_eq_some_iff.1 hid
      obtain ⟨o₁, ho₁, hu₁⟩ := h.recorded u ref href
      obtain ⟨o₂, ho₂, hu₂⟩ := h.recorded unit ref' href'
      rw [hid', ho₁] at ho₂
      exact hne (hu₁.symm.trans (Option.some.inj ho₂ ▸ hu₂))
  kept id o ho := by
    rw [getElem?_releaseLocked] at ho
    split_ifs at ho with hcond
    · obtain ⟨ref, href, hid⟩ := Option.map_eq_some_iff.1 hcond.2
      obtain ⟨o', ho', rfl⟩ := Option.map_eq_some_iff.1 ho
      have hzero := hok hcond.1 ref href o' (by rw [hid]; exact ho')
      exact ⟨.inr (Nat.succ_pos _), by simp [OpenedTunnel.close, hzero]⟩
    · obtain ⟨hkept, hle⟩ := h.kept id o ho
      refine ⟨hkept.imp_left fun hr => ?_, hle⟩
      unfold Recorded
      rwa [recorded_releaseLocked]
  closed id o ho hpos := by
    rw [getElem?_releaseLocked] at ho
    split_ifs at ho
    · obtain ⟨o', -, rfl⟩ := Option.map_eq_some_iff.1 ho
      rfl
    · exact h.closed id o ho hpos

theorem Inv.lt_length (h : l.Inv) {ref : TunnelRef} (href : l.recorded unit = some ref) :
    ref.id < l.opened.length := by
  obtain ⟨o, ho, -⟩ := h.recorded unit ref href
  exact (List.getElem?_eq_some_iff.1 ho).1

/-- What a record names is the same in a longer list. -/
theorem Inv.opened_recorded {l' : Ledger} (h : l.Inv) (hpre : l.opened <+: l'.opened)
    {ref : TunnelRef} (href : l.recorded unit = some ref) :
    l'.opened[ref.id]? = l.opened[ref.id]? := by
  obtain ⟨more, hmore⟩ := hpre
  rw [← hmore, List.getElem?_append_left (h.lt_length href)]

theorem getElem?_concat_eq_some {α : Type*} {xs : List α} {x y : α} {i : ℕ} :
    (xs ++ [x])[i]? = some y ↔ xs[i]? = some y ∨ i = xs.length ∧ x = y := by
  grind

theorem Fails.opened_prefix {l' : Ledger} (hf : Fails l l') : l.opened <+: l'.opened := by
  rcases hf.opened with he | ⟨o, -, -, he⟩
  · rw [he]
  · rw [he]
    exact List.prefix_append _ _

theorem Fails.opened_cases {l' : Ledger} (hf : Fails l l') {id : ℕ} {o : OpenedTunnel}
    (ho : l'.opened[id]? = some o) :
    l.opened[id]? = some o ∨ o.removals = 1 ∧ o.listening = false := by
  rcases hf.opened with he | ⟨o', hone, hclosed, he⟩
  · exact .inl (by rwa [he] at ho)
  · rw [he] at ho
    rcases getElem?_concat_eq_some.1 ho with ho | ⟨-, rfl⟩
    · exact .inl ho
    · exact .inr ⟨hone, hclosed⟩

theorem Inv.fails {l' : Ledger} (h : l.Inv) (hf : Fails l l') : l'.Inv where
  recorded u ref href := by
    rw [hf.recorded] at href
    rw [h.opened_recorded hf.opened_prefix href]
    exact h.recorded u ref href
  held u session hs := by
    rw [hf.sessions] at hs
    obtain ⟨ref, o, href, ho, hkept⟩ := h.held u session hs
    rw [hf.recorded]
    exact ⟨ref, o, href, (h.opened_recorded hf.opened_prefix href).trans ho, hkept⟩
  kept id o ho := by
    rcases hf.opened_cases ho with ho | ⟨hone, -⟩
    · obtain ⟨hkept, hle⟩ := h.kept id o ho
      refine ⟨hkept.imp_left fun hr => ?_, hle⟩
      unfold Recorded
      rwa [hf.recorded]
    · exact ⟨.inr (by omega), hone.le⟩
  closed id o ho hpos := by
    rcases hf.opened_cases ho with ho | ⟨-, hclosed⟩
    · exact h.closed id o ho hpos
    · exact hclosed

theorem Gains.opened_prefix {l' : Ledger} {session : ScreenSession} {tunnel : Tunnel}
    {listening : Bool} (hg : Gains l l' unit session tunnel listening) :
    l.opened <+: l'.opened := by
  rw [hg.opened]
  exact List.prefix_append _ _

theorem Inv.gains {l' : Ledger} {session : ScreenSession} {tunnel : Tunnel} {listening : Bool}
    (h : l.Inv) (hg : Gains l l' unit session tunnel listening) (hrem : l.Removed unit) :
    l'.Inv := by
  have hlast : l'.opened[l.opened.length]? = some ⟨unit, tunnel, 0, listening⟩ := by
    rw [hg.opened]
    exact List.getElem?_concat_length
  have hself : l'.recorded unit = some ⟨l.opened.length, tunnel⟩ := by
    rw [hg.recorded, Function.update_self]
  have hother : ∀ u, u ≠ unit → l'.recorded u = l.recorded u := by
    intro u hu
    rw [hg.recorded, Function.update_of_ne hu]
  refine ⟨fun u ref href => ?_, fun u s hs => ?_, fun id o ho => ?_, fun id o ho hpos => ?_⟩
  · by_cases hu : u = unit
    · subst hu
      rw [hself] at href
      obtain rfl := Option.some.inj href
      exact ⟨_, hlast, rfl⟩
    · rw [hother u hu] at href
      rw [h.opened_recorded hg.opened_prefix href]
      exact h.recorded u ref href
  · rw [hg.sessions, Dict.get_set] at hs
    split_ifs at hs with hunit
    · obtain rfl := Option.some.inj hs
      rw [hunit]
      exact ⟨_, _, hself, hlast, rfl, hg.localPort⟩
    · obtain ⟨ref, o, href, ho, hkept⟩ := h.held u s hs
      rw [hother u hunit]
      exact ⟨ref, o, href, (h.opened_recorded hg.opened_prefix href).trans ho, hkept⟩
  · rw [hg.opened] at ho
    rcases getElem?_concat_eq_some.1 ho with ho | ⟨hid, rfl⟩
    · obtain ⟨hkept, hle⟩ := h.kept id o ho
      refine ⟨?_, hle⟩
      rcases hkept with ⟨ref, href, hid⟩ | hpos
      · by_cases hu : o.unit = unit
        · -- the record is replaced: the tunnel it named was removed
          rw [hu] at href
          exact .inr (hrem ref href o (by rwa [hid]))
        · exact .inl ⟨ref, (hother _ hu).trans href, hid⟩
      · exact .inr hpos
    · exact ⟨.inl ⟨_, hself, hid.symm⟩, Nat.zero_le _⟩
  · rw [hg.opened] at ho
    rcases getElem?_concat_eq_some.1 ho with ho | ⟨-, rfl⟩
    · exact h.closed id o ho hpos
    · exact absurd hpos (lt_irrefl _)

theorem prefix_acquireFree (l : Ledger) (unit holder : String) (now : ℤ) (env : AcquireEnv) :
    l.opened <+: (l.acquireFree unit holder now env).1.opened := by
  rcases l.acquireFree_cases unit holder now env with ⟨-, hf⟩ | ⟨-, _, _, _, hg⟩
  · exact hf.opened_prefix
  · exact hg.opened_prefix

theorem Inv.acquireFree (h : l.Inv) (holder : String) (now : ℤ) (env : AcquireEnv)
    (hok : env.Succeeds l.manager.reverse → l.Removed unit) :
    (l.acquireFree unit holder now env).1.Inv := by
  rcases l.acquireFree_cases unit holder now env with ⟨-, hf⟩ | ⟨hsucc, _, _, _, hg⟩
  · exact h.fails hf
  · exact h.gains hg (hok hsucc)

theorem takeOver_eq (l : Ledger) (unit holder : String) (now : ℤ) (lookup : UnitLookup)
    (env : AcquireEnv) : l.takeOver unit holder now lookup env
      = (l.releaseLocked unit lookup).acquireFree unit holder now env := by
  have hfree : (l.releaseLocked unit lookup).manager.sessions.get unit = none := by simp
  unfold takeOver acquire
  rw [hfree]

/-- An acquire is refused as busy or made on a free unit, after a release where a session was
stale. -/
theorem acquire_cases (l : Ledger) (unit holder : String) (now : ℤ) (env : AcquireEnv) :
    (∃ s, l.manager.sessions.get unit = some s ∧ ¬ s.Stale now)
        ∧ (l.acquire unit holder now env).1 = l
      ∨ l.manager.sessions.get unit = none
        ∧ l.acquire unit holder now env = l.acquireFree unit holder now env
      ∨ (∃ s, l.manager.sessions.get unit = some s ∧ s.Stale now)
        ∧ l.acquire unit holder now env
          = (l.releaseLocked unit env.stale).acquireFree unit holder now env := by
  unfold acquire
  rcases l.manager.sessions.get unit with _ | current
  · exact .inr (.inl ⟨rfl, rfl⟩)
  · by_cases hst : current.Stale now
    · exact .inr (.inr ⟨⟨current, rfl, hst⟩, if_pos hst⟩)
    · exact .inl ⟨⟨current, rfl, hst⟩, congrArg Prod.fst (if_neg hst)⟩

theorem Inv.heartbeat (h : l.Inv) (unit : String) (now : ℤ) (holder : Option String)
    (lookup : UnitLookup) : (l.heartbeat unit now holder lookup).Inv := by
  unfold Ledger.heartbeat
  rcases hget : l.manager.sessions.get unit with _ | current
  · exact h
  · by_cases hh : ∃ h, holder = some h ∧ current.holder ≠ h
    · simp only [if_pos hh]
      exact h
    · by_cases hst : current.Stale now
      · simp only [if_neg hh, if_pos hst]
        exact h.releaseLocked lookup fun _ => h.unremoved hget
      · simp only [if_neg hh, if_neg hst]
        refine ⟨h.recorded, fun u session hs => ?_, h.kept, h.closed⟩
        rw [Dict.get_set] at hs
        split_ifs at hs with hunit
        · obtain rfl := Option.some.inj hs
          rw [hunit]
          exact h.held unit current hget
        · exact h.held u session hs

/-- Sessions end one after the other, each with its own tunnel. -/
theorem Inv.foldl_releaseLocked (lookups : String → UnitLookup) :
    ∀ (units : List String) {l : Ledger}, l.Inv → units.Nodup →
      (∀ unit ∈ units, ∃ session, l.manager.sessions.get unit = some session) →
      (units.foldl (fun l unit => l.releaseLocked unit (lookups unit)) l).Inv
  | [], _, h, _, _ => h
  | unit :: units, l, h, hnodup, hheld => by
    obtain ⟨hnot, hnodup⟩ := List.nodup_cons.1 hnodup
    obtain ⟨session, hs⟩ := hheld unit (List.mem_cons_self ..)
    refine foldl_releaseLocked lookups units (h.releaseLocked _ fun _ => h.unremoved hs) hnodup
      fun u hu => ?_
    rw [sessions_releaseLocked, Dict.get_pop, if_neg (ne_of_mem_of_not_mem hu hnot)]
    exact hheld u (List.mem_cons_of_mem _ hu)

theorem Inv.reap (h : l.Inv) (now : ℤ) (lookups : String → UnitLookup) :
    (l.reap now lookups).Inv := by
  refine Inv.foldl_releaseLocked lookups _ h ?_ fun unit hmem => ?_
  · exact l.manager.sessions.nodup.sublist (List.filter_sublist.map _)
  · obtain ⟨s, hs, -⟩ := SessionManager.mem_staleUnits.1 hmem
    exact ⟨s, hs⟩

theorem Inv.step (h : l.Inv) (a : ℤ × Op) (hord : l.Orderly a) : (l.step a).Inv := by
  obtain ⟨now, op⟩ := a
  cases op with
  | acquire unit holder env =>
    change (l.acquire unit holder now env).1.Inv
    rcases l.acquire_cases unit holder now env with ⟨-, he⟩ | ⟨hnone, he⟩ | ⟨⟨s, hs, hst⟩, he⟩
    · rw [he]
      exact h
    · rw [he]
      refine h.acquireFree holder now env fun hsucc => ?_
      refine (hord (fun s hs => ?_) hsucc).resolve_left fun hstale => hstale.1 hnone
      rw [hnone] at hs
      exact nomatch hs
    · have hrel := h.releaseLocked env.stale fun _ => h.unremoved hs
      rw [he]
      refine hrel.acquireFree holder now env fun hsucc => ?_
      rw [reverse_releaseLocked] at hsucc
      rw [removed_releaseLocked]
      refine (hord (fun s' hs' => ?_) hsucc).imp_left And.right
      rw [hs] at hs'
      exact Option.some.inj hs' ▸ hst
  | heartbeat unit holder lookup => exact h.heartbeat unit now holder lookup
  | release unit lookup => exact h.releaseLocked lookup hord
  | takeOver unit holder lookup env =>
    change (l.takeOver unit holder now lookup env).1.Inv
    rw [takeOver_eq]
    refine (h.releaseLocked lookup hord.1).acquireFree holder now env fun hsucc => ?_
    rw [reverse_releaseLocked] at hsucc
    rw [removed_releaseLocked]
    exact hord.2 hsucc
  | reap lookups => exact h.reap now lookups

/-! ### Out of order -/

/-- A tunnel's removal was attempted twice. -/
def Twice (l : Ledger) : Prop :=
  ∃ (id : ℕ) (o : OpenedTunnel), l.opened[id]? = some o ∧ 1 < o.removals

theorem Twice.not_accounted (h : l.Twice) : ¬ l.Accounted := by
  obtain ⟨id, o, ho, hlt⟩ := h
  exact fun hacc => absurd (hacc id o ho).2 (not_le.2 hlt)

theorem twice_releaseLocked {lookup : UnitLookup} (hres : lookup.Resolves)
    (hun : ¬ l.Unremoved unit) : (l.releaseLocked unit lookup).Twice := by
  unfold Unremoved at hun
  push Not at hun
  obtain ⟨ref, href, o, ho, hne⟩ := hun
  refine ⟨ref.id, o.close, ?_, Nat.succ_lt_succ (Nat.pos_of_ne_zero hne)⟩
  rw [getElem?_releaseLocked, if_pos ⟨hres, by rw [href, Option.map_some]⟩, ho, Option.map_some]

theorem Twice.acquireFree (h : l.Twice) (unit holder : String) (now : ℤ) (env : AcquireEnv) :
    (l.acquireFree unit holder now env).1.Twice := by
  obtain ⟨id, o, ho, hlt⟩ := h
  obtain ⟨more, hmore⟩ := l.prefix_acquireFree unit holder now env
  refine ⟨id, o, ?_, hlt⟩
  rw [← hmore, List.getElem?_append_left (List.getElem?_eq_some_iff.1 ho).1]
  exact ho

/-- A record that is replaced before its tunnel was removed leaves the tunnel to nobody. -/
theorem Inv.not_accounted_acquireFree (h : l.Inv) (holder : String) (now : ℤ) {env : AcquireEnv}
    (hsucc : env.Succeeds l.manager.reverse) (hrem : ¬ l.Removed unit) :
    ¬ (l.acquireFree unit holder now env).1.Accounted := by
  rcases l.acquireFree_cases unit holder now env with ⟨hnot, -⟩ | ⟨-, session, tunnel, _, hg⟩
  · exact absurd hsucc hnot
  unfold Removed at hrem
  push Not at hrem
  obtain ⟨ref, href, o, ho, hzero⟩ := hrem
  have hunit : o.unit = unit := by
    obtain ⟨o', ho', hu⟩ := h.recorded unit ref href
    rw [ho] at ho'
    rw [Option.some.inj ho', hu]
  have hnot : ∀ ref', (l.acquireFree unit holder now env).1.recorded o.unit = some ref' →
      ref'.id ≠ ref.id := by
    intro ref' href'
    rw [hg.recorded, hunit, Function.update_self] at href'
    rw [← Option.some.inj href']
    exact (h.lt_length href).ne'
  intro hacc
  have ho' : (l.acquireFree unit holder now env).1.opened[ref.id]? = some o := by
    rw [h.opened_recorded (l.prefix_acquireFree unit holder now env) href]
    exact ho
  rcases (hacc ref.id o ho').1 with ⟨_, ref', _, href', hid, _⟩ | ⟨ref', href', hid⟩ | ⟨hpos, _⟩
  · exact hnot ref' href' hid
  · exact hnot ref' href' hid
  · omega

theorem Inv.not_accounted_step (h : l.Inv) (a : ℤ × Op) (hord : ¬ l.Orderly a) :
    ¬ (l.step a).Accounted := by
  obtain ⟨now, op⟩ := a
  cases op with
  | acquire unit holder env =>
    change ¬ (l.acquire unit holder now env).1.Accounted
    obtain ⟨hfree, hord⟩ := Classical.not_imp.1 hord
    obtain ⟨hsucc, hord⟩ := Classical.not_imp.1 hord
    obtain ⟨hstale, hrem⟩ := not_or.1 hord
    rcases l.acquire_cases unit holder now env with ⟨⟨s, hs, hst⟩, -⟩ | ⟨-, he⟩ | ⟨⟨s, hs, -⟩, he⟩
    · exact absurd (hfree s hs) hst
    · rw [he]
      exact h.not_accounted_acquireFree holder now hsucc hrem
    · have hheld := Option.ne_none_iff_exists'.2 ⟨s, hs⟩
      rw [he]
      have hrel := h.releaseLocked env.stale fun _ => h.unremoved hs
      refine hrel.not_accounted_acquireFree holder now (by rwa [reverse_releaseLocked]) ?_
      rw [removed_releaseLocked]
      exact not_or.2 ⟨fun hres => hstale ⟨hheld, hres⟩, hrem⟩
  | heartbeat unit holder lookup => exact absurd trivial hord
  | release unit lookup =>
    obtain ⟨hres, hun⟩ := Classical.not_imp.1 hord
    exact (twice_releaseLocked hres hun).not_accounted
  | takeOver unit holder lookup env =>
    change ¬ (l.takeOver unit holder now lookup env).1.Accounted
    rw [takeOver_eq]
    by_cases hfirst : lookup.Resolves → l.Unremoved unit
    · obtain ⟨hsucc, hrem⟩ := Classical.not_imp.1 fun hsecond => hord ⟨hfirst, hsecond⟩
      refine (h.releaseLocked lookup hfirst).not_accounted_acquireFree holder now
        (by rwa [reverse_releaseLocked]) ?_
      rwa [removed_releaseLocked]
    · obtain ⟨hres, hun⟩ := Classical.not_imp.1 hfirst
      exact ((twice_releaseLocked hres hun).acquireFree unit holder now env).not_accounted
  | reap lookups => exact absurd trivial hord

/-- Every tunnel is accounted for in every state of a run exactly if its calls are orderly. -/
theorem accounted_iff_orderly (plugin socket kind : String) (reverse : Bool)
    (calls : List (ℤ × Op)) :
    Run.Always step Accounted (start plugin socket kind reverse) calls
      ↔ Run.Meets step Orderly (start plugin socket kind reverse) calls := by
  refine Run.always_iff_meets (d := fun _ _ => True) (fun _ h => h.accounted)
    (fun _ a h _ hord => h.step a hord) (fun _ a h _ hord => h.not_accounted_step a hord) calls
    (inv_start plugin socket kind reverse) ?_
  exact Run.meets_of_invariant (I := fun _ => True) (fun _ _ _ => trivial) (fun _ _ _ => trivial)
    calls trivial

/-- A held session's tunnel is open. -/
def HoldsOpen (l : Ledger) : Prop :=
  ∀ unit session, l.manager.sessions.get unit = some session →
    ∃ id o, l.opened[id]? = some o ∧ o.unit = unit ∧ o.removals = 0 ∧ l.OfSession id o

theorem Inv.holdsOpen (h : l.Inv) : l.HoldsOpen := by
  intro unit session hs
  obtain ⟨ref, o, href, ho, hzero, hport⟩ := h.held unit session hs
  obtain ⟨o', ho', hunit⟩ := h.recorded unit ref href
  obtain rfl := Option.some.inj (ho.symm.trans ho')
  refine ⟨ref.id, o, ho, hunit, hzero, session, ref, ?_, ?_, rfl, hport⟩
  · rwa [hunit]
  · rwa [hunit]

/-- In an orderly run no session is held without its tunnel. -/
theorem holdsOpen_of_orderly (plugin socket kind : String) (reverse : Bool)
    (calls : List (ℤ × Op))
    (hord : Run.Meets step Orderly (start plugin socket kind reverse) calls) :
    Run.Always step HoldsOpen (start plugin socket kind reverse) calls :=
  Run.always_of_meets (fun _ h => h.holdsOpen) (fun _ a h hord => h.step a hord) calls
    (inv_start plugin socket kind reverse) hord

/-- The session is released, and the unit once more. -/
theorem releasedTwice : ¬ ∀ (plugin socket kind : String) (reverse : Bool)
    (calls : List (ℤ × Op)),
    Run.Always step Accounted (start plugin socket kind reverse) calls := by
  intro h
  have hacc := (h "remote" "localabstract:scrcpy" "screen" true
    [(1000, .acquire "phone1" "phone" (.attached "41001")),
      (1005, .release "phone1" (AcquireEnv.attached "41001").lookup),
      (1006, .release "phone1" (AcquireEnv.attached "41001").lookup)]).final
  have hle := (hacc 0 ⟨"phone1", ⟨"41001", some "localabstract:scrcpy_00000000"⟩, 2, false⟩
    (by decide +kernel)).2
  exact absurd hle (by decide)

end Ledger

end Rackphone
