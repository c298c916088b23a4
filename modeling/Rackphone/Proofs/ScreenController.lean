import Rackphone.ScreenController

/-!
# Decoder work is serialised

The work that is chained is one `configure` and the packets that were received, in that order, and
the decoder is called for a prefix of it. Once `disconnect` drains the work nothing is listened to,
so what it drains is all the work there will be, and `dispose` comes after it.
-/

namespace Rackphone.ScreenController

variable {δ π : Type*} {s : State δ π} {received : List π} {done : ℕ} {busy : Bool}

/-! ## The invariant -/

def Teardown.Disposed (t : Teardown) : Prop := t = .disposing ∨ t = .over

instance : DecidablePred Teardown.Disposed := fun t =>
  inferInstanceAs (Decidable (t = .disposing ∨ t = .over))

structure Inv (s : State δ π) (received : List π) (done : ℕ) (busy : Bool) : Prop where
  serial : s.decoderWork.Serial done busy
  ops : s.decoderWork.ops = work s.device received
  kept : received <+: s.packets
  listening : s.videoSubscription = true → received = s.packets
  unintroduced : s.introduced = false → s.device = none ∧ s.packets = []
  unopened : s.connection = .awaited → s.introduced = false
  calls : s.calls = (s.decoderWork.ops.take (done + busy.toNat)).map Op.call
    ++ if s.teardown.Disposed then [.dispose] else []
  drained : s.teardown.Disposed → done = s.decoderWork.ops.length ∧ busy = false
  cancelled : s.teardown = .idle ∨ s.teardown = .cancellingDevice ∨ s.videoSubscription = false
  draining : ∀ f, s.teardown = .draining f → f = s.decoderWork.last
  idle : s.disconnecting = false → s.teardown = .idle

theorem init_inv : Inv (init : State δ π) [] 0 false where
  serial := Chain.empty_serial
  ops := rfl
  kept := List.nil_prefix
  listening h := rfl
  unintroduced h := ⟨rfl, rfl⟩
  unopened h := rfl
  calls := rfl
  drained h := by
    rcases h with h | h <;> cases h
  cancelled := .inl rfl
  draining f h := by cases h
  idle h := rfl

/-- What is shown of the screen makes no difference. -/
theorem Inv.shown (h : Inv s received done busy) (state : ScreenState)
    (message holder : Option (List Char)) :
    Inv { s with state, message, holder } received done busy :=
  ⟨h.serial, h.ops, h.kept, h.listening, h.unintroduced, h.unopened, h.calls, h.drained,
    h.cancelled, h.draining, h.idle⟩

theorem Inv.fail (h : Inv s received done busy) (failure : List Char) :
    Inv (s.fail failure) received done busy := by
  unfold State.fail
  split_ifs
  · exact h
  · exact h.shown .failed (some failure) s.holder

theorem Inv.absent (h : Inv s received done busy) :
    Inv { s with connection := .absent } received done busy :=
  ⟨h.serial, h.ops, h.kept, h.listening, h.unintroduced, by simp, h.calls, h.drained,
    h.cancelled, h.draining, h.idle⟩

/-! ## Work that is added -/

theorem work_concat (device : Option δ) (packets : List π) (p : π) :
    work device (packets ++ [p]) = work device packets ++ [.feed p] := by
  simp [work]

/-- Before the work is drained, work may be added. -/
theorem Inv.add (h : Inv s received done busy) (op : Op δ π) :
    (s.decoderWork.add op).Serial done busy
      ∧ (s.decoderWork.add op).ops.take (done + busy.toNat)
        = s.decoderWork.ops.take (done + busy.toNat) := by
  refine ⟨h.serial.add op, ?_⟩
  have hlength := h.serial.length
  rw [← Chain.length_ops] at hlength
  rw [Chain.ops_add, List.take_append_of_le_length hlength]

/-- While packets are listened to the work is not drained. -/
theorem Inv.of_video (h : Inv s received done busy) (hv : s.videoSubscription = true) :
    ¬ s.teardown.Disposed ∧ ∀ f, s.teardown ≠ .draining f := by
  rcases h.cancelled with hidle | hidle | hoff
  · simp [Teardown.Disposed, hidle]
  · simp [Teardown.Disposed, hidle]
  · rw [hv] at hoff
    cases hoff

theorem Inv.introduce (h : Inv s received done busy) (hopen : s.connection = .open) :
    Inv { s with introduced := true } received done busy :=
  ⟨h.serial, h.ops, h.kept, h.listening, by simp, by simp [hopen], h.calls, h.drained, h.cancelled,
    h.draining, h.idle⟩

/-- The introduction comes before any packet, so its work is the first. -/
theorem Inv.onDevice (h : Inv s received done busy) (hopen : s.connection = .open)
    (hintroduced : s.introduced = true) (hpackets : s.packets = []) (device : δ) :
    Inv (s.onDevice device) received done busy := by
  unfold State.onDevice
  split_ifs with hguard
  · exact h
  · push Not at hguard
    have hidle : s.teardown = .idle := h.idle (by simpa using hguard.2)
    have hreceived : received = [] := by
      have hkept := h.kept
      rwa [hpackets, List.prefix_nil] at hkept
    have hdevice : s.device = none := by simpa using hguard.1
    obtain ⟨hserial, htake⟩ := h.add (.configure device)
    have hops := h.ops
    rw [hdevice, hreceived] at hops
    exact {
      serial := hserial
      ops := by
        show (s.decoderWork.add (.configure device)).ops = work (some device) received
        rw [Chain.ops_add, hops, hreceived]
        rfl
      kept := h.kept
      listening := h.listening
      unintroduced := by simp [hintroduced]
      unopened := by simp [hopen]
      calls := by
        show s.calls = ((s.decoderWork.add (.configure device)).ops.take (done + busy.toNat)).map
          Op.call ++ if s.teardown.Disposed then [.dispose] else []
        rw [htake]
        exact h.calls
      drained := by simp [hidle, Teardown.Disposed]
      cancelled := h.cancelled
      draining := by simp [hidle]
      idle := h.idle }

/-- What is given out is received while it is listened to, and then lost. -/
theorem Inv.packet (h : Inv s received done busy) (hopen : s.connection = .open)
    (hintroduced : s.introduced = true) (packet : π) :
    ∃ received', Inv
      (if s.videoSubscription then ({ s with packets := s.packets ++ [packet] }).onPacket packet
        else { s with packets := s.packets ++ [packet] }) received' done busy := by
  split_ifs with hv
  · obtain ⟨hserial, htake⟩ := h.add (.feed packet)
    obtain ⟨hdisposed, hdraining⟩ := h.of_video hv
    have hall := h.listening hv
    exact ⟨received ++ [packet], {
      serial := hserial
      ops := by
        show (s.decoderWork.add (.feed packet)).ops = work s.device (received ++ [packet])
        rw [Chain.ops_add, h.ops, work_concat]
      kept := by rw [hall]; exact List.prefix_rfl
      listening := fun _ => by rw [hall]; rfl
      unintroduced := fun hi => by simp [State.onPacket, hintroduced] at hi
      unopened := fun ha => by simp [State.onPacket, hopen] at ha
      calls := by
        show s.calls = ((s.decoderWork.add (.feed packet)).ops.take (done + busy.toNat)).map
          Op.call ++ if s.teardown.Disposed then [.dispose] else []
        rw [htake]
        exact h.calls
      drained := fun hd => absurd hd hdisposed
      cancelled := h.cancelled
      draining := fun f hf => absurd hf (hdraining f)
      idle := h.idle }⟩
  · exact ⟨received, h.serial, h.ops, h.kept.trans (List.prefix_append _ _), fun hl => absurd hl hv,
      by simp [hintroduced], by simp [hopen], h.calls, h.drained, h.cancelled, h.draining, h.idle⟩

/-! ## Work that is done -/

theorem Inv.resume (h : Inv s received done busy) {job : ℕ} {op : Op δ π}
    (hs : s.decoderWork.starts job = some op) :
    Inv { s with decoderWork := s.decoderWork.start job op, calls := s.calls ++ [op.call] }
      received done true := by
  obtain ⟨rfl, rfl, hop⟩ := h.serial.of_starts hs
  have hlt : job < s.decoderWork.ops.length := (List.getElem?_eq_some_iff.1 hop).1
  have hdisposed : ¬ s.teardown.Disposed := fun hd => by
    have hdone := (h.drained hd).1
    omega
  exact {
    serial := h.serial.start hop
    ops := by
      rw [Chain.ops_start]
      exact h.ops
    kept := h.kept
    listening := h.listening
    unintroduced := h.unintroduced
    unopened := h.unopened
    calls := by
      have hcalls := h.calls
      simp only [Bool.toNat_false, Nat.add_zero, if_neg hdisposed, List.append_nil] at hcalls
      simp only [Chain.ops_start, Bool.toNat_true, (Chain.take_succ_ops hop).1, hcalls,
        if_neg hdisposed, List.append_nil, List.map_append, List.map_cons, List.map_nil]
    drained := fun hd => absurd hd hdisposed
    cancelled := h.cancelled
    draining := h.draining
    idle := h.idle }

theorem Inv.finish (h : Inv s received done busy) {job : ℕ} {op : Op δ π}
    (hr : s.decoderWork.runs job = some op) :
    Inv { s with decoderWork := s.decoderWork.finish job op } received (done + 1) false := by
  obtain ⟨rfl, rfl, hop⟩ := h.serial.of_runs hr
  exact {
    serial := h.serial.finish hop
    ops := by
      rw [Chain.ops_finish]
      exact h.ops
    kept := h.kept
    listening := h.listening
    unintroduced := h.unintroduced
    unopened := h.unopened
    calls := by
      rw [Chain.ops_finish]
      exact h.calls
    drained := fun hd => absurd (h.drained hd).2 (by simp)
    cancelled := h.cancelled
    draining := h.draining
    idle := h.idle }

theorem Inv.onComplete (h : Inv s received done busy) (op : Op δ π) :
    ∀ failure : Option (List Char), Inv (s.onComplete op failure) received done busy
  | some failure => h.fail failure
  | none => by
    cases op with
    | configure device =>
      simp only [State.onComplete]
      split_ifs
      · exact h
      · exact h.shown .live s.message s.holder
    | feed packet => exact h

/-! ## Teardown -/

theorem Inv.disconnect (h : Inv s received done busy) :
    Inv s.disconnect received done busy := by
  unfold State.disconnect
  split_ifs with hguard
  · exact h
  · have hidle : s.teardown = .idle := h.idle (by simpa using hguard)
    have hcalls := h.calls
    simp only [hidle] at hcalls
    exact ⟨h.serial, h.ops, h.kept, h.listening, h.unintroduced, h.unopened, hcalls,
      by simp [Teardown.Disposed], .inr (.inl rfl), by simp, by simp⟩

theorem Inv.onTeardown (h : Inv s received done busy) :
    Inv s.onTeardown received done busy := by
  have hcalls := h.calls
  have hbusy : s.teardown ≠ .idle → s.disconnecting ≠ false := fun hne hd => hne (h.idle hd)
  unfold State.onTeardown
  split
  · rename_i hphase
    simp only [hphase] at hcalls
    exact ⟨h.serial, h.ops, h.kept, by simp, h.unintroduced, h.unopened, hcalls,
      by simp [Teardown.Disposed], .inr (.inr rfl), by simp,
      fun hd => absurd hd (hbusy (by simp [hphase]))⟩
  · rename_i hphase
    simp only [hphase] at hcalls
    have hoff : s.videoSubscription = false := by simpa [hphase] using h.cancelled
    exact ⟨h.serial, h.ops, h.kept, h.listening, h.unintroduced, h.unopened, hcalls,
      by simp [Teardown.Disposed], .inr (.inr hoff), by simp,
      fun hd => absurd hd (hbusy (by simp [hphase]))⟩
  · rename_i hphase
    simp only [hphase] at hcalls
    have hoff : s.videoSubscription = false := by simpa [hphase] using h.cancelled
    exact ⟨h.serial, h.ops, h.kept, h.listening, h.unintroduced, h.unopened, hcalls,
      by simp [Teardown.Disposed], .inr (.inr hoff), by simp,
      fun hd => absurd hd (hbusy (by simp [hphase]))⟩
  · rename_i f hphase
    simp only [hphase] at hcalls
    have hoff : s.videoSubscription = false := by simpa [hphase] using h.cancelled
    split_ifs with hcompleted
    · -- the future that is awaited is the last there is
      rw [h.draining f hphase] at hcompleted
      obtain ⟨hdone, rfl⟩ := h.serial.all_finished hcompleted
      refine ⟨h.serial, h.ops, h.kept, h.listening, h.unintroduced, h.unopened, ?_,
        fun _ => ⟨hdone, rfl⟩, .inr (.inr hoff), by simp,
        fun hd => absurd hd (hbusy (by simp [hphase]))⟩
      simp only [Teardown.Disposed, reduceCtorEq, or_false, or_self, ↓reduceIte,
        List.append_nil] at hcalls ⊢
      rw [hcalls]
    · exact h
  · rename_i hphase
    have hoff : s.videoSubscription = false := by simpa [hphase] using h.cancelled
    have hdrained := h.drained (.inl hphase)
    simp only [hphase] at hcalls
    exact ⟨h.serial, h.ops, h.kept, h.listening, h.unintroduced, h.unopened, hcalls,
      fun _ => hdrained, .inr (.inr hoff), by simp,
      fun hd => absurd hd (hbusy (by simp [hphase]))⟩
  · exact h
  · exact h

/-! ## Runs -/

theorem Inv.onConnected (h : Inv s received done busy) (hawaited : s.connection = .awaited) :
    Inv s.onConnected received done busy := by
  unfold State.onConnected
  split_ifs with hguard
  · exact h.absent
  · push Not at hguard
    have hidle : s.teardown = .idle := h.idle (by simpa using hguard.1)
    have hnone := (h.unintroduced (h.unopened hawaited)).2
    have hreceived : received = s.packets := by
      have hkept := h.kept
      rw [hnone, List.prefix_nil] at hkept
      rw [hkept, hnone]
    exact ⟨h.serial, h.ops, h.kept, fun _ => hreceived, h.unintroduced, by simp, h.calls, h.drained,
      .inl hidle, h.draining, h.idle⟩

theorem Inv.onClosed (h : Inv s received done busy) (reason : BusyClose.CloseReason) :
    Inv (s.onClosed reason) received done busy := by
  unfold State.onClosed
  split_ifs
  · exact h
  · exact h.shown _ _ _

theorem Inv.dispose (h : Inv s received done busy) :
    Inv ({ s with disposed := true } : State δ π).disconnect received done busy := by
  have hdisposed : Inv ({ s with disposed := true } : State δ π) received done busy :=
    ⟨h.serial, h.ops, h.kept, h.listening, h.unintroduced, h.unopened, h.calls, h.drained,
      h.cancelled, h.draining, h.idle⟩
  exact hdisposed.disconnect

theorem Inv.step (h : Inv s received done busy) (a : Action δ π) :
    ∃ received' done' busy', Inv (step s a) received' done' busy' := by
  cases a with
  | connected =>
    simp only [ScreenController.step]
    split_ifs with hawaited
    · exact ⟨_, _, _, h.onConnected hawaited⟩
    · exact ⟨_, _, _, h⟩
  | connectFailed failure =>
    simp only [ScreenController.step]
    split_ifs
    · exact ⟨_, _, _, (h.fail failure).absent⟩
    · exact ⟨_, _, _, h⟩
  | introduction device =>
    simp only [ScreenController.step]
    split_ifs with hguard hlistening
    · have hnone := (h.unintroduced hguard.2).2
      exact ⟨_, _, _, (h.introduce hguard.1).onDevice hguard.1 rfl hnone device⟩
    · exact ⟨_, _, _, h.introduce hguard.1⟩
    · exact ⟨_, _, _, h⟩
  | packet packet =>
    simp only [ScreenController.step]
    split_ifs with hguard hlistening
    · obtain ⟨received', h'⟩ := h.packet hguard.1 hguard.2 packet
      rw [if_pos hlistening] at h'
      exact ⟨_, _, _, h'⟩
    · obtain ⟨received', h'⟩ := h.packet hguard.1 hguard.2 packet
      rw [if_neg hlistening] at h'
      exact ⟨_, _, _, h'⟩
    · exact ⟨_, _, _, h⟩
  | streamError failure =>
    simp only [ScreenController.step]
    split_ifs
    · exact ⟨_, _, _, h.fail failure⟩
    · exact ⟨_, _, _, h⟩
  | closed reason =>
    simp only [ScreenController.step]
    split_ifs
    · exact ⟨_, _, _, h.onClosed reason⟩
    · exact ⟨_, _, _, h⟩
  | resume job =>
    simp only [ScreenController.step]
    split
    · rename_i op hop
      exact ⟨_, _, _, h.resume hop⟩
    · exact ⟨_, _, _, h⟩
  | complete job failure =>
    simp only [ScreenController.step]
    split
    · rename_i op hop
      exact ⟨_, _, _, (h.finish hop).onComplete op failure⟩
    · exact ⟨_, _, _, h⟩
  | disconnect => exact ⟨_, _, _, h.disconnect⟩
  | teardown => exact ⟨_, _, _, h.onTeardown⟩
  | dispose => exact ⟨_, _, _, h.dispose⟩

theorem Inv.serialised (h : Inv s received done busy) : Serialised s := by
  have hlog := h.serial.log
  have hlength := h.serial.length
  rw [← Chain.length_ops] at hlength
  set running : Option (Op δ π) := if busy then s.decoderWork.ops[done]? else none with hrunning
  have htoList : (if busy then (s.decoderWork.ops.drop done).take 1 else []) = running.toList := by
    cases busy with
    | false => rfl
    | true =>
      obtain ⟨op, hop⟩ : ∃ op, s.decoderWork.ops[done]? = some op := by
        simp only [Bool.toNat_true] at hlength
        exact ⟨_, List.getElem?_eq_getElem (by omega)⟩
      rw [hrunning, if_pos rfl, if_pos rfl, hop, (Chain.take_succ_ops hop).2]
      rfl
  have hstarted : s.decoderWork.ops.take done ++ running.toList
      = s.decoderWork.ops.take (done + busy.toNat) := by
    rw [← htoList, List.take_add]
    cases busy <;> simp
  rw [htoList] at hlog
  refine ⟨s.decoderWork.ops.take done, running, decide s.teardown.Disposed, hlog, ?_, ?_⟩
  · have hwork : work s.device received <+: work s.device s.packets :=
      (List.prefix_append_right_inj _).2 (h.kept.map _)
    rw [hstarted]
    refine List.IsPrefix.trans ?_ hwork
    rw [← h.ops]
    exact List.take_prefix _ _
  · rw [hstarted, h.calls]
    by_cases hd : s.teardown.Disposed <;> simp [hd]

/-- There is no work without an introduction. -/
def Known (s : State δ π) : Prop := s.decoderWork.ops ≠ [] → s.device.isSome

theorem Known.fail (h : Known s) (failure : List Char) : Known (s.fail failure) := by
  unfold State.fail
  split_ifs <;> exact h

theorem Known.disconnect (h : Known s) : Known s.disconnect := by
  unfold State.disconnect
  split_ifs <;> exact h

theorem Known.step (h : Known s) (a : Action δ π) (hintroduced : Introduced s a) :
    Known (step s a) := by
  cases a with
  | connected =>
    simp only [ScreenController.step, State.onConnected]
    split_ifs <;> exact h
  | connectFailed failure =>
    simp only [ScreenController.step]
    split_ifs
    · exact h.fail failure
    · exact h
  | introduction device =>
    simp only [ScreenController.step, State.onDevice]
    split_ifs
    · exact h
    · exact fun _ => rfl
    · exact h
    · exact h
  | packet packet =>
    simp only [ScreenController.step]
    split_ifs with hguard hv
    · exact fun _ => hintroduced hguard.1 hguard.2 hv
    · exact h
    · exact h
  | streamError failure =>
    simp only [ScreenController.step]
    split_ifs
    · exact h.fail failure
    · exact h
  | closed reason =>
    simp only [ScreenController.step, State.onClosed]
    split_ifs <;> exact h
  | resume job =>
    simp only [ScreenController.step]
    split
    · intro hne
      rw [Chain.ops_start] at hne
      exact h hne
    · exact h
  | complete job failure =>
    simp only [ScreenController.step]
    split
    · rename_i op hop
      have hfinish : Known { s with decoderWork := s.decoderWork.finish job op } := by
        intro hne
        rw [Chain.ops_finish] at hne
        exact h hne
      cases failure with
      | some failure => exact hfinish.fail failure
      | none =>
        simp only [State.onComplete]
        split
        · split_ifs <;> exact hfinish
        · exact hfinish
    · exact h
  | disconnect => exact h.disconnect
  | teardown =>
    simp only [ScreenController.step, State.onTeardown]
    split
    · exact h
    · exact h
    · exact h
    · split_ifs <;> exact h
    · exact h
    · exact h
    · exact h
  | dispose =>
    have hdisposed : Known ({ s with disposed := true } : State δ π) := h
    exact hdisposed.disconnect

theorem Inv.configuredFirst (h : Inv s received done busy) (hknown : Known s) :
    ConfiguredFirst s := by
  intro p hhead
  have hcalls := h.calls
  cases hops : s.decoderWork.ops with
  | nil =>
    rw [hops, List.take_nil, List.map_nil, List.nil_append] at hcalls
    rw [hcalls] at hhead
    split_ifs at hhead <;> cases hhead
  | cons op ops =>
    obtain ⟨device, hdevice⟩ := Option.isSome_iff_exists.1 (hknown (by simp [hops]))
    have hfirst : op = .configure device := by
      have hwork := h.ops
      rw [hops, hdevice] at hwork
      exact (List.cons.inj hwork).1
    rw [hops, hfirst] at hcalls
    rw [hcalls] at hhead
    cases hn : done + busy.toNat with
    | zero =>
      rw [hn] at hhead
      split_ifs at hhead <;> cases hhead
    | succ n =>
      rw [hn] at hhead
      cases hhead

/-- Whatever the order of handlers, completions and failures, the work is serial and nothing comes
after `dispose`; where every packet that comes to the controller was introduced to it, `configure`
is first. -/
theorem decoder_work_serialised (actions : List (Action δ π)) :
    Run.Always step Serialised (init : State δ π) actions
      ∧ (Run.Meets step Introduced (init : State δ π) actions →
        Run.Always step ConfiguredFirst (init : State δ π) actions) := by
  constructor
  · refine Run.always_of_invariant (I := fun s => ∃ received done busy, Inv s received done busy)
      ?_ ?_ actions ⟨_, _, _, init_inv⟩
    · rintro s ⟨_, _, _, h⟩
      exact h.serialised
    · rintro s a ⟨_, _, _, h⟩
      exact h.step a
  · refine Run.always_of_meets
      (I := fun s => (∃ received done busy, Inv s received done busy) ∧ Known s)
      ?_ ?_ actions ⟨⟨_, _, _, init_inv⟩, fun hne => absurd rfl hne⟩
    · rintro s ⟨⟨_, _, _, h⟩, hknown⟩
      exact h.configuredFirst hknown
    · rintro s a ⟨⟨_, _, _, h⟩, hknown⟩ hintroduced
      exact ⟨h.step a, hknown.step a hintroduced⟩

/-- A packet comes while the decoder is still being configured, and the screen is left. -/
def leftWhileConfiguring : List (Action ℕ ℕ) :=
  [.connected, .introduction 7, .resume 0, .packet 1, .disconnect, .complete 0 none, .teardown,
    .resume 1, .teardown, .teardown, .teardown, .complete 1 none, .teardown, .teardown]

theorem left_while_configuring :
    Run.Always step ConfiguredFirst init leftWhileConfiguring
      ∧ (Run.final step init leftWhileConfiguring).calls = [.configure 7, .feed 1, .dispose] :=
  ⟨(decoder_work_serialised leftWhileConfiguring).2 ⟨trivial, trivial, trivial, fun _ _ _ => rfl,
    trivial, trivial, trivial, trivial, trivial, trivial, trivial, trivial, trivial, trivial,
    trivial⟩, by decide⟩

/-- The introduction and a packet are on their way when the screen is disconnected. -/
def disconnectFirst : List (Action ℕ ℕ) :=
  [.connected, .disconnect, .introduction 7, .packet 1, .resume 0]

theorem packet_fed_unconfigured :
    (Run.final step init disconnectFirst).calls = [.feed 1]
      ∧ ¬ Run.Always step ConfiguredFirst init disconnectFirst := by
  have hcalls : (Run.final step init disconnectFirst).calls = [.feed 1] := by decide
  refine ⟨hcalls, fun h => ?_⟩
  have hlast : ConfiguredFirst (Run.final step init disconnectFirst) := h.2.2.2.2.2
  refine hlast 1 ?_
  rw [hcalls]
  rfl

end Rackphone.ScreenController
