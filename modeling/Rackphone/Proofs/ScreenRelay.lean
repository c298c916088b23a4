import Rackphone.Lib.Pipe
import Rackphone.ScreenRelay

/-!
# Each channel is a stream of its own

Either direction of a channel is a stream on its way: from the device by way of the hand of its
task and the messages on the wire, and from the client by way of the wire and the device's socket.
What a step moves on one channel it leaves alone on the other.
-/

namespace Rackphone

@[simp] theorem Channel.ofTag_tag (c : Channel) : Channel.ofTag c.tag = some c := by
  cases c <;> decide

namespace WebSocketMessage

theorem addressed_of_stray {m : WebSocketMessage} (h : m.Stray) : m.addressed = none := by
  rcases m with s | (_ | ⟨b, data⟩)
  · rfl
  · rfl
  · simp [addressed, Channel.ofTag, h.1, h.2]

theorem payload_of_addressed {m : WebSocketMessage} {c : Channel} {data : List UInt8}
    (h : m.addressed = some (c, data)) : m.payload c = data := by
  simp [payload, h]

theorem payload_of_ne {m : WebSocketMessage} {c c' : Channel} {data : List UInt8}
    (h : m.addressed = some (c', data)) (hne : c' ≠ c) : m.payload c = [] := by
  simp [payload, h, hne]

theorem payload_of_none {m : WebSocketMessage} (h : m.addressed = none) (c : Channel) :
    m.payload c = [] := by
  simp [payload, h]

end WebSocketMessage

open WebSocketMessage

variable (c : Channel)

theorem payloads_cons (m : WebSocketMessage) (ms : List WebSocketMessage) :
    payloads c (m :: ms) = m.payload c ++ payloads c ms := rfl

theorem payloads_append (ms ns : List WebSocketMessage) :
    payloads c (ms ++ ns) = payloads c ms ++ payloads c ns := List.flatMap_append

theorem payloads_prefix_take (ms : List WebSocketMessage) (n : ℕ) :
    payloads c (ms.take n) <+: payloads c ms := by
  rw [← List.take_append_drop n ms, payloads_append]
  simp

theorem payloads_tagged (c' : Channel) (data : List UInt8) :
    payloads c [.bytes (c'.tag :: data)] = if c' = c then data else [] := by
  simp [payloads, payload, addressed]

namespace ScreenRelay

/-- The two directions of a channel, and a stopped pump has no task of it. -/
structure Streams (s : ScreenRelay) (c : Channel) : Prop where
  down : Intact (s.pumping ∧ s.connected) (s.clientReceived c) (payloads c s.toClient)
    ((s.copy c).held ++ s.unread c) (s.written c)
  up : Intact s.connected (s.deviceReceived c) (s.outgoing c ++ payloads c s.toGateway) []
    (payloads c s.clientSent)
  stopped : s.pumping = false → s.copy c = .returned

variable {c} {s : ScreenRelay}

theorem streams_start : start.Streams c := ⟨Intact.empty, Intact.empty, by simp [start]⟩

theorem Streams.deviceWrite (h : s.Streams c) (c' : Channel) (data : List UInt8) :
    (s.deviceWrite c' data).Streams c := by
  unfold ScreenRelay.deviceWrite
  split
  · exact h
  · refine ⟨?_, h.up, h.stopped⟩
    by_cases hc : c = c'
    · subst hc
      simpa using h.down.send (x := data)
    · simpa [hc] using h.down

theorem Streams.read (h : s.Streams c) (c' : Channel) (available : ℕ) :
    (s.read c' available).Streams c := by
  unfold ScreenRelay.read
  split
  · rename_i hcopy
    by_cases hc : c = c'
    · subst hc
      have hdown := h.down
      have hstopped := h.stopped
      rw [hcopy] at hdown hstopped
      split_ifs
      · exact ⟨by simpa [CopyStage.held] using hdown, h.up, by simp⟩
      · exact h
      · refine ⟨by simpa [CopyStage.held] using hdown, h.up, fun hp => ?_⟩
        exact absurd (hstopped hp) (by simp)
    · split_ifs
      · exact ⟨by simpa [hc] using h.down, h.up, by simpa [hc] using h.stopped⟩
      · exact h
      · exact ⟨by simpa [hc] using h.down, h.up, by simpa [hc] using h.stopped⟩
  · exact h

theorem Streams.sendBytes (h : s.Streams c) (c' : Channel) : (s.sendBytes c').Streams c := by
  unfold ScreenRelay.sendBytes
  split
  · rename_i data hcopy
    by_cases hc : c = c'
    · subst hc
      have hdown := h.down
      have hstopped := h.stopped
      rw [hcopy] at hdown hstopped
      have hp : s.pumping = true := by
        by_contra hp
        exact absurd (hstopped (by simpa using hp)) (by simp)
      split_ifs with hlive
      · refine ⟨?_, h.up, fun hp' => absurd hp (by simp_all)⟩
        have := hdown.forward ⟨hp, hlive⟩
        simpa [payloads_append, payloads_tagged, CopyStage.held] using this
      · exact ⟨hdown.lose (fun hl => hlive hl.2) List.prefix_rfl List.prefix_rfl, h.up, by simp⟩
    · split_ifs
      · refine ⟨?_, h.up, by simpa [hc] using h.stopped⟩
        simpa [hc, payloads_append, payloads_tagged, Ne.symm hc] using h.down
      · exact ⟨by simpa [hc] using h.down, h.up, by simpa [hc] using h.stopped⟩
  · exact h

theorem Streams.clientReceive (h : s.Streams c) : s.clientReceive.Streams c := by
  unfold ScreenRelay.clientReceive
  split
  · rename_i m rest hm
    have hdown := h.down
    rw [hm, payloads_cons] at hdown
    unfold route
    split
    · rename_i c' data haddr
      by_cases hc : c = c'
      · subst hc
        rw [payload_of_addressed haddr] at hdown
        exact ⟨by simpa using hdown.deliver, h.up, h.stopped⟩
      · rw [payload_of_ne haddr (Ne.symm hc)] at hdown
        exact ⟨by simpa [hc] using hdown, h.up, h.stopped⟩
    · rename_i haddr
      rw [payload_of_none haddr] at hdown
      exact ⟨hdown, h.up, h.stopped⟩
  · exact h

theorem Streams.clientSend (h : s.Streams c) (m : WebSocketMessage) :
    (s.clientSend m).Streams c := by
  refine ⟨h.down, ?_, h.stopped⟩
  unfold ScreenRelay.clientSend
  rw [payloads_append]
  dsimp only
  split_ifs with hlive
  · rw [payloads_append, ← List.append_assoc]
    exact h.up.push hlive
  · exact h.up.lose hlive List.prefix_rfl (List.prefix_append _ _)

theorem Streams.dispatch (h : s.Streams c) {m : WebSocketMessage}
    {rest : List WebSocketMessage} (hm : s.toGateway = m :: rest) :
    ({ s with toGateway := rest }.dispatch m).Streams c := by
  have hup := h.up
  rw [hm, payloads_cons] at hup
  unfold ScreenRelay.dispatch
  split
  · rename_i c' data haddr
    by_cases hc : c = c'
    · subst hc
      rw [payload_of_addressed haddr, ← List.append_assoc] at hup
      exact ⟨h.down, by simpa using hup, h.stopped⟩
    · rw [payload_of_ne haddr (Ne.symm hc)] at hup
      exact ⟨h.down, by simpa [hc] using hup, h.stopped⟩
  · rename_i haddr
    rw [payload_of_none haddr] at hup
    exact ⟨h.down, hup, h.stopped⟩

theorem Streams.receive (h : s.Streams c) : s.receive.Streams c := by
  unfold ScreenRelay.receive
  split
  · split
    · rename_i m rest hm
      exact h.dispatch hm
    · split
      · exact h
      · exact ⟨h.down, h.up, h.stopped⟩
  · exact h

theorem Streams.deviceRead (h : s.Streams c) (c' : Channel) (count : ℕ) :
    (s.deviceRead c' count).Streams c := by
  refine ⟨h.down, ?_, h.stopped⟩
  unfold ScreenRelay.deviceRead
  by_cases hc : c = c'
  · subst hc
    have hup := h.up
    rw [← List.take_append_drop count (s.outgoing c), List.append_assoc] at hup
    simpa using hup.deliver
  · simpa [hc] using h.up

theorem Streams.disconnect (h : s.Streams c) (toClient toGateway : ℕ) :
    (s.disconnect toClient toGateway).Streams c where
  down := h.down.lose (by simp [ScreenRelay.disconnect]) (payloads_prefix_take c _ _)
    List.prefix_rfl
  up := h.up.lose (by simp [ScreenRelay.disconnect])
    ((List.prefix_append_right_inj _).2 (payloads_prefix_take c _ _)) List.prefix_rfl
  stopped := h.stopped

theorem Streams.stop (h : s.Streams c) : s.stop.Streams c where
  down := h.down.lose (by simp [ScreenRelay.stop]) List.prefix_rfl List.prefix_rfl
  up := h.up
  stopped _ := rfl

theorem Streams.step (h : s.Streams c) : ∀ a, (s.step a).Streams c
  | .deviceWrite c' data => h.deviceWrite c' data
  | .deviceClose _ => ⟨h.down, h.up, h.stopped⟩
  | .read c' available => h.read c' available
  | .sendBytes c' => h.sendBytes c'
  | .clientReceive => h.clientReceive
  | .clientSend m => h.clientSend m
  | .receive => h.receive
  | .drained => ⟨h.down, h.up, h.stopped⟩
  | .deviceRead c' count => h.deviceRead c' count
  | .disconnect toClient toGateway => h.disconnect toClient toGateway
  | .stop => h.stop

/-- A message that is passed over changes nothing at the gateway and nothing at the client. -/
theorem pass_over {m : WebSocketMessage} (h : m.Stray) : s.dispatch m = s ∧ s.route m = s := by
  simp [dispatch, route, addressed_of_stray h]

/-- At every moment of every run, each channel has carried the beginning of what was put in at its
other end, and a stray message carries nothing and leaves both ends as they are. -/
theorem streams_kept (as : List Action) :
    Run.Always step (fun s =>
      (∀ c, s.clientReceived c <+: s.written c)
        ∧ (∀ c, s.deviceReceived c <+: payloads c s.clientSent)
        ∧ ∀ m : WebSocketMessage, m.Stray →
            (∀ c, m.payload c = []) ∧ s.dispatch m = s ∧ s.route m = s) start as := by
  refine Run.always_of_invariant (I := fun s => ∀ c, s.Streams c) (fun s hs => ?_)
    (fun s a hs c => (hs c).step a) as fun c => streams_start
  refine ⟨fun c => (hs c).down.delivered_prefix, fun c => (hs c).up.delivered_prefix,
    fun m hm => ⟨payload_of_none (addressed_of_stray hm), pass_over hm⟩⟩

end ScreenRelay

end Rackphone
