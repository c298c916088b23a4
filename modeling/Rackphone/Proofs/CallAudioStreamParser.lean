import Rackphone.CallAudioStreamParser

/-!
# Where the chunks of call audio make a difference

Once a format is announced no round stops the loop. A header that is not valid stops it, and the
eight bytes behind it are taken for a header at the next chunk, if there is one: with sixteen bytes
or more the chunks then decide how much is emitted.
-/

namespace Rackphone

open Incremental Transducer

namespace CallAudioStreamParser

variable {b : List UInt8}

theorem parse_short (h : b.length < 8) : parser.parse none b = ⟨none, b, [], false⟩ :=
  Parser.parse_of_lt h

theorem use_valid {header : List UInt8} (h : (callAudioFormat header).Valid) :
    parser.use none header
      = ⟨some ⟨callAudioFormat header, h⟩, [.format (callAudioFormat header)], true⟩ :=
  dif_pos h

theorem use_invalid {header : List UInt8} (h : ¬ (callAudioFormat header).Valid) :
    parser.use none header = ⟨none, [.error], false⟩ :=
  dif_neg h

/-- No frame stops the loop. -/
theorem stopped_announced (f : { f : CallAudioFormat // f.Valid }) (b : List UInt8) :
    (parser.parse (some f) b).stopped = false := by
  have key : ∀ s b, s = some f → (parser.parse s b).stopped = false := by
    intro s b
    induction s, b using parser.rounds with
    | done s b hb => exact fun _ => by rw [Parser.parse_of_lt hb]
    | stop s b hb hg =>
      rintro rfl
      exact absurd hg (by simp [parser, use])
    | round s b hb hg ih =>
      rintro rfl
      rw [Parser.parse_of_goesOn hb hg]
      exact ih rfl
  exact key _ b rfl

theorem stopped_valid (h : (callAudioFormat (b.take 8)).Valid) :
    (parser.parse none b).stopped = false := by
  by_cases hb : b.length < 8
  · rw [parse_short hb]
  · have huse := use_valid h
    rw [Parser.parse_of_goesOn hb (by rw [show parser.need none = 8 from rfl, huse]),
      show parser.need none = 8 from rfl, huse]
    exact stopped_announced _ _

theorem parse_invalid (hb : 8 ≤ b.length) (h : ¬ (callAudioFormat (b.take 8)).Valid) :
    parser.parse none b = ⟨none, b.drop 8, [.error], true⟩ := by
  have huse := use_invalid h
  rw [Parser.parse_of_stop (Nat.not_lt.2 hb) (by rw [show parser.need none = 8 from rfl, huse]),
    show parser.need none = 8 from rfl, huse]

theorem emits_of_stopped {cs : List (List UInt8)}
    (h : (parser.parse none cs.flatten).stopped = false) :
    emits cs = (parser.parse none cs.flatten).outputs := by
  rw [emits, Parser.run_add cs none [] (by decide) h]
  rfl

theorem run_short {cs : List (List UInt8)} {rest : List UInt8}
    (h : (rest ++ cs.flatten).length < 8) : (run parser.add (none, rest) cs).2 = [] := by
  have hrest : rest.length < 8 := (by simp : rest.length ≤ (rest ++ cs.flatten).length).trans_lt h
  have hparse := parse_short h
  rw [Parser.run_add cs none rest hrest (by rw [hparse]), hparse]

/-- Fewer than sixteen bytes have room for one bad header only. -/
theorem run_invalid : ∀ (cs : List (List UInt8)) (rest : List UInt8), rest.length < 8 →
    8 ≤ (rest ++ cs.flatten).length → (rest ++ cs.flatten).length < 16 →
      ¬ (callAudioFormat ((rest ++ cs.flatten).take 8)).Valid →
        (run parser.add (none, rest) cs).2 = [.error]
  | [], rest, hrest, h8, _, _ => by simp at h8; omega
  | c :: cs, rest, hrest, h8, h16, hinv => by
    rw [List.flatten_cons, ← List.append_assoc] at h8 h16 hinv
    rw [run_cons]
    by_cases hc : c = []
    · subst hc
      rw [List.append_nil] at h8 h16 hinv
      have ih := run_invalid cs rest hrest h8 h16 hinv
      simpa [Parser.add] using ih
    · rw [Parser.add, if_neg hc]
      rcases lt_or_ge (rest ++ c).length 8 with hlt | hge
      · have ih := run_invalid cs (rest ++ c) hlt h8 h16 hinv
        simpa [parse_short hlt] using ih
      · rw [List.take_append_of_le_length hge] at hinv
        rw [List.length_append] at h16
        have hshort : ((rest ++ c).drop 8 ++ cs.flatten).length < 8 := by
          rw [List.length_append, List.length_drop]
          omega
        simp [parse_invalid hge hinv, run_short hshort]

/-- The first chunk of more than eight bytes emits something. -/
theorem outputs_ne_nil (hb : 8 ≤ b.length) : (parser.parse none b).outputs ≠ [] := by
  by_cases h : (callAudioFormat (b.take 8)).Valid
  · have huse := use_valid h
    rw [Parser.parse_of_goesOn (Nat.not_lt.2 hb)
      (by rw [show parser.need none = 8 from rfl, huse]), show parser.need none = 8 from rfl, huse]
    simp
  · simp [parse_invalid hb h]

theorem chunkFree_of (h : b.length < 16 ∨ (callAudioFormat (b.take 8)).Valid) : ChunkFree b := by
  intro cs cs' _ _ hcs hcs'
  by_cases hvalid : (callAudioFormat (b.take 8)).Valid
  · have hstop := stopped_valid hvalid
    rw [emits_of_stopped (by rwa [hcs]), emits_of_stopped (by rwa [hcs']), hcs, hcs']
  · have h16 := h.resolve_right hvalid
    rcases lt_or_ge b.length 8 with hlt | hge
    · rw [emits, emits, run_short (by simpa [hcs] using hlt), run_short (by simpa [hcs'] using hlt)]
    · rw [emits, emits, run_invalid cs [] (by decide) (by rwa [List.nil_append, hcs])
          (by rwa [List.nil_append, hcs]) (by rwa [List.nil_append, hcs]),
        run_invalid cs' [] (by decide) (by rwa [List.nil_append, hcs'])
          (by rwa [List.nil_append, hcs']) (by rwa [List.nil_append, hcs'])]

/-- The input at once against the bad header and the rest. -/
theorem not_chunkFree (h16 : 16 ≤ b.length) (h : ¬ (callAudioFormat (b.take 8)).Valid) :
    ¬ ChunkFree b := by
  intro hfree
  have hb : b ≠ [] := by
    rintro rfl
    exact absurd h16 (by decide)
  have hfront : b.take 8 ≠ [] := fun hn => by
    have := congrArg List.length hn
    rw [List.length_take, List.length_nil] at this
    omega
  have hback : b.drop 8 ≠ [] := fun hn => by
    have := congrArg List.length hn
    rw [List.length_drop, List.length_nil] at this
    omega
  have hlen : (b.take 8).length = 8 := by
    rw [List.length_take]
    omega
  have hone : emits [b] = [.error] := by
    simp [emits, run_cons, Parser.add, hb, parse_invalid (by omega : 8 ≤ b.length) h]
  have htwo : emits [b.take 8, b.drop 8] = .error :: (parser.parse none (b.drop 8)).outputs := by
    have hbad : parser.parse none (b.take 8) = ⟨none, [], [.error], true⟩ := by
      rw [parse_invalid hlen.ge (by rwa [List.take_take, min_self]), List.drop_eq_nil_of_le hlen.le]
    simp [emits, run_cons, Parser.add, hfront, hback, hbad]
  have heq := hfree [b] [b.take 8, b.drop 8] (by simpa using hb) (by simp [hfront, hback])
    (by simp) (by simp)
  rw [hone, htwo] at heq
  refine outputs_ne_nil (b := b.drop 8) ?_ (List.cons.inj heq).2.symm
  rw [List.length_drop]
  omega

theorem value_putInt {n : ℕ} (h : n < 2 ^ 31) : BigEndian.value (putInt n) = n := by
  have heq : putInt n = BigEndian.bytes 4 n := by
    simp [putInt, BigEndian.bytes, Nat.shiftRight_eq_div_pow]
  rw [heq, BigEndian.value_bytes (h.trans (by norm_num))]

theorem callAudioFormat_header (v : VoiceStream) :
    callAudioFormat (putInt v.format.sampleRate ++ putInt v.format.frameBytes) = v.format := by
  have h : callAudioFormat (putInt v.format.sampleRate ++ putInt v.format.frameBytes)
      = ⟨BigEndian.value (putInt v.format.sampleRate),
        BigEndian.value (putInt v.format.frameBytes)⟩ := rfl
  rw [h, value_putInt v.rate_lt, value_putInt v.frameBytes_lt]

theorem parse_frames (f : { f : CallAudioFormat // f.Valid }) : ∀ frames : List (List UInt8),
    (∀ frame ∈ frames, frame.length = f.1.frameBytes) →
      (parser.parse (some f) frames.flatten).outputs = frames.map .frame
  | [], _ => by
    rw [List.flatten_nil, Parser.parse_of_lt (b := []) f.2.2]
    rfl
  | frame :: frames, h => by
    obtain ⟨hframe, hframes⟩ := List.forall_mem_cons.1 h
    rw [List.flatten_cons, Parser.parse_front hframe rfl, List.map_cons,
      ← parse_frames f frames hframes]
    rfl

theorem parse_voice (v : VoiceStream) : (parser.parse none v.bytes).stopped = false
    ∧ (parser.parse none v.bytes).outputs = .format v.format :: v.frames.map .frame := by
  have hformat := callAudioFormat_header v
  have hvalid : (callAudioFormat
      (putInt v.format.sampleRate ++ putInt v.format.frameBytes)).Valid := hformat.symm ▸ v.valid
  have huse := use_valid hvalid
  have hframes := parse_frames ⟨_, hvalid⟩ v.frames (by simpa only [hformat] using v.whole)
  rw [VoiceStream.bytes, Parser.parse_front rfl (by rw [huse]), huse]
  refine ⟨stopped_announced _ _, ?_⟩
  rw [← hframes]
  exact congrArg (fun f => CallAudioEvent.format f :: _) hformat

/-- The bytes whose chunks make no difference, and a stream of the voice bridge is one and gives
its format and its frames. -/
theorem chunkFree_iff (bytes : List UInt8) :
    (ChunkFree bytes ↔ bytes.length < 16 ∨ (callAudioFormat (bytes.take 8)).Valid)
    ∧ ∀ (v : VoiceStream) (chunks : List (List UInt8)), chunks.flatten = v.bytes →
      emits chunks = .format v.format :: v.frames.map .frame := by
  refine ⟨⟨fun hfree => ?_, chunkFree_of⟩, fun v chunks h => ?_⟩
  · by_contra hn
    rw [not_or, not_lt] at hn
    exact not_chunkFree hn.1 hn.2 hfree
  · obtain ⟨hstop, hout⟩ := parse_voice v
    rw [emits_of_stopped (by rwa [h]), h, hout]

/-- A bad header and a good one, at once and apart. -/
theorem bad_header_apart : ¬ ∀ bytes, ChunkFree bytes := by
  intro h
  have := h (putInt 0 ++ putInt 0 ++ putInt 8000 ++ putInt 320)
    [putInt 0 ++ putInt 0 ++ putInt 8000 ++ putInt 320]
    [putInt 0 ++ putInt 0, putInt 8000 ++ putInt 320] (by decide) (by decide) (by decide)
    (by decide)
  exact absurd this (by decide +kernel)

end CallAudioStreamParser

end Rackphone
