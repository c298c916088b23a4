import Rackphone.VideoStreamParser

/-!
# Parsing what scrcpy frames

The rounds undo the framing: one round reads an introduction back, one the header of a packet, with
the flags and the timestamp apart again, and one its data. So the first `n` bytes of a stream give
the packets that are complete in them, and how they are cut does not matter.
-/

namespace Rackphone

open Incremental Transducer

theorem slice_append {α : Type*} {a b : List α} {n : ℕ} (ha : a.length = n) (c : List α) {m : ℕ}
    (hb : b.length = m) : ((a ++ (b ++ c)).drop n).take m = b := by
  subst ha hb
  simp

namespace Introduction

variable (i : Introduction)

theorem length_nameField : i.nameField.length = 64 := by
  have := i.name_le
  rw [nameField, List.length_append, List.length_replicate]
  omega

theorem length_codecField : i.codecField.length = 4 := by
  rw [codecField, List.length_map, i.codec_length]

theorem length_encode : i.encode.length = introductionLength := by
  simp [encode, length_nameField, length_codecField, introductionLength]

theorem name_decoded : Utf8.decode (i.nameField.takeWhile fun b => b ≠ 0)
    = some (Utf8.withoutMark (i.name.takeWhile fun c => c ≠ '\x00')) := by
  rw [nameField, Utf8.takeWhile_encode, Utf8.decode_encode]

theorem codec_decoded : asciiDecode (i.codecField.filter fun b => b ≠ 0)
    = some (i.codec.filter fun c => c ≠ '\x00') := by
  have hbyte : ∀ c ∈ i.codec, (UInt8.ofNat c.toNat).toNat = c.toNat := fun c hc =>
    UInt8.toNat_ofNat_of_lt' ((i.codec_ascii c hc).trans (by decide))
  have hzero : ∀ c ∈ i.codec, UInt8.ofNat c.toNat = 0 ↔ c = '\x00' := fun c hc => by
    rw [← UInt8.toNat_inj, hbyte c hc, ← Char.toNat_inj]
    rfl
  have hfilter : i.codecField.filter (fun b => b ≠ 0)
      = (i.codec.filter fun c => c ≠ '\x00').map fun c => UInt8.ofNat c.toNat := by
    rw [codecField, List.filter_map]
    refine congrArg _ (List.filter_congr fun c hc => ?_)
    simp [hzero c hc]
  have hmem : ∀ c ∈ i.codec.filter (fun c => c ≠ '\x00'), c ∈ i.codec := fun c hc =>
    (List.mem_filter.1 hc).1
  rw [asciiDecode, hfilter, if_pos, List.map_map]
  · refine congrArg some ((List.map_congr_left fun c hc => ?_).trans (List.map_id _))
    simp [hbyte c (hmem c hc), Char.ofNat_toNat]
  · rw [List.all_map, List.all_eq_true]
    intro c hc
    have hlt := i.codec_ascii c (hmem c hc)
    simpa [UInt8.lt_iff_toNat_lt, hbyte c (hmem c hc)] using hlt

theorem deviceInfo_encode : deviceInfo i.encode = some i.shown := by
  have hname : i.encode.take 64 = i.nameField := by
    rw [encode, List.append_assoc, List.append_assoc, ← i.length_nameField, List.take_left]
  have hcodec : (i.encode.drop 64).take 4 = i.codecField := by
    rw [encode, List.append_assoc, List.append_assoc]
    exact slice_append i.length_nameField _ i.length_codecField
  have hwidth : uint32 i.encode 68 = i.width := by
    rw [uint32, encode, List.append_assoc, slice_append _ _ (BigEndian.length_bytes 4 _),
      BigEndian.value_bytes i.width_lt]
    simp [length_nameField, length_codecField]
  have hheight : uint32 i.encode 72 = i.height := by
    rw [uint32, encode, ← List.append_nil (BigEndian.bytes 4 i.height),
      slice_append _ _ (BigEndian.length_bytes 4 _), BigEndian.value_bytes i.height_lt]
    simp [length_nameField, length_codecField]
  simp only [deviceInfo, hname, hcodec, hwidth, hheight, name_decoded, codec_decoded]
  rfl

end Introduction

namespace ScrcpyPacket

variable (p : ScrcpyPacket)

theorem length_header : p.header.length = 12 := by simp [header]

theorem word_lt : p.word < 256 ^ 8 := by
  have := p.pts_lt
  unfold word
  split_ifs <;> omega

theorem isConfig_word : (p.word &&& 2 ^ 63 ≠ 0) ↔ p.isConfig = true := by
  have := p.pts_lt
  rw [Nat.and_two_pow, Nat.testBit_eq_decide_div_mod_eq, word]
  split_ifs <;> simp_all <;> omega

theorem isKeyFrame_word : (p.word &&& 2 ^ 62 ≠ 0) ↔ p.isKeyFrame = true := by
  have := p.pts_lt
  rw [Nat.and_two_pow, Nat.testBit_eq_decide_div_mod_eq, word]
  split_ifs <;> simp_all <;> omega

theorem pts_word : p.word &&& (2 ^ 62 - 1) = p.pts := by
  have := p.pts_lt
  rw [Nat.and_two_pow_sub_one_eq_mod, word]
  split_ifs <;> omega

theorem uint64_header : uint64 p.header 0 = p.word := by
  have h := slice_append (a := []) rfl (BigEndian.bytes 4 p.data.length)
    (BigEndian.length_bytes 8 p.word)
  rw [List.nil_append, List.length_nil] at h
  rw [uint64, header, h, BigEndian.value_bytes p.word_lt]

theorem uint32_header : uint32 p.header 8 = p.data.length := by
  rw [uint32, header, ← List.append_nil (BigEndian.bytes 4 _),
    slice_append (BigEndian.length_bytes 8 _) _ (BigEndian.length_bytes 4 _),
    BigEndian.value_bytes p.data_lt]

end ScrcpyPacket

namespace VideoStreamParser

variable {s : VideoStreamParser}

theorem use_introduction (hs : s.hasDeviceInfo = false) (i : Introduction) :
    parser.use s i.encode = ⟨{ s with hasDeviceInfo := true }, [.device i.shown], true⟩ := by
  simp [parser, use, hs, i.deviceInfo_encode]

/-- The state once the header of a packet is taken. -/
def pending (s : VideoStreamParser) (p : ScrcpyPacket) : VideoStreamParser :=
  ⟨s.hasDeviceInfo, some p.data.length, p.pts, p.isConfig, p.isKeyFrame⟩

theorem use_header (hs : s.hasDeviceInfo = true) (hp : s.packetLength = none) (p : ScrcpyPacket) :
    parser.use s p.header = ⟨s.pending p, [], true⟩ := by
  have h : s.withHeader p.header = s.pending p := by
    simp only [withHeader, pending, p.uint64_header, p.uint32_header, p.pts_word, p.isConfig_word,
      p.isKeyFrame_word, Bool.decide_eq_true]
  simp [parser, use, hs, hp, h]

theorem use_data (hs : s.hasDeviceInfo = true) (p : ScrcpyPacket) :
    parser.use (s.pending p) p.data
      = ⟨{ s.pending p with packetLength := none }, [.video p.toVideoPacket], true⟩ := by
  simp [parser, use, pending, hs]

theorem need_header (hs : s.hasDeviceInfo = true) (hp : s.packetLength = none) :
    parser.need s = 12 := by
  simp [parser, need, hs, hp]

theorem need_data (hs : s.hasDeviceInfo = true) (p : ScrcpyPacket) :
    parser.need (s.pending p) = p.data.length := by
  simp [parser, need, pending, hs]

open ScrcpyPacket (complete)

/-- The first `n` bytes of some packets give those that are complete in them. -/
theorem parse_packets : ∀ (ps : List ScrcpyPacket) (n : ℕ) (s : VideoStreamParser),
    s.hasDeviceInfo = true → s.packetLength = none →
      let r := parser.parse s ((ps.flatMap ScrcpyPacket.encode).take n)
      r.outputs = ((complete n ps).map fun p => .video p.toVideoPacket) ∧ r.stopped = false
  | [], n, s, hs, hp => by
    have h := Parser.parse_of_lt (b := []) (by rw [need_header hs hp]; decide)
    simp [h, complete]
  | p :: ps, n, s, hs, hp => by
    have hlen := p.length_header
    have htotal : p.encode.length = 12 + p.data.length := by
      rw [ScrcpyPacket.encode, List.length_append, hlen]
    dsimp only
    rw [List.flatMap_cons, ScrcpyPacket.encode, complete, htotal, List.append_assoc]
    rcases lt_or_ge n 12 with hn | hn
    · rw [Parser.parse_of_lt ((List.length_take_le _ _).trans_lt (by rwa [need_header hs hp])),
        if_pos (by omega)]
      exact ⟨rfl, rfl⟩
    obtain ⟨m, rfl⟩ := Nat.exists_eq_add_of_le hn
    have hheader := use_header hs hp p
    rw [← hlen, List.take_length_add_append,
      Parser.parse_front (hlen.trans (need_header hs hp).symm) (by rw [hheader]), hheader, hlen]
    rcases lt_or_ge m p.data.length with hm | hm
    · rw [Parser.parse_of_lt ((List.length_take_le _ _).trans_lt (by rwa [need_data hs])),
        if_pos (by omega)]
      exact ⟨rfl, rfl⟩
    obtain ⟨k, rfl⟩ := Nat.exists_eq_add_of_le hm
    have hdata := use_data hs p
    obtain ⟨ih, ih'⟩ := parse_packets ps k { s.pending p with packetLength := none } hs rfl
    rw [List.take_length_add_append, Parser.parse_front (need_data hs p).symm (by rw [hdata]),
      hdata, if_neg (by omega),
      show 12 + (p.data.length + k) - (12 + p.data.length) = k by omega]
    exact ⟨by simp [ih], ih'⟩

/-- The first `n` bytes of a stream, however they are cut. -/
theorem parse_stream (i : Introduction) (ps : List ScrcpyPacket) (n : ℕ) :
    let r := parser.parse start ((videoStream i ps).take n)
    r.outputs = emitted i.shown ps n ∧ r.stopped = false := by
  have hlen := i.length_encode
  dsimp only
  unfold emitted
  rcases lt_or_ge n introductionLength with hn | hn
  · rw [Parser.parse_of_lt ((List.length_take_le _ _).trans_lt hn), if_pos hn]
    exact ⟨rfl, rfl⟩
  · obtain ⟨m, rfl⟩ := Nat.exists_eq_add_of_le hn
    obtain ⟨h, h'⟩ := parse_packets ps m { start with hasDeviceInfo := true } rfl rfl
    have hintro := use_introduction (s := start) rfl i
    rw [videoStream, ← hlen, List.take_length_add_append, Parser.parse_front hlen (by rw [hintro]),
      hintro, hlen, if_neg (by omega), Nat.add_sub_cancel_left]
    exact ⟨by simp [h], h'⟩

theorem length_videoStream_packets (ps : List ScrcpyPacket) :
    ∀ n, (ps.flatMap ScrcpyPacket.encode).length ≤ n → complete n ps = ps := by
  induction ps with
  | nil => exact fun n _ => rfl
  | cons p ps ih =>
    intro n hn
    rw [List.flatMap_cons, List.length_append] at hn
    rw [complete, if_neg (by omega), ih _ (by omega)]

/-- Whatever chunks the bytes come in, a stream gives its introduction, as it is shown, and its
packets; and a beginning of it gives what is complete in it. -/
theorem stream_parsed (i : Introduction) (ps : List ScrcpyPacket) (chunks : List (List UInt8)) :
    (chunks.flatten = videoStream i ps →
      (run parser.add (start, []) chunks).2
        = .device i.shown :: ps.map fun p => .video p.toVideoPacket)
    ∧ ∀ n, chunks.flatten = (videoStream i ps).take n →
      (run parser.add (start, []) chunks).2 = emitted i.shown ps n := by
  have htake : ∀ n, chunks.flatten = (videoStream i ps).take n →
      (run parser.add (start, []) chunks).2 = emitted i.shown ps n := by
    intro n h
    obtain ⟨hout, hstop⟩ := parse_stream i ps n
    rw [← h] at hout hstop
    rw [Parser.run_add chunks start [] (by decide) (by simpa using hstop)]
    simpa using hout
  refine ⟨fun h => ?_, htake⟩
  have hlen : (videoStream i ps).length
      = introductionLength + (ps.flatMap ScrcpyPacket.encode).length := by
    rw [videoStream, List.length_append, i.length_encode]
  rw [htake (videoStream i ps).length (by rw [h, List.take_length]), emitted, hlen,
    if_neg (by omega), Nat.add_sub_cancel_left, length_videoStream_packets ps _ le_rfl]

/-- A name with a NUL in it, which the zeros that pad the field are taken for. -/
def nulIntroduction : Introduction where
  name := ['a', '\x00', 'b']
  codec := ['h', '2', '6', '4']
  width := 1080
  height := 1920
  name_le := by decide
  codec_length := rfl
  codec_ascii := by simp
  width_lt := by decide
  height_lt := by decide

theorem nul_in_name : ∃ chunks : List (List UInt8),
    chunks.flatten = videoStream nulIntroduction []
      ∧ (run parser.add (start, []) chunks).2 ≠ [.device nulIntroduction.info] :=
  ⟨[videoStream nulIntroduction []], List.append_nil _, by decide +kernel⟩

/-- A configuration and a key frame. -/
def twoPackets : List ScrcpyPacket :=
  [⟨⟨0, true, false, [0, 0, 0, 1, 0x67]⟩, by decide, by decide⟩,
    ⟨⟨33333, false, true, [0, 0, 0, 1, 0x65, 0x88]⟩, by decide, by decide⟩]

/-- The stream is cut in the name, in the first header, and in the data of either packet. -/
theorem nul_stream_parsed :
    (run parser.add (start, []) [(videoStream nulIntroduction twoPackets).take 30,
      ((videoStream nulIntroduction twoPackets).drop 30).take 50,
      ((videoStream nulIntroduction twoPackets).drop 80).take 10,
      ((videoStream nulIntroduction twoPackets).drop 90).take 18,
      (videoStream nulIntroduction twoPackets).drop 108]).2
        = [.device ⟨['a'], ['h', '2', '6', '4'], 1080, 1920⟩,
          .video ⟨0, true, false, [0, 0, 0, 1, 0x67]⟩,
          .video ⟨33333, false, true, [0, 0, 0, 1, 0x65, 0x88]⟩] :=
  (stream_parsed nulIntroduction twoPackets _).1 (by decide +kernel)

end VideoStreamParser

end Rackphone
