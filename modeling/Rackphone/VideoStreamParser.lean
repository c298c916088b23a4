import Rackphone.Lib.BigEndian
import Rackphone.Lib.Incremental
import Rackphone.Lib.Utf8

/-!
# The client's video parser

`VideoStreamParser` of `screen/protocol.dart`, one round of `_parse` at a time: the introduction,
the header of a packet, its data. Over it stands scrcpy's framing of an introduction and of packets.
-/

namespace Rackphone

open Incremental

structure DeviceInfo where
  name : List Char
  codec : List Char
  width : ℕ
  height : ℕ
deriving DecidableEq

structure VideoPacket where
  pts : ℕ
  isConfig : Bool
  isKeyFrame : Bool
  data : List UInt8
deriving DecidableEq

inductive VideoEvent where
  | device (info : DeviceInfo)
  | video (packet : VideoPacket)
  /-- The exception `add` throws. -/
  | formatException
deriving DecidableEq

structure VideoStreamParser where
  hasDeviceInfo : Bool
  packetLength : Option ℕ
  packetPts : ℕ
  packetIsConfig : Bool
  packetIsKeyFrame : Bool

def introductionLength : ℕ := 64 + 4 + 4 + 4

def uint32 (bytes : List UInt8) (offset : ℕ) : ℕ := BigEndian.value ((bytes.drop offset).take 4)

def uint64 (bytes : List UInt8) (offset : ℕ) : ℕ := BigEndian.value ((bytes.drop offset).take 8)

/-- `ascii.decode`. -/
def asciiDecode (bytes : List UInt8) : Option (List Char) :=
  if bytes.all fun b => b < 128 then some (bytes.map fun b => Char.ofNat b.toNat) else none

def deviceInfo (introduction : List UInt8) : Option DeviceInfo := do
  let nameBytes := introduction.take 64
  let codecBytes := (introduction.drop 64).take 4
  let name ← Utf8.decode (nameBytes.takeWhile fun b => b ≠ 0)
  let codec ← asciiDecode (codecBytes.filter fun b => b ≠ 0)
  return ⟨name, codec, uint32 introduction 68, uint32 introduction 72⟩

namespace VideoStreamParser

def start : VideoStreamParser := ⟨false, none, 0, false, false⟩

def withHeader (s : VideoStreamParser) (header : List UInt8) : VideoStreamParser :=
  let ptsAndFlags := uint64 header 0
  { s with
    packetIsConfig := ptsAndFlags &&& 2 ^ 63 ≠ 0
    packetIsKeyFrame := ptsAndFlags &&& 2 ^ 62 ≠ 0
    packetPts := ptsAndFlags &&& (2 ^ 62 - 1)
    packetLength := some (uint32 header 8) }

/-- How many bytes the next round of `_parse` takes. -/
def need (s : VideoStreamParser) : ℕ :=
  if s.hasDeviceInfo then s.packetLength.getD 12 else introductionLength

/-- One round, on as many bytes as it takes. After an introduction that cannot be decoded the next
is taken for one again. -/
def use (s : VideoStreamParser) (front : List UInt8) : Used VideoStreamParser VideoEvent :=
  if s.hasDeviceInfo then
    match s.packetLength with
    | none => ⟨s.withHeader front, [], true⟩
    | some _ =>
      let packet := ⟨s.packetPts, s.packetIsConfig, s.packetIsKeyFrame, front⟩
      ⟨{ s with packetLength := none }, [.video packet], true⟩
  else
    match deviceInfo front with
    | some info => ⟨{ s with hasDeviceInfo := true }, [.device info], true⟩
    | none => ⟨s, [.formatException], false⟩

/-- `_parse`, by its rounds. A packet may be empty; a header is not. -/
def parser : Parser VideoStreamParser UInt8 VideoEvent where
  need := need
  use := use
  idle s := s.hasDeviceInfo ∧ s.packetLength.isSome
  idle_of_need s h := by
    rcases s with ⟨_ | _, _ | n, _⟩ <;> simp_all [need, introductionLength]
  idle_use s front h := by
    rcases s with ⟨_ | _, _ | n, _⟩ <;> simp_all [need, introductionLength, use]

end VideoStreamParser

/-- What a device announces: a name of at most 64 bytes, a codec of four ASCII characters and two
dimensions of 32 bits. -/
structure Introduction where
  name : List Char
  codec : List Char
  width : ℕ
  height : ℕ
  name_le : (Utf8.encode name).length ≤ 64
  codec_length : codec.length = 4
  codec_ascii : ∀ c ∈ codec, c.toNat < 128
  width_lt : width < 2 ^ 32
  height_lt : height < 2 ^ 32

namespace Introduction

variable (i : Introduction)

def nameField : List UInt8 :=
  Utf8.encode i.name ++ List.replicate (64 - (Utf8.encode i.name).length) 0

def codecField : List UInt8 := i.codec.map fun c => UInt8.ofNat c.toNat

def encode : List UInt8 :=
  i.nameField ++ i.codecField ++ BigEndian.bytes 4 i.width ++ BigEndian.bytes 4 i.height

def info : DeviceInfo := ⟨i.name, i.codec, i.width, i.height⟩

/-- The name up to its first NUL, without a byte order mark, and the codec without NULs. -/
def shown : DeviceInfo where
  name := Utf8.withoutMark (i.name.takeWhile fun c => c ≠ '\x00')
  codec := i.codec.filter fun c => c ≠ '\x00'
  width := i.width
  height := i.height

end Introduction

/-- A packet as scrcpy can frame it. -/
structure ScrcpyPacket extends VideoPacket where
  pts_lt : pts < 2 ^ 62
  data_lt : data.length < 2 ^ 32

namespace ScrcpyPacket

variable (p : ScrcpyPacket)

/-- The flags and the timestamp in one word. -/
def word : ℕ :=
  p.pts + (if p.isConfig then 2 ^ 63 else 0) + if p.isKeyFrame then 2 ^ 62 else 0

def header : List UInt8 := BigEndian.bytes 8 p.word ++ BigEndian.bytes 4 p.data.length

def encode : List UInt8 := p.header ++ p.data

/-- The packets that are complete in the first `n` bytes of their stream. -/
def complete : ℕ → List ScrcpyPacket → List ScrcpyPacket
  | _, [] => []
  | n, p :: ps => if n < p.encode.length then [] else p :: complete (n - p.encode.length) ps

end ScrcpyPacket

/-- What is to be emitted for the first `n` bytes of a stream. -/
def emitted (info : DeviceInfo) (ps : List ScrcpyPacket) (n : ℕ) : List VideoEvent :=
  if n < introductionLength then []
  else .device info :: (ScrcpyPacket.complete (n - introductionLength) ps).map fun p =>
    .video p.toVideoPacket

def videoStream (i : Introduction) (ps : List ScrcpyPacket) : List UInt8 :=
  i.encode ++ ps.flatMap ScrcpyPacket.encode

end Rackphone
