import Rackphone.Lib.BigEndian
import Rackphone.Lib.Incremental

/-!
# The client's call-audio parser

`CallAudioStreamParser` of `call/protocol.dart`, one round of `_parse` at a time, and the stream
`VoiceBridge.java` writes: a header of two numbers, then frames of one size. A header that is not
valid is reported and ends the loop, with what came behind it still in the buffer.
-/

namespace Rackphone

open Incremental Transducer

structure CallAudioFormat where
  sampleRate : ℕ
  frameBytes : ℕ
deriving DecidableEq

def CallAudioFormat.Valid (f : CallAudioFormat) : Prop := 0 < f.sampleRate ∧ 0 < f.frameBytes

instance (f : CallAudioFormat) : Decidable f.Valid := inferInstanceAs (Decidable (_ ∧ _))

inductive CallAudioEvent where
  | format (f : CallAudioFormat)
  /-- `Invalid call audio header`. -/
  | error
  | frame (data : List UInt8)
deriving DecidableEq

/-- `_announced`. -/
abbrev CallAudioStreamParser := Option { f : CallAudioFormat // f.Valid }

def callAudioFormat (header : List UInt8) : CallAudioFormat where
  sampleRate := BigEndian.value (header.take 4)
  frameBytes := BigEndian.value ((header.drop 4).take 4)

namespace CallAudioStreamParser

def need : CallAudioStreamParser → ℕ
  | none => 8
  | some announced => announced.1.frameBytes

def use (s : CallAudioStreamParser) (front : List UInt8) :
    Used CallAudioStreamParser CallAudioEvent :=
  match s with
  | none =>
    let announced := callAudioFormat front
    if h : announced.Valid then ⟨some ⟨announced, h⟩, [.format announced], true⟩
    else ⟨none, [.error], false⟩
  | some announced => ⟨some announced, [.frame front], true⟩

/-- `_parse`, by its rounds. -/
def parser : Parser CallAudioStreamParser UInt8 CallAudioEvent where
  need := need
  use := use
  idle _ := false
  idle_of_need s h := by
    rcases s with _ | ⟨f, hf⟩
    · exact absurd h (by simp [need])
    · exact absurd h hf.2.ne'
  idle_use _ _ _ := rfl

/-- What is emitted for some chunks. -/
def emits (chunks : List (List UInt8)) : List CallAudioEvent := (run parser.add (none, []) chunks).2

/-- However the bytes are cut into chunks that are not empty, the same is emitted. -/
def ChunkFree (bytes : List UInt8) : Prop :=
  ∀ cs cs' : List (List UInt8), (∀ c ∈ cs, c ≠ []) → (∀ c ∈ cs', c ≠ []) →
    cs.flatten = bytes → cs'.flatten = bytes → emits cs = emits cs'

end CallAudioStreamParser

/-- `VoiceBridge.putInt`. -/
def putInt (value : ℕ) : List UInt8 :=
  [UInt8.ofNat (value >>> 24), UInt8.ofNat (value >>> 16), UInt8.ofNat (value >>> 8),
    UInt8.ofNat value]

/-- What the voice bridge writes on one socket: the header and some whole frames. The two numbers
are positive Java integers. -/
structure VoiceStream where
  format : CallAudioFormat
  frames : List (List UInt8)
  valid : format.Valid
  rate_lt : format.sampleRate < 2 ^ 31
  frameBytes_lt : format.frameBytes < 2 ^ 31
  whole : ∀ frame ∈ frames, frame.length = format.frameBytes

def VoiceStream.bytes (v : VoiceStream) : List UInt8 :=
  putInt v.format.sampleRate ++ putInt v.format.frameBytes ++ v.frames.flatten

end Rackphone
