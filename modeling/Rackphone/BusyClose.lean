import Rackphone.EventFrames
import Rackphone.Lib.Lines

/-!
# Refused as busy

The close with which `hold_relay` of `gateway/api.py` refuses a held unit, and what the two sockets
of the client, `ScreenSocket` and `CallAudioSocket`, make of a close.
-/

namespace Rackphone

namespace BusyClose

def SESSION_BUSY_REASON : List Char := "session_busy".toList

def WS_POLICY : ℕ := 1008

def WS_NORMAL : ℕ := 1000

/-- The most bytes of a close frame that its code leaves to the reason. -/
def MAX_REASON_BYTES : ℕ := 123

/-- The reason of the refusal, for the holder a `SessionBusy` names. -/
def reason (holder : List Char) : List Char := SESSION_BUSY_REASON ++ ' ' :: holder.take 64

structure CloseFrame where
  code : ℕ
  reason : List UInt8

/-- The frame a close is sent in; there is none for a reason that is too long. -/
def CloseFrame.encode (code : ℕ) (reason : List Char) : Option CloseFrame :=
  if (Utf8.encode reason).length ≤ MAX_REASON_BYTES then some ⟨code, Utf8.encode reason⟩ else none

/-! ## The client -/

/-- `ScreenCloseKind` and `CallCloseKind`. -/
inductive CloseKind
  | closed
  | heldByAnotherDevice
  | networkFailure
deriving DecidableEq

structure CloseReason where
  kind : CloseKind
  message : List Char
deriving DecidableEq

/-- Dart's `replaceFirst(pattern, '')`. -/
def removeFirst (pattern : List Char) : List Char → List Char
  | [] => []
  | c :: text =>
    if pattern.isPrefixOf (c :: text) then (c :: text).drop pattern.length
    else c :: removeFirst pattern text

/-- A trimmed name, or none where nothing is left of it. -/
def trimmedName (text : List Char) : Option (List Char) :=
  let name := Lines.strip isDartSpace text
  if name = [] then none else some name

/-- The getter `holder` of a class whose token is `busy`. -/
def CloseReason.holder (busy : List Char) (r : CloseReason) : Option (List Char) :=
  if r.kind ≠ .heldByAnotherDevice then none else trimmedName (removeFirst busy r.message)

/-- The reason a socket completes `closed` with when it is done; `lost` stands where the peer gave
none. -/
def closeReasonOf (busy lost : List Char) (closeRequested : Bool) (code : Option ℕ)
    (closeReason : Option (List Char)) : CloseReason :=
  let reason := closeReason.getD []
  if code = some WS_POLICY ∧ busy.isPrefixOf reason then ⟨.heldByAnotherDevice, reason⟩
  else if closeRequested ∨ code = some WS_NORMAL then ⟨.closed, reason⟩
  else ⟨.networkFailure, if reason = [] then lost else reason⟩

structure ScreenSocket where
  closeRequested : Bool
  closed : Option CloseReason

def sessionBusyReason : List Char := "session_busy".toList

def ScreenSocket.onDone (s : ScreenSocket) (code : Option ℕ) (closeReason : Option (List Char)) :
    ScreenSocket :=
  { s with
    closed := s.closed.or (closeReasonOf sessionBusyReason "Screen connection was lost.".toList
      s.closeRequested code closeReason) }

def screenHolder (r : CloseReason) : Option (List Char) := r.holder sessionBusyReason

/-- The future `ready`. -/
inductive Ready
  | waiting
  | completed
  | failed (error : List Char)

structure CallAudioSocket where
  closeRequested : Bool
  closed : Option CloseReason
  ready : Ready

def callSessionBusyReason : List Char := "session_busy".toList

def CallAudioSocket.onDone (s : CallAudioSocket) (code : Option ℕ)
    (closeReason : Option (List Char)) : CallAudioSocket :=
  let reason := closeReason.getD []
  { s with
    ready :=
      match s.ready with
      | .waiting =>
        .failed (if reason = [] then "Connection closed before the audio header".toList else reason)
      | ready => ready
    closed := s.closed.or (closeReasonOf callSessionBusyReason
      "Call audio connection was lost.".toList s.closeRequested code closeReason) }

def callHolder (r : CloseReason) : Option (List Char) := r.holder callSessionBusyReason

/-! ## The refusal at the client -/

/-- What the client is told where the unit is held under this label. -/
def Told (label : List Char) (closed : Option CloseReason)
    (holder : CloseReason → Option (List Char)) : Prop :=
  ∃ r, closed = some r ∧ r.kind = .heldByAnotherDevice ∧ holder r = trimmedName (label.take 64)

/-- The refusal is sent, and the sockets it comes to first make of it what it says. -/
def Reaches (label : List Char) : Prop :=
  ∃ frame, CloseFrame.encode WS_POLICY (reason label) = some frame
    ∧ (∀ closeRequested, Told label
        (ScreenSocket.onDone ⟨closeRequested, none⟩ (some frame.code)
          (Utf8.decode frame.reason)).closed screenHolder)
    ∧ ∀ closeRequested ready, Told label
        (CallAudioSocket.onDone ⟨closeRequested, none, ready⟩ (some frame.code)
          (Utf8.decode frame.reason)).closed callHolder

end BusyClose

end Rackphone
