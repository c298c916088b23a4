import Rackphone.Lib.Run

/-!
# Keypad tones

`CallControl.dtmf` of `CallControl.kt`, and the main looper's queue its tones are posted to. Times
are milliseconds on the uptime clock.
-/

namespace Rackphone

structure Call where
  id : ℕ
  state : ℕ
deriving DecidableEq

def Call.STATE_ACTIVE : ℕ := 4

namespace Dtmf

def DTMF_KEYS : String := "0123456789*#"

def MAX_DTMF_DIGITS : ℕ := 32

def TONE_MS : ℤ := 150

def GAP_MS : ℤ := 100

def isDtmfDigits (digits : List Char) : Bool :=
  !digits.isEmpty && digits.length ≤ MAX_DTMF_DIGITS && digits.all (· ∈ DTMF_KEYS.toList)

inductive Work
  | playDtmfTone (digit : Char)
  | stopDtmfTone
deriving DecidableEq

/-- What is posted: the call it is for and when it runs. -/
structure Message where
  time : ℤ
  call : ℕ
  work : Work
deriving DecidableEq

/-- The queue holds what has already run too, in the order in which it ran. -/
structure CallControl where
  dtmfFreeAt : ℤ
  queue : List Message

def start : CallControl := ⟨0, []⟩

/-- A broadcast that asks for keys, when it comes and the call there is then. -/
structure Request where
  uptimeMillis : ℤ
  current : Option Call
  digits : List Char

structure Reply where
  status : String
  error : Option String
  digits : Option ℕ
deriving DecidableEq

/-- `Handler.postAtTime`: behind every message that is not later. -/
def postAtTime (m : Message) : List Message → List Message
  | [] => [m]
  | m' :: queue => if m'.time ≤ m.time then m' :: postAtTime m queue else m :: m' :: queue

/-- The loop over the digits, from the one at `index`. -/
def post (call : ℕ) (start : ℤ) : ℕ → List Char → List Message → List Message
  | _, [], queue => queue
  | index, digit :: digits, queue =>
    let time := start + index * (TONE_MS + GAP_MS)
    let queue := postAtTime ⟨time, call, .playDtmfTone digit⟩ queue
    let queue := postAtTime ⟨time + TONE_MS, call, .stopDtmfTone⟩ queue
    post call start (index + 1) digits queue

def dtmf (c : CallControl) (r : Request) : Reply × CallControl :=
  if isDtmfDigits r.digits = false then (⟨"rejected", some "invalid_digits", none⟩, c)
  else
    match r.current with
    | none => (⟨"no_call", none, none⟩, c)
    | some call =>
      if call.state ≠ Call.STATE_ACTIVE then (⟨"no_call", none, none⟩, c)
      else
        let start := max r.uptimeMillis c.dtmfFreeAt
        (⟨"sent", none, some r.digits.length⟩,
          { dtmfFreeAt := start + r.digits.length * (TONE_MS + GAP_MS)
            queue := post call.id start 0 r.digits c.queue })

def step (c : CallControl) (r : Request) : CallControl := (dtmf c r).2

/-! ## Tones -/

structure Tone where
  start : ℤ
  call : ℕ
  digit : Char

/-- A tone on the queue, from its start for the full length. -/
def Tone.messages (t : Tone) : List Message :=
  [⟨t.start, t.call, .playDtmfTone t.digit⟩, ⟨t.start + TONE_MS, t.call, .stopDtmfTone⟩]

/-- A key that was asked for. -/
structure Press where
  uptimeMillis : ℤ
  call : ℕ
  digit : Char

/-- The keys of a request, where it is accepted. -/
def Request.presses (r : Request) : List Press :=
  match r.current with
  | none => []
  | some call =>
    if isDtmfDigits r.digits ∧ call.state = Call.STATE_ACTIVE then
      r.digits.map fun digit => ⟨r.uptimeMillis, call.id, digit⟩
    else []

/-- The tone is the key, on its call and not before it was asked for. -/
def Tone.Answers (t : Tone) (p : Press) : Prop :=
  t.call = p.call ∧ t.digit = p.digit ∧ p.uptimeMillis ≤ t.start

/-- The second tone starts a gap or more after the first has stopped. -/
def Tone.Before (t u : Tone) : Prop := t.start + TONE_MS + GAP_MS ≤ u.start

end Dtmf

end Rackphone
