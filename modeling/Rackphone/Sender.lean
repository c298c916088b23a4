import Rackphone.CallReceiver
import Rackphone.Keepalive
import Rackphone.Lib.Dict
import Rackphone.Lib.JsonDumps
import Rackphone.Lib.Separated
import Rackphone.Spool

/-!
# Sending, and the results of the parts

`Sender.send`, `onPartResult` and `reject` (`Sender.kt`), the counters and the pending entries of
`Config.kt`, and the PendingIntents the system keeps by their request code. A pending entry is the
text of a JSON object; the radio reports a part through the intent it was handed for it. One action
is handled from start to end, as the main thread does. The counters and the request codes are
`Int`s of 32 bits, which wrap around.
-/

namespace Rackphone

open Json (Scalar Value)

def RESULT_OK : ℤ := -1

def MAX_PARTS : ℕ := 10

/-- The codes of `SmsManager` that have a name. -/
def ERROR_NAMES : List (ℤ × String) :=
  [(1, "generic_failure"), (2, "radio_off"), (3, "null_pdu"), (4, "no_service"),
    (5, "limit_exceeded"), (6, "fdn_check_failure"), (7, "short_code_not_allowed"),
    (8, "short_code_never_allowed")]

def errorName (code : ℤ) : List Char :=
  if code = RESULT_OK then "ok".toList
  else match ERROR_NAMES.find? fun e => e.1 = code with
    | some e => e.2.toList
    | none => "error_".toList ++ Json.printNum code

/-- Kotlin's `String.length`. -/
def utf16Length (s : String) : ℕ := (s.toList.map fun c => if c.toNat < 0x10000 then 1 else 2).sum

/-- The object kept for a send while its parts are out. -/
structure Pending where
  id : String
  target : String
  source : String
  subId : ℤ
  partsTotal : ℤ
  partsOk : ℤ
  partsFailed : ℤ
  bodyChars : ℤ
  queuedMs : ℤ
  errors : List Char
deriving DecidableEq

namespace Pending

def fields (p : Pending) : List (String × Scalar) :=
  [("id", .str p.id), ("to", .str p.target), ("source", .str p.source), ("sub_id", .num p.subId),
    ("parts_total", .num p.partsTotal), ("parts_ok", .num p.partsOk),
    ("parts_failed", .num p.partsFailed), ("body_chars", .num p.bodyChars),
    ("queued_ms", .num p.queuedMs), ("errors", .str (String.ofList p.errors))]

/-- `pending.toString()`. -/
def text (p : Pending) : List Char := Json.printObject orgJson p.fields

def optString (k : String) (fs : List (List ℕ × Value)) : List Char :=
  match get k fs with
  | .str s => (Json.text s).getD []
  | _ => []

def optInt (k : String) (fallback : ℤ) (fs : List (List ℕ × Value)) : ℤ :=
  match get k fs with
  | .int n => n
  | _ => fallback

/-- `JSONObject(raw)`, as the members that a pending entry has. -/
def read (raw : List Char) : Option Pending :=
  match Json.loads raw with
  | some (.obj fs) => some {
      id := String.ofList (optString "id" fs)
      target := String.ofList (optString "to" fs)
      source := String.ofList (optString "source" fs)
      subId := optInt "sub_id" SUB_DEFAULT fs
      partsTotal := optInt "parts_total" 0 fs
      partsOk := optInt "parts_ok" 0 fs
      partsFailed := optInt "parts_failed" 0 fs
      bodyChars := optInt "body_chars" 0 fs
      queuedMs := optInt "queued_ms" 0 fs
      errors := optString "errors" fs }
  | _ => none

/-- One part's result. -/
def count (p : Pending) (resultCode : ℤ) : Pending :=
  if resultCode = RESULT_OK then { p with partsOk := p.partsOk + 1 }
  else { p with
    partsFailed := p.partsFailed + 1
    errors := Separated.add ',' p.errors (errorName resultCode) }

def status (p : Pending) : String := if 0 < p.partsFailed then "failed" else "ok"

end Pending

inductive OutboxRecord where
  | queued (p : Pending) (ts : ℤ)
  | resolved (p : Pending) (ts : ℤ)
  | rejected (ts : ℤ) (id target source : String) (bodyChars : ℤ) (error : String)
deriving DecidableEq

namespace OutboxRecord

def fields : OutboxRecord → List (String × Scalar)
  | queued p ts => p.fields ++ [("ts", .num ts), ("status", .str "queued")]
  | resolved p ts =>
    p.fields ++ [("ts", .num ts), ("status", .str p.status),
      ("error", if p.errors = [] then .null else .str (String.ofList p.errors))]
  | rejected ts id target source bodyChars error =>
    [("ts", .num ts), ("id", .str id), ("to", .str target), ("source", .str source),
      ("body_chars", .num bodyChars), ("status", .str "rejected"), ("error", .str error)]

/-- The record of a send whose parts have all reported. -/
def resolution : OutboxRecord → Option Pending
  | resolved p _ => some p
  | queued .. | rejected .. => none

def isRejection : OutboxRecord → Bool
  | rejected .. => true
  | queued .. | resolved .. => false

end OutboxRecord

/-- What `send` is told by the phone. -/
structure SendEnvironment where
  granted : Bool
  hasActiveSim : Bool
  isKnown : Bool
  configSubId : ℤ
  defaultSubId : ℤ
  hasManager : Bool
  /-- How many parts `divideMessage` makes; none where it throws. -/
  parts : Option ℕ
  /-- The exception `sendMultipartTextMessage` throws. -/
  failure : Option String

/-- The subscription that sends, with "let Android pick" resolved. -/
def SendEnvironment.subId (env : SendEnvironment) (asked : ℤ) : ℤ :=
  let requested := if 0 ≤ asked then asked else env.configSubId
  if 0 ≤ requested then requested else env.defaultSubId

structure Sender where
  requestCode : Int32
  pending : Dict String (List Char)
  sentOk : Int32
  sentFailed : Int32
  rejected : Int32
  lastSuccessMs : ℤ → ℤ
  /-- Every record appended; the file keeps the last of them. -/
  outbox : List OutboxRecord
  /-- The extras of each PendingIntent. -/
  intents : Dict Int32 (String × ℕ)
  /-- The intents the radio was handed and has not sent back. -/
  held : List Int32
  /-- The ids of the requests so far. -/
  ids : List String
  /-- The entries of the sends the radio accepted. -/
  accepted : List Pending
  /-- The results that came in. -/
  results : List (String × ℤ)

namespace Sender

variable (K : KotlinChars)

inductive Action where
  | send (request : Keepalive.SendRequest) (env : SendEnvironment) (now : ℤ)
  /-- The radio sends the intent with this code back. -/
  | report (code : Int32) (resultCode : ℤ) (now : ℤ)

def start : Sender := ⟨1, .empty, 0, 0, 0, fun _ => 0, [], .empty, [], [], [], []⟩

def reject (s : Sender) (request : Keepalive.SendRequest) (reason : String) (now : ℤ) : Sender :=
  { s with
    rejected := s.rejected + 1
    outbox := s.outbox ++ [.rejected now request.id
      ((Numbers.sanitise K (some request.target)).getD request.target) request.source
      (utf16Length request.body) reason] }

/-- `resultIntent` for the parts from `part` on, with the codes given out. -/
def resultIntents (s : Sender) (id : String) (part : ℕ) : ℕ → Sender × List Int32
  | 0 => (s, [])
  | n + 1 =>
    let code := s.requestCode + 1
    let rest := resultIntents
      { s with requestCode := code, intents := s.intents.set code (id, part) } id (part + 1) n
    (rest.1, code :: rest.2)

/-- `send` from where the request has passed its checks. -/
def submit (s : Sender) (request : Keepalive.SendRequest) (target : String) (subId : ℤ)
    (parts : ℕ) (failure : Option String) (now : ℤ) : Sender :=
  let (s, codes) := s.resultIntents request.id 0 parts
  let p : Pending :=
    { id := request.id, target, source := request.source, subId, partsTotal := parts, partsOk := 0
      partsFailed := 0, bodyChars := utf16Length request.body, queuedMs := now, errors := [] }
  let s := { s with pending := s.pending.set request.id p.text }
  match failure with
  | some name =>
    { s with pending := s.pending.pop request.id }.reject K request ("send_failed:" ++ name) now
  | none =>
    { s with
      outbox := s.outbox ++ [.queued p now]
      held := s.held ++ codes
      accepted := s.accepted ++ [p] }

def send (s : Sender) (request : Keepalive.SendRequest) (env : SendEnvironment) (now : ℤ) :
    Sender :=
  match Numbers.sanitise K (some request.target) with
  | none => s.reject K request "invalid_destination" now
  | some target =>
    if request.body = "" then s.reject K request "empty_body" now
    else if !env.granted then s.reject K request "permission_denied" now
    else if !env.hasActiveSim then s.reject K request "no_sim" now
    else if !env.isKnown then s.reject K request "unknown_sim" now
    else if !env.hasManager then s.reject K request "no_sms_manager" now
    else match env.parts with
      | none | some 0 => s.reject K request "empty_body" now
      | some (n + 1) =>
        if n + 1 > MAX_PARTS then s.reject K request "too_long" now
        else s.submit K request target (env.subId request.subId) (n + 1) env.failure now

def onPartResult (s : Sender) (id : String) (resultCode : ℤ) (now : ℤ) : Sender :=
  match (s.pending.get id).bind Pending.read with
  | none => s
  | some p =>
    let p := p.count resultCode
    if p.partsOk + p.partsFailed < p.partsTotal then
      { s with pending := s.pending.set id p.text }
    else
      let s := { s with
        pending := s.pending.pop id, outbox := s.outbox ++ [OutboxRecord.resolved p now] }
      if 0 < p.partsFailed then { s with sentFailed := s.sentFailed + 1 }
      else { s with
        sentOk := s.sentOk + 1
        lastSuccessMs := Function.update s.lastSuccessMs p.subId now }

/-- The id in the extras of the intent with a code. -/
def owner (s : Sender) (code : Int32) : Option String := (s.intents.get code).map Prod.fst

def step (s : Sender) : Action → Sender
  | .send request env now => { s with ids := s.ids ++ [request.id] }.send K request env now
  | .report code resultCode now =>
    match s.owner code with
    | none => s
    | some id =>
      { s with
        held := s.held.erase code
        results := s.results ++ [(id, resultCode)] }.onPartResult id resultCode now

/-- The results of one send's parts. -/
def resultsOf (s : Sender) (id : String) : List ℤ :=
  (s.results.filter fun r => r.1 = id).map Prod.snd

/-- The records that resolve a send. -/
def resolved (s : Sender) : List Pending := s.outbox.filterMap OutboxRecord.resolution

def resolutionsOf (s : Sender) (id : String) : List Pending := s.resolved.filter fun p => p.id = id

/-- How many requests were turned away. -/
def rejections (s : Sender) : ℕ := s.outbox.countP OutboxRecord.isRejection

/-- The `n` request codes after one. -/
def nextCodes (code : Int32) (n : ℕ) : List Int32 :=
  (List.range n).map fun i => code + Int32.ofNat (i + 1)

/-- The codes a send gives its parts, where it gets that far. -/
def partCodes (s : Sender) (env : SendEnvironment) : List Int32 :=
  match env.parts with
  | none => []
  | some n => if n ≤ MAX_PARTS then nextCodes s.requestCode n else []

/-- No code comes round while its intent is out. -/
def FreshCodes (s : Sender) : Action → Prop
  | .send _ env _ => ∀ c ∈ s.partCodes env, c ∉ s.held
  | .report .. => True

instance (s : Sender) : DecidablePred s.FreshCodes
  | .send _ env _ => List.decidableBAll (· ∉ s.held) (s.partCodes env)
  | .report .. => isTrue trivial

/-- Every request has an id of its own, and a part that was handed out reports once. -/
def Legal (s : Sender) : Action → Prop
  | .send request _ _ => request.id ∉ s.ids
  | .report code _ _ => code ∈ s.held

instance (s : Sender) : DecidablePred s.Legal
  | .send request _ _ => inferInstanceAs (Decidable (request.id ∉ s.ids))
  | .report code _ _ => inferInstanceAs (Decidable (code ∈ s.held))

/-- What the record of a send says of the results of its parts. -/
structure Outcome (p : Pending) (results : List ℤ) (q : Pending) : Prop where
  status : q.status = "ok" ↔ ∀ r ∈ results, r = RESULT_OK
  partsTotal : q.partsTotal = results.length
  partsOk : q.partsOk = results.count RESULT_OK
  partsFailed : q.partsFailed = results.countP fun r => r ≠ RESULT_OK
  errors : ∃ codes : List ℤ, codes.Nodup ∧ (∀ r, r ∈ codes ↔ r ∈ results ∧ r ≠ RESULT_OK)
    ∧ q.errors = [','].intercalate (codes.map errorName)
  request : q.id = p.id ∧ q.target = p.target ∧ q.source = p.source ∧ q.subId = p.subId

/-- A send is open until its last part has reported, and resolved once and for good with it. -/
structure Resolves (s : Sender) (p : Pending) : Prop where
  length_le : (s.resultsOf p.id).length ≤ p.partsTotal
  opened : (s.resultsOf p.id).length < p.partsTotal → s.resolutionsOf p.id = []
  resolved : (s.resultsOf p.id).length = p.partsTotal → s.pending.get p.id = none
    ∧ ∃ q, s.resolutionsOf p.id = [q] ∧ Outcome p (s.resultsOf p.id) q

/-- The two counters count the sends resolved, as far as 32 bits do. -/
structure CountsResolved (s : Sender) : Prop where
  sentOk : s.sentOk = Int32.ofNat (s.resolved.countP fun q => q.status = "ok")
  sentFailed : s.sentFailed = Int32.ofNat (s.resolved.countP fun q => q.status ≠ "ok")
  total : s.resolved.length < 2 ^ 31 → s.sentOk.toInt + s.sentFailed.toInt = s.resolved.length

structure AllResolve (s : Sender) : Prop where
  sends : ∀ p ∈ s.accepted, s.Resolves p
  counters : s.CountsResolved

/-- With this result every part of the send has reported, and none has failed. -/
def Completes (s : Sender) (p : Pending) (resultCode : ℤ) : Prop :=
  (s.resultsOf p.id).length + 1 = p.partsTotal
    ∧ ∀ r ∈ s.resultsOf p.id ++ [resultCode], r = RESULT_OK

/-- A send moves the clock of its own SIM where it succeeds, and no other clock ever. -/
def OwnClock (s : Sender) : Action → Prop
  | .send request env now =>
    (step K s (.send request env now)).lastSuccessMs = s.lastSuccessMs
  | .report code resultCode now => ∃ p ∈ s.accepted, s.owner code = some p.id
    ∧ (s.Completes p resultCode → (step K s (.report code resultCode now)).lastSuccessMs
        = Function.update s.lastSuccessMs p.subId now)
    ∧ (¬ s.Completes p resultCode →
        (step K s (.report code resultCode now)).lastSuccessMs = s.lastSuccessMs)

end Sender

end Rackphone
