import Rackphone.CommandReceiver
import Rackphone.Lib.ShellWords
import Rackphone.Sender

/-!
# Commands to a unit

What the gateway asks of a unit's companion, from `send.py`, `call.py` and `sims.py` through
`run_device_cli` of `adb.py`, the `rackphone` command on the unit and the plugin's `action.sh` to
the app, and back. A script handed to `su -c` is read by one shell; what is not a command of
`rackphone` is left out. `{unit!r}` and how `am` prints an intent are arguments.
-/

namespace Rackphone

namespace DeviceCli

open Json (Scalar Value)
open CommandReceiver (App AppState Command Chance Text PKG intText)

/-! ## The host -/

/-- What `shlex.quote` leaves as it is. -/
def isSafe (c : Char) : Bool := c.isAlphanum || c ∈ "_@%+=:,./-".toList

def deviceCommand (arguments : List Text) : Text :=
  Shell.join (("rackphone".toList :: arguments).map (Shell.quote isSafe))

inductive RunError where
  /-- `AdbError`, or a time-out. -/
  | adb
  /-- `ValueError`: an argument has a NUL in it. -/
  | value
deriving DecidableEq

section Run

variable {σ : Type*} (runAsRoot : σ → Text → σ × Option Text)

def runDeviceCli (s : σ) (arguments : List Text) : σ × Except RunError Text :=
  if ∃ a ∈ arguments, Char.ofNat 0 ∈ a then (s, .error .value)
  else
    match runAsRoot s (deviceCommand arguments) with
    | (s, none) => (s, .error .adb)
    | (s, some output) => (s, .ok output)

/-- `run_device_cli` behind the `resolve_serial` that its callers make first. -/
def runResolved (resolved : Bool) (s : σ) (arguments : List Text) : σ × Except RunError Text :=
  if resolved then runDeviceCli runAsRoot s arguments else (s, .error .adb)

end Run

/-- `DeviceBoundaryError`, or an exception that is none. -/
inductive Failure where
  | request (detail : Text)
  | device (detail : Text)
  | raised
deriving DecidableEq

/-- `translate_device_error`. -/
def Failure.status : Failure → ℕ
  | .device _ => 502
  | .request _ => 400
  | .raised => 500

abbrev Members := List (List ℕ × Value)

def key (k : String) : List ℕ := Json.codes k.toList

/-- `value == v`. -/
def isStr (v : String) : Value → Bool
  | .str s => s = key v
  | _ => false

/-- `record.get(k) == v`. -/
def reads (k v : String) (fs : Members) : Bool := (Json.lookup (key k) fs).any (isStr v)

/-- `isinstance(value, int)`, which a truth value is too. -/
def isInt : Value → Bool
  | .int _ | .bool _ => true
  | _ => false

def isNonNegative : Value → Bool
  | .int n => 0 ≤ n
  | .bool _ => true
  | _ => false

def isNumber (t : Text) : Bool :=
  let digits := if t.head? = some '+' then t.tail else t
  digits ≠ [] && digits.all fun c => '0' ≤ c && c ≤ '9'

/-- `send.py`'s `DESTINATION_PATTERN`, and that of `call.py`, which bounds the digits. -/
def isDestination (t : Text) : Bool := isNumber t

def isCallDestination (t : Text) : Bool :=
  isNumber t && (if t.head? = some '+' then t.tail else t).length ≤ 20

def isDtmf (digits : Text) : Bool :=
  digits ≠ [] && digits.length ≤ 32 && digits.all fun c => c ∈ "0123456789*#".toList

def simError : Text := "sim must be a non-negative subscription id".toList

def destinationError : Text := "destination must contain digits and an optional leading +".toList

/-- `validate_sim` refuses. -/
def BadSim (sim : Option ℤ) : Prop := ∃ n ∈ sim, n < 0

instance (sim : Option ℤ) : Decidable (BadSim sim) := by unfold BadSim; infer_instance

def simText (sim : Option ℤ) : Text := (sim.map intText).getD "None".toList

def action (arguments : List Text) : List Text :=
  "action".toList :: "companion".toList :: arguments

section Requests

variable {σ : Type*} (run : σ → List Text → σ × Except RunError Text) (unit : Text) (s : σ)

def detail (text : String) : Text := "unit ".toList ++ unit ++ ' ' :: text.toList

/-- What `send_sms` makes of the unit's record. -/
def readSend (sim : Option ℤ) (output : Text) : Except Failure Members :=
  match Json.loads output with
  | some (.obj fs) =>
    if reads "error" "unknown_sim" fs then
      .error (.request (detail unit "has no SIM " ++ simText sim))
    else if reads "status" "rejected" fs ∨ (Json.lookup (key "error") fs).isSome then
      .error (.device (detail unit "rejected the send"))
    else .ok (Json.setKey (key "accepted") (.bool true) fs)
  | _ => .error (.device (detail unit "returned an invalid send response"))

def sendSms (destination body : Text) (sim : Option ℤ) : σ × Except Failure Members :=
  if body = [] then (s, .error (.request "message body must not be empty".toList))
  else if isDestination destination = false then (s, .error (.request destinationError))
  else if BadSim sim then (s, .error (.request simError))
  else
    match run s (action (["send".toList, destination, body] ++ (sim.map intText).toList)) with
    | (s, .error .adb) =>
      (s, .error (.device (detail unit "could not be reached or could not send")))
    | (s, .error .value) => (s, .error .raised)
    | (s, .ok output) => (s, readSend unit sim output)

/-- `call.py`'s `_run`. -/
def runCall (arguments : List Text) : σ × Except Failure (Members × Value) :=
  match run s (action arguments) with
  | (s, .error .adb) => (s, .error (.device (detail unit "could not be reached")))
  | (s, .error .value) => (s, .error .raised)
  | (s, .ok output) =>
    (s, match Json.loads output with
      | some (.obj fs) =>
        match Json.lookup (key "status") fs with
        | some status => .ok (fs, status)
        | none => .error (.device (detail unit "returned an invalid call-control response"))
      | _ => .error (.device (detail unit "returned an invalid call-control response")))

def outcome (status : Value) : Members := [(key "status", status), (key "accepted", .bool true)]

/-- A list and a dictionary have no hash. -/
def isHashable : Value → Bool
  | .arr _ | .obj _ => false
  | _ => true

/-- `_control`, of `answer_call` and `reject_call`. -/
def control (verb : Text) : σ × Except Failure Members :=
  match runCall run unit s [verb] with
  | (s, .error e) => (s, .error e)
  | (s, .ok (_, status)) =>
    (s, if isStr "no_ringing_call" status then
        .error (.request "no call is ringing on the unit".toList)
      else if isHashable status = false then .error .raised
      else if isStr "answered" status ∨ isStr "rejected" status then .ok (outcome status)
      else .error (.device (detail unit "could not " ++ verb ++ " the call".toList)))

def answerCall : σ × Except Failure Members := control run unit s "answer".toList

def rejectCall : σ × Except Failure Members := control run unit s "reject".toList

/-- What `dial_call` makes of the unit's record. -/
def readDial (destination : Text) (sim : Option ℤ) (fs : Members) (status : Value) :
    Except Failure Members :=
  if isStr "rejected" status ∧ reads "error" "busy" fs then
    .error (.request "the unit is already on a call".toList)
  else if isStr "rejected" status ∧ reads "error" "unknown_sim" fs then
    .error (.request (detail unit "has no SIM " ++ simText sim))
  else if isStr "dialing" status = false then
    .error (.device (detail unit "could not place the call"))
  else
    let placed := (key "status", status)
      :: (key "to", (Json.lookup (key "to") fs).getD (.str (Json.codes destination)))
      :: [(key "accepted", Value.bool true)]
    let placedAt := (Json.lookup (key "placed_at") fs).filter isInt
    let sub := (Json.lookup (key "sub") fs).filter isNonNegative
    .ok (placed ++ (placedAt.map fun v => (key "placed_at", v)).toList
      ++ (sub.map fun v => (key "sub", v)).toList)

def dialCall (destination : Text) (sim : Option ℤ) : σ × Except Failure Members :=
  if isCallDestination destination = false then (s, .error (.request destinationError))
  else if BadSim sim then (s, .error (.request simError))
  else
    match runCall run unit s (["dial".toList, destination] ++ (sim.map intText).toList) with
    | (s, .error e) => (s, .error e)
    | (s, .ok (fs, status)) => (s, readDial unit destination sim fs status)

/-- An action that answers one of two statuses. -/
def settled (done none : String) (noneDetail failed : Text) (status : Value) :
    Except Failure Members :=
  if isStr none status then .error (.request noneDetail)
  else if isStr done status = false then .error (.device failed)
  else .ok (outcome (.str (key done)))

def endCall : σ × Except Failure Members :=
  match runCall run unit s ["end".toList] with
  | (s, .error e) => (s, .error e)
  | (s, .ok (_, status)) =>
    (s, settled "ended" "no_call" "no call is in progress on the unit".toList
      (detail unit "could not end the call") status)

def sendDtmf (digits : Text) : σ × Except Failure Members :=
  if isDtmf digits = false then
    (s, .error (.request "keys must be 0-9, * or #, at most 32 of them".toList))
  else
    match runCall run unit s ["dtmf".toList, digits] with
    | (s, .error e) => (s, .error e)
    | (s, .ok (_, status)) =>
      (s, settled "sent" "no_call" "no connected call can take tones on the unit".toList
        (detail unit "could not send the tones") status)

end Requests

/-! ## The unit's command line -/

/-- What the `rackphone` command is asked to do. -/
inductive CliCommand where
  | modules
  | plugins
  | enable (plugin : Text)
  | disable (plugin : Text)
  | schema
  | status
  | metrics
  | doctor
  | get (module key : Text)
  | origin (module key : Text)
  | set (module key value : Text)
  | unset (module key : Text)
  /-- The plugin's `action.sh` is run with these arguments. -/
  | action (plugin : Text) (arguments : List Text)
  | help
  /-- Nothing is done, and the command fails. -/
  | refused
deriving DecidableEq

/-- `split_key`: at the first dot. -/
def splitKey (name : Text) (command : Text → Text → CliCommand) : CliCommand :=
  if '.' ∈ name then
    command (name.takeWhile (· ≠ '.')) ((name.dropWhile (· ≠ '.')).drop 1)
  else .refused

def dispatch : List Text → CliCommand
  | [] => .refused
  | cmd :: arguments =>
    if cmd = "modules".toList then .modules
    else if cmd = "plugins".toList then .plugins
    else if cmd = "enable".toList then
      match arguments with
      | [plugin] => .enable plugin
      | _ => .refused
    else if cmd = "disable".toList then
      match arguments with
      | [plugin] => .disable plugin
      | _ => .refused
    else if cmd = "schema".toList then .schema
    else if cmd = "status".toList then .status
    else if cmd = "metrics".toList then .metrics
    else if cmd = "doctor".toList then .doctor
    else if cmd = "get".toList then
      match arguments with
      | [name] => splitKey name .get
      | _ => .refused
    else if cmd = "origin".toList then
      match arguments with
      | [name] => splitKey name .origin
      | _ => .refused
    else if cmd = "set".toList then
      match arguments with
      | [name, value] => splitKey name fun module key => .set module key value
      | _ => .refused
    else if cmd = "unset".toList then
      match arguments with
      | [name] => splitKey name .unset
      | _ => .refused
    else if cmd = "action".toList then
      match arguments with
      | plugin :: id :: rest => .action plugin (id :: rest)
      | _ => .refused
    else if cmd = "-h".toList ∨ cmd = "--help".toList ∨ cmd = "help".toList then .help
    else .refused

/-- What an `action.sh` that sends the app one command prints: its reply, or something else. -/
inductive Printed where
  | reply
  | other
deriving DecidableEq

/-- What the companion's `action.sh` has the app do. -/
structure ActionRun where
  /-- The action of the broadcast, and its extras, where there is one. -/
  command : Option (Text × List (Text × Text))
  printed : Printed
deriving DecidableEq

def ActionRun.appCmd (action : String) (args : List (Text × Text)) : ActionRun :=
  ⟨some (action.toList, args), .reply⟩

/-- An action that prints something other than the reply to what it sends. -/
def ActionRun.around (action : String) : ActionRun := ⟨some (action.toList, []), .other⟩

/-- `sim_arg`. -/
def simArg (sub : Text) : Bool := sub ≠ [] && sub.all fun c => '0' ≤ c && c ≤ '9'

/-- `action.sh`, where it does not end in a usage error. -/
def actionSh : List Text → Option ActionRun
  | [] => none
  | id :: arguments =>
    if id = "drain".toList then some (.around "DRAIN")
    else if id = "peek".toList then some ⟨none, .other⟩
    else if id = "ack".toList then some (.around "ACK")
    else if id = "reset".toList then some (.around "RESET")
    else if id = "setup".toList then some (.around "SETUP")
    else if id = "send".toList then
      match arguments with
      | [destination, body] =>
        some (.appCmd "SEND" [("to".toList, destination), ("body".toList, body)])
      | destination :: body :: sub :: _ =>
        if simArg sub then
          some (.appCmd "SEND"
            [("to".toList, destination), ("body".toList, body), ("sub".toList, sub)])
        else none
      | _ => none
    else if id = "answer".toList then some (.appCmd "ANSWER" [])
    else if id = "reject".toList then some (.appCmd "REJECT" [])
    else if id = "dial".toList then
      match arguments with
      | [destination] => some (.appCmd "DIAL" [("to".toList, destination)])
      | destination :: sub :: _ =>
        if simArg sub then
          some (.appCmd "DIAL" [("to".toList, destination), ("sub".toList, sub)])
        else none
      | _ => none
    else if id = "sims".toList then some (.appCmd "SIMS" [])
    else if id = "end".toList then some (.appCmd "END" [])
    else if id = "dtmf".toList then
      match arguments with
      | digits :: _ => some (.appCmd "DTMF" [("digits".toList, digits)])
      | _ => none
    else if id = "dialer".toList then some ⟨none, .other⟩
    else if id = "contacts".toList then some (.around "CONTACTS")
    else if id = "keepalive".toList then
      some (.appCmd "KEEPALIVE" [("force".toList, "true".toList)])
    else if id = "balance".toList then
      some (.appCmd "BALANCE" [("force".toList, "true".toList)])
    else if id = "selftest".toList then some (.around "STATUS")
    else none

/-! ## The app and its reply -/

/-- The part of the unit that a command reaches; the app and `Sender` share a counter. -/
structure Companion extends AppState where
  sender : Sender

def Companion.app (u : Companion) : App := ⟨u.toAppState, u.sender.rejected⟩

def Companion.withApp (u : Companion) (app : App) : Companion :=
  ⟨app.toAppState, { u.sender with rejected := app.rejected }⟩

/-- What a command meets. -/
structure Circumstances extends Chance where
  env : SendEnvironment
  now : ℤ
  /-- The app's answer to a setup, to settings and to any command but a send. -/
  answer : Option Command → List (String × Scalar)
  /-- What is printed where it is not the app's reply. -/
  output : Text
  intent : Text
  intent_line : '\n' ∉ intent
  /-- The code the reply is given, which the host drops. -/
  resultCode : ℕ
  /-- The host finds the unit, reaches it, and reads what the command prints. -/
  resolved : Bool
  reached : Bool
  answered : Bool

/-- A valid command arrives at the unit. -/
def Circumstances.arrives (c : Circumstances) : Bool := c.resolved && c.reached

variable (K : CommandReceiver.KotlinText)

/-- The record `send` returns is the one it appends. -/
def sendRecord (sender : Sender) : List (String × Scalar) :=
  (sender.outbox.getLast?.map OutboxRecord.fields).getD []

/-- `onReceive` with what a send does, and the data of the reply. `Sender` counts its own. -/
def Companion.receive (u : Companion) (b : CommandReceiver.Broadcast) (c : Circumstances) :
    Companion × List (String × Scalar) :=
  match u.app.onReceive K b with
  | (app, some refusal) => (u.withApp app, [("error", .str (String.ofList refusal.error))])
  | (app, none) =>
    match app.performed.drop u.performed.length with
    | [.send destination body sub id] =>
      let sender := u.sender.step K.toKotlinChars (.send
        ⟨String.ofList destination, String.ofList body, sub, "host", String.ofList id⟩ c.env c.now)
      (⟨app.toAppState, sender⟩, sendRecord sender)
    | [command] => (u.withApp app, c.answer (some command))
    | _ => (u.withApp app, c.answer none)

def completed : Text := "Broadcast completed: result=".toList

/-- What `am broadcast` prints of an ordered broadcast, in lines. -/
def amLines (intent : Text) (resultCode : ℕ) (data : Text) : List Text :=
  ["Broadcasting: ".toList ++ intent,
    completed ++ (Nat.toDigits 10 resultCode ++ (", data=\"".toList ++ (data ++ ['"'])))]

/-- Lines as they are printed. -/
def printed (lines : List Text) : Text := lines.flatMap fun line => line ++ ['\n']

/-- What is left of a text after one it begins with. -/
def after (p t : Text) : Option Text := if p <+: t then some (t.drop p.length) else none

/-- The data in a line of `am`, as `sed` takes it out. -/
def sedData (line : Text) : Option Text :=
  (after completed line).bind fun rest =>
    (after ", data=\"".toList (rest.dropWhile Char.isDigit)).bind fun rest =>
      if rest.getLast? = some '"' then some rest.dropLast else none

/-- `app_cmd`'s output, from that of `am`. -/
def replyOf (output : Text) : Text :=
  printed ((Lines.split (fun c => c = '\n') output).filterMap sedData)

/-- `app_cmd` with its output. -/
def Companion.appCmd (u : Companion) (action : Text) (args : List (Text × Text))
    (c : Circumstances) : Companion × Text :=
  let received := u.receive K (u.app.hostBroadcast action args c.toChance) c
  (received.1,
    replyOf (printed (amLines c.intent c.resultCode (Json.printObject orgJson received.2))))

/-- What the unit does with a script, and what it prints where it does not fail. -/
def Companion.execute (u : Companion) (script : Text) (c : Circumstances) :
    Companion × Option Text :=
  match Shell.words isSafe script with
  | some (program :: arguments) =>
    match if program = "rackphone".toList then dispatch arguments else .refused with
    | .action plugin arguments =>
      if plugin = "companion".toList ∨ plugin = "rackphone-companion".toList then
        match actionSh arguments with
        | none => (u, none)
        | some ⟨none, _⟩ => (u, some c.output)
        | some ⟨some (action, args), printed⟩ =>
          let ran := u.appCmd K action args c
          (ran.1, some (match printed with
            | .reply => ran.2
            | .other => c.output))
      else (u, none)
    | .refused => (u, none)
    | _ => (u, some c.output)
  | _ => (u, none)

/-- `run_as_root`, in a shell of its own. -/
def Companion.runAsRoot (c : Circumstances) (u : Companion) (script : Text) :
    Companion × Option Text :=
  if c.reached then
    let ran := u.execute K script c
    (ran.1, if c.answered then ran.2 else none)
  else (u, none)

/-! ## Requests to one unit -/

inductive Request where
  | send (destination body : Text) (sim : Option ℤ)
  | answer
  | reject
  | dial (destination : Text) (sim : Option ℤ)
  | endCall
  | dtmf (digits : Text)
deriving DecidableEq

namespace Request

def perform (unit : Text) (u : Companion) (r : Request) (c : Circumstances) :
    Companion × Except Failure Members :=
  let run := runResolved (Companion.runAsRoot K c) c.resolved
  match r with
  | .send destination body sim => sendSms run unit u destination body sim
  | .answer => answerCall run unit u
  | .reject => rejectCall run unit u
  | .dial destination sim => dialCall run unit u destination sim
  | .endCall => DeviceCli.endCall run unit u
  | .dtmf digits => sendDtmf run unit u digits

/-- Nothing in the request is refused on the host. -/
def Valid : Request → Prop
  | .send destination body sim =>
    body ≠ [] ∧ isDestination destination ∧ ¬ BadSim sim ∧ Char.ofNat 0 ∉ body
  | .dial destination sim => isCallDestination destination ∧ ¬ BadSim sim
  | .dtmf digits => isDtmf digits
  | .answer | .reject | .endCall => True

instance : DecidablePred Valid := fun r => by unfold Valid; cases r <;> infer_instance

/-- The SIM the app is asked for; it reads 32 bits. -/
def subOf (sim : Option ℤ) : ℤ :=
  (sim.filter fun n => n < 2 ^ 31).getD CommandReceiver.SUB_DEFAULT

/-- What the request says. -/
def command (newId : Text) : Request → Command
  | .send destination body sim => .send destination body (subOf sim) newId
  | .answer => .answer
  | .reject => .reject
  | .dial destination sim => .dial destination (subOf sim)
  | .endCall => .endCall
  | .dtmf digits => .dtmf digits

end Request

/-- A request with what it meets. -/
abbrev Turn := Request × Circumstances

def Companion.step (unit : Text) (u : Companion) (t : Turn) : Companion :=
  (t.1.perform K unit u t.2).1

/-- What `send_sms` answers of an entry the radio accepted. -/
def answerOf (p : Pending) : Members :=
  Json.setKey (key "accepted") (.bool true)
    (Json.members (OutboxRecord.queued p p.queuedMs).fields)

/-- What the gateway answers to a send that it says is accepted. -/
def Companion.sendAnswer (unit : Text) (u : Companion) (t : Turn) : List Members :=
  match t.1, (t.1.perform K unit u t.2).2 with
  | .send .., .ok answer => [answer]
  | _, _ => []

def sendAnswers (unit : Text) : Companion → List Turn → List Members
  | _, [] => []
  | u, t :: ts => u.sendAnswer K unit t ++ sendAnswers unit (u.step K unit t) ts

/-- The entry is of the message the turn asks for. -/
def Carries (t : Turn) (p : Pending) : Prop :=
  match t.1 with
  | .send destination body sim =>
    Numbers.sanitise K.toKotlinChars (some (String.ofList destination)) = some p.target
      ∧ p.bodyChars = utf16Length (String.ofList body)
      ∧ p.subId = t.2.env.subId (Request.subOf sim)
      ∧ p.id = String.ofList t.2.newId ∧ p.queuedMs = t.2.now
  | _ => False

/-- What the radio accepted between two states: at most one message for each turn, in order. -/
structure Accounts (ts : List Turn) (before after : Companion) (sent : List (Turn × Pending)) :
    Prop where
  turns : (sent.map Prod.fst).Sublist ts
  carries : ∀ x ∈ sent, Carries K x.1 x.2
  accepted : after.sender.accepted = before.sender.accepted ++ sent.map Prod.snd

/-- The host can read the token the app compares with. -/
def Companion.Published (u : Companion) : Prop :=
  u.token ≠ [] ∧ u.app.appToken = u.token

/-- What a run of requests asks of the unit. -/
def commands (ts : List Turn) : List Command :=
  (ts.filter fun t => t.1.Valid ∧ t.2.arrives).map fun t => t.1.command t.2.newId

def isSend : Command → Bool
  | .send .. => true
  | _ => false

/-- What `Sender` leaves between two states of the unit: a record for each send, and the rejections
among them counted. -/
structure Recorded (commands : List Command) (before after : Companion)
    (records : List OutboxRecord) : Prop where
  outbox : after.sender.outbox = before.sender.outbox ++ records
  sends : records.length = commands.countP isSend
  rejected : after.sender.rejected
    = before.sender.rejected + Int32.ofNat (records.countP OutboxRecord.isRejection)

end DeviceCli

end Rackphone
