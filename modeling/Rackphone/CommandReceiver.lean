import Rackphone.CallReceiver
import Rackphone.Lib.Hex
import Rackphone.Lib.Unwinding
import Rackphone.Settings

/-!
# The companion's command receiver

`CommandReceiver.kt` with the settings of `Config.kt` it writes and the token that
`HostFiles.publishToken` mirrors, the `app_cmd` of `app.sh` that sends it commands, and `reload.sh`,
which hands it the plugin's settings. What a command that is carried out does beyond these is left
to it: here it is only written down.
-/

namespace Rackphone

namespace CommandReceiver

abbrev Text := List Char

/-- Kotlin's `lowercase` and `digitOf`. -/
structure KotlinText extends KotlinChars where
  lowercase : Text → Text
  digitOf : Char → Option ℕ

def PKG : Text := "com.nktkln.rackphone.companion".toList

def ACTION_SETUP : Text := PKG ++ ".SETUP".toList
def ACTION_SEND : Text := PKG ++ ".SEND".toList
def ACTION_CONFIG : Text := PKG ++ ".CONFIG".toList
def ACTION_KEEPALIVE : Text := PKG ++ ".KEEPALIVE".toList
def ACTION_STATUS : Text := PKG ++ ".STATUS".toList
def ACTION_ANSWER : Text := PKG ++ ".ANSWER".toList
def ACTION_REJECT : Text := PKG ++ ".REJECT".toList
def ACTION_DIAL : Text := PKG ++ ".DIAL".toList
def ACTION_SIMS : Text := PKG ++ ".SIMS".toList
def ACTION_END : Text := PKG ++ ".END".toList
def ACTION_DTMF : Text := PKG ++ ".DTMF".toList
def ACTION_CONTACTS : Text := PKG ++ ".CONTACTS".toList
def ACTION_DRAIN : Text := PKG ++ ".DRAIN".toList
def ACTION_ACK : Text := PKG ++ ".ACK".toList
def ACTION_PEEK : Text := PKG ++ ".PEEK".toList
def ACTION_RESET : Text := PKG ++ ".RESET".toList
def ACTION_USSD : Text := PKG ++ ".USSD".toList
def ACTION_BALANCE : Text := PKG ++ ".BALANCE".toList

def EXTRA_TOKEN : Text := "token".toList
def EXTRA_NEW_TOKEN : Text := "new_token".toList
def EXTRA_TO : Text := "to".toList
def EXTRA_BODY : Text := "body".toList
def EXTRA_ID : Text := "id".toList
def EXTRA_SUB : Text := "sub".toList
def EXTRA_DIGITS : Text := "digits".toList
def EXTRA_CODE : Text := "code".toList

def SUB_DEFAULT : ℤ := -1

/-! ## Settings -/

/-- What is true of ASCII. -/
structure KotlinText.Lawful (K : KotlinText) : Prop where
  digit_not_whitespace : ∀ d < 10, K.isWhitespace (Nat.digitChar d) = false
  digitOf_digitChar : ∀ d < 10, K.digitOf (Nat.digitChar d) = some d
  lowercase_digit : ∀ d < 10, K.lowercase [Nat.digitChar d] = [Nat.digitChar d]

structure AppSettings where
  subId : ℤ
  keepaliveEnabled : Bool
  keepaliveTo : Text
  keepaliveIntervalHours : ℤ
  keepaliveBody : Text
  keepaliveSubs : Text
  collectSms : Bool
  collectCalls : Bool
  collectNotifications : Bool
  includeBody : Bool
  inboxCap : ℤ
  balanceCode : Text
  balanceIntervalHours : ℤ
deriving DecidableEq

/-- What a fresh installation reads. -/
def AppSettings.fresh : AppSettings where
  subId := SUB_DEFAULT
  keepaliveEnabled := false
  keepaliveTo := "self".toList
  keepaliveIntervalHours := 720
  keepaliveBody := "rackphone keepalive".toList
  keepaliveSubs := "all".toList
  collectSms := true
  collectCalls := true
  collectNotifications := false
  includeBody := true
  inboxCap := 2000
  balanceCode := "*102#".toList
  balanceIntervalHours := 24

/-- `coerceIn(1, 8760)`. -/
def clampInterval (hours : ℤ) : ℤ := max 1 (min hours 8760)

/-- The extras of an intent; one that is absent stays absent. -/
abbrev Extras := Text → Option Text

variable (K : KotlinText)

def trim (t : Text) : Text := Lines.strip K.isWhitespace t

def digits : ℕ → Text → Option ℕ
  | n, [] => some n
  | n, c :: t => (K.digitOf c).bind fun d => digits (10 * n + d) t

/-- An `Int`: 32 bits. -/
def toIntOrNull (t : Text) : Option ℤ :=
  let number : Option ℤ :=
    match t with
    | [] => none
    | c :: t =>
      if '0' ≤ c then (digits K 0 (c :: t)).map fun n => (n : ℤ)
      else if t = [] then none
      else if c = '-' then (digits K 0 t).map fun n => -(n : ℤ)
      else if c = '+' then (digits K 0 t).map fun n => (n : ℤ)
      else none
  number.filter fun n => -2 ^ 31 ≤ n ∧ n < 2 ^ 31

def readInt (t : Text) : Option ℤ := toIntOrNull K (trim K t)

def readBool (t : Text) : Option Bool :=
  let word := K.lowercase (trim K t)
  if word = "1".toList ∨ word = "true".toList ∨ word = "yes".toList ∨ word = "on".toList then
    some true
  else if word = "0".toList ∨ word = "false".toList ∨ word = "no".toList
      ∨ word = "off".toList then
    some false
  else none

/-- `applyConfig`: a patch of the keys that were sent. -/
def applyConfig (c : AppSettings) (x : Extras) : AppSettings where
  keepaliveEnabled :=
    ((x "keepalive_enabled".toList).bind (readBool K)).getD c.keepaliveEnabled
  keepaliveTo := ((x "keepalive_to".toList).map (trim K)).getD c.keepaliveTo
  keepaliveIntervalHours :=
    (((x "keepalive_interval_hours".toList).bind (readInt K)).map clampInterval).getD
      c.keepaliveIntervalHours
  keepaliveBody := (x "keepalive_body".toList).getD c.keepaliveBody
  keepaliveSubs := ((x "keepalive_subs".toList).map (trim K)).getD c.keepaliveSubs
  subId := ((x EXTRA_SUB).bind (readInt K)).getD c.subId
  collectSms := ((x "collect_sms".toList).bind (readBool K)).getD c.collectSms
  collectCalls := ((x "collect_calls".toList).bind (readBool K)).getD c.collectCalls
  collectNotifications :=
    ((x "collect_notifications".toList).bind (readBool K)).getD c.collectNotifications
  includeBody := ((x "include_body".toList).bind (readBool K)).getD c.includeBody
  inboxCap := (((x "inbox_cap".toList).bind (readInt K)).map (max 1)).getD c.inboxCap
  balanceCode := ((x "balance_code".toList).map (trim K)).getD c.balanceCode
  balanceIntervalHours :=
    (((x "balance_interval_hours".toList).bind (readInt K)).map clampInterval).getD
      c.balanceIntervalHours

/-! ## A setting at a time -/

inductive Value where
  | bool (b : Bool)
  | int (n : ℤ)
  | text (t : Text)
deriving DecidableEq

/-- The settings a `CONFIG` can carry. -/
inductive Key where
  | subId | keepaliveEnabled | keepaliveTo | keepaliveIntervalHours | keepaliveBody | keepaliveSubs
  | collectSms | collectCalls | collectNotifications | includeBody | inboxCap | balanceCode
  | balanceIntervalHours
deriving DecidableEq

def Key.extra : Key → Text
  | .subId => EXTRA_SUB
  | .keepaliveEnabled => "keepalive_enabled".toList
  | .keepaliveTo => "keepalive_to".toList
  | .keepaliveIntervalHours => "keepalive_interval_hours".toList
  | .keepaliveBody => "keepalive_body".toList
  | .keepaliveSubs => "keepalive_subs".toList
  | .collectSms => "collect_sms".toList
  | .collectCalls => "collect_calls".toList
  | .collectNotifications => "collect_notifications".toList
  | .includeBody => "include_body".toList
  | .inboxCap => "inbox_cap".toList
  | .balanceCode => "balance_code".toList
  | .balanceIntervalHours => "balance_interval_hours".toList

/-- What is made of a text sent for the setting, where it can be read. -/
def Key.read (t : Text) : Key → Option Value
  | .subId => (readInt K t).map .int
  | .keepaliveIntervalHours | .balanceIntervalHours =>
    (readInt K t).map fun n => .int (clampInterval n)
  | .inboxCap => (readInt K t).map fun n => .int (max 1 n)
  | .keepaliveTo | .keepaliveSubs | .balanceCode => some (.text (trim K t))
  | .keepaliveBody => some (.text t)
  | .keepaliveEnabled | .collectSms | .collectCalls | .collectNotifications | .includeBody =>
    (readBool K t).map .bool

def AppSettings.get (c : AppSettings) : Key → Value
  | .subId => .int c.subId
  | .keepaliveEnabled => .bool c.keepaliveEnabled
  | .keepaliveTo => .text c.keepaliveTo
  | .keepaliveIntervalHours => .int c.keepaliveIntervalHours
  | .keepaliveBody => .text c.keepaliveBody
  | .keepaliveSubs => .text c.keepaliveSubs
  | .collectSms => .bool c.collectSms
  | .collectCalls => .bool c.collectCalls
  | .collectNotifications => .bool c.collectNotifications
  | .includeBody => .bool c.includeBody
  | .inboxCap => .int c.inboxCap
  | .balanceCode => .text c.balanceCode
  | .balanceIntervalHours => .int c.balanceIntervalHours

/-- The declared bounds. -/
structure AppSettings.InRange (c : AppSettings) : Prop where
  keepaliveInterval : 1 ≤ c.keepaliveIntervalHours ∧ c.keepaliveIntervalHours ≤ 8760
  balanceInterval : 1 ≤ c.balanceIntervalHours ∧ c.balanceIntervalHours ≤ 8760
  inboxCap : 1 ≤ c.inboxCap

/-! ## Broadcasts -/

/-- What is asked of the rest of the app. -/
inductive Command where
  | send (destination body : Text) (sub : ℤ) (id : Text)
  | keepalive (force : Bool)
  | status
  | answer
  | reject
  | dial (destination : Text) (sub : ℤ)
  | sims
  | endCall
  | dtmf (digits : Text)
  | contacts
  | drain
  | ack
  | peek
  | reset
  | ussd (code : Text) (sub : ℤ)
  | balance (force : Bool)
deriving DecidableEq

structure AppState where
  /-- Empty until setup. -/
  token : Text
  settings : AppSettings
  /-- The file a root shell reads. -/
  tokenFile : Option Text
  performed : List Command
deriving DecidableEq

/-- The app with its counter of rejections, which wraps around. -/
structure App extends AppState where
  rejected : Int32
deriving DecidableEq

def App.fresh : App := ⟨⟨[], .fresh, none, []⟩, 0⟩

/-- What a broadcast meets. -/
structure Chance where
  /-- What `SecureRandom` and `UUID.randomUUID` give where they are asked. -/
  random : {bytes : List UInt8 // bytes.length = 24}
  newId : Text
  /-- How many sends `Sender` would reject; it counts them with the broadcasts without the token. -/
  rejections : ℕ
  /-- What is left of the token's file where its writing fails. -/
  failure : Option (Option Text)

structure Broadcast extends Chance where
  action : Option Text
  extras : Extras

/-- Only a send and a keepalive have `Sender` send. -/
def Broadcast.rejectedSends (b : Broadcast) : ℕ :=
  if b.action = some ACTION_SEND ∨ b.action = some ACTION_KEEPALIVE then b.rejections else 0

def rotateToken (b : Broadcast) : Text := Hex.encode b.random

/-- `HostFiles.publishToken`. -/
def App.publishToken (s : App) (b : Broadcast) (token : Text) : App :=
  { s with token := token, tokenFile := b.failure.getD (some (token ++ ['\n'])) }

/-- The token is compared as bytes. -/
def App.authenticates (s : App) (b : Broadcast) : Bool :=
  s.token ≠ [] && b.extras EXTRA_TOKEN = some s.token

def Broadcast.int (b : Broadcast) (key : Text) : Option ℤ := (b.extras key).bind (readInt K)

def Broadcast.force (b : Broadcast) : Bool :=
  ((b.extras "force".toList).bind (readBool K)).getD true

/-- The command an action stands for; the setup and the settings are not among them. -/
def Broadcast.command (b : Broadcast) (settings : AppSettings) (action : Text) : Option Command :=
  let text := fun key => (b.extras key).getD []
  if action = ACTION_SEND then
    let id := (b.extras EXTRA_ID).filter fun id => !id.all K.isWhitespace
    some (.send (text EXTRA_TO) (text EXTRA_BODY) ((b.int K EXTRA_SUB).getD SUB_DEFAULT)
      (id.getD b.newId))
  else if action = ACTION_KEEPALIVE then some (.keepalive (b.force K))
  else if action = ACTION_STATUS then some .status
  else if action = ACTION_ANSWER then some .answer
  else if action = ACTION_REJECT then some .reject
  else if action = ACTION_DIAL then
    some (.dial (text EXTRA_TO) ((b.int K EXTRA_SUB).getD SUB_DEFAULT))
  else if action = ACTION_SIMS then some .sims
  else if action = ACTION_END then some .endCall
  else if action = ACTION_DTMF then some (.dtmf (text EXTRA_DIGITS))
  else if action = ACTION_CONTACTS then some .contacts
  else if action = ACTION_DRAIN then some .drain
  else if action = ACTION_ACK then some .ack
  else if action = ACTION_PEEK then some .peek
  else if action = ACTION_RESET then some .reset
  else if action = ACTION_USSD then
    some (.ussd (text EXTRA_CODE) ((b.int K EXTRA_SUB).getD settings.subId))
  else if action = ACTION_BALANCE then some (.balance (b.force K))
  else none

/-- The error a broadcast is answered with before anything is carried out. -/
inductive Refusal where
  | noAction
  | badToken
  | unknownAction
deriving DecidableEq

def Refusal.error : Refusal → Text
  | .noAction => "no_action".toList
  | .badToken => "bad_token".toList
  | .unknownAction => "unknown_action".toList

/-- `onReceive`. -/
def App.onReceive (s : App) (b : Broadcast) : App × Option Refusal :=
  match b.action with
  | none => (s, some .noAction)
  | some action =>
    if action = ACTION_SETUP ∧ s.token = [] then (s.publishToken b (rotateToken b), none)
    else if s.authenticates b = false then
      ({ s with rejected := s.rejected + 1 }, some .badToken)
    else if action = ACTION_SETUP then
      let fresh := (b.extras EXTRA_NEW_TOKEN).getD []
      (s.publishToken b (if fresh = [] then rotateToken b else fresh), none)
    else if action = ACTION_CONFIG then
      ({ s with settings := applyConfig K s.settings b.extras }, none)
    else
      match b.command K s.settings action with
      | some command =>
        ({ s with
          performed := s.performed ++ [command]
          rejected := s.rejected + Int32.ofNat b.rejectedSends }, none)
      | none => (s, some .unknownAction)

def App.step (s : App) (b : Broadcast) : App := (s.onReceive K b).1

/-- Authenticated, or the setup of an app that has no token. -/
def App.admits (s : App) (b : Broadcast) : Bool :=
  match b.action with
  | none => false
  | some action => (action = ACTION_SETUP && s.token = []) || s.authenticates b

/-- The extras of the `CONFIG` broadcasts. -/
def configs (bs : List Broadcast) : List Extras :=
  bs.filterMap fun b => if b.action = some ACTION_CONFIG then some b.extras else none

/-! ## The host's side -/

/-- What `tr` leaves of a token, and a command substitution, which drops a NUL. -/
def isKept (c : Char) : Bool := c ≠ '\r' && c ≠ '\n' && c ≠ Char.ofNat 0

/-- What `app_token` reads. -/
def App.appToken (s : App) : Text := (s.tokenFile.getD []).filter isKept

/-- The extras of an `am broadcast` command line; a key given twice has its last value. -/
def extrasOf (args : List (Text × Text)) : Extras := fun key => KeyLines.lastValue key args

/-- The broadcast `app_cmd` sends. -/
def App.hostBroadcast (s : App) (action : Text) (args : List (Text × Text)) (w : Chance) :
    Broadcast :=
  { w with
    action := some (PKG ++ '.' :: action)
    extras := extrasOf ((EXTRA_TOKEN, s.appToken) :: args) }

/-- What a caller of `app_cmd` asks for. -/
structure HostCommand extends Chance where
  action : Text
  args : List (Text × Text)
  no_token : ∀ a ∈ args, a.1 ≠ EXTRA_TOKEN

def App.appCmd (s : App) (c : HostCommand) : App :=
  s.step K (s.hostBroadcast c.action c.args c.toChance)

/-! ## Pushing the declared settings -/

/-- One entry of the plugin's `settings`. -/
def declared (key : String) (valueType : SettingType) (default : String)
    (allowedValues : List String) (range : Option (ℤ × ℤ))
    (hkey : key.toList.all isNameChar = true)
    (hline : (default :: allowedValues).all (fun v => v.toList.all (· ≠ '\n')) = true) :
    Setting where
  key := key
  valueType := valueType
  default := default
  allowedValues := allowedValues
  minimum := range.map Prod.fst
  maximum := range.map Prod.snd
  key_chars := List.all_eq_true.1 hkey
  one_line v hv hn := by simpa using List.all_eq_true.1 (List.all_eq_true.1 hline v hv) _ hn

def collectSms : Setting := declared "collect_sms" .bool "1" [] none rfl rfl
def collectCalls : Setting := declared "collect_calls" .bool "1" [] none rfl rfl
def collectNotifications : Setting := declared "collect_notifications" .bool "0" [] none rfl rfl
def includeBody : Setting := declared "include_body" .bool "1" [] none rfl rfl
def inboxCap : Setting := declared "inbox_cap" .int "2000" [] (some (100, 50000)) rfl rfl
def keepaliveEnabled : Setting := declared "keepalive_enabled" .bool "0" [] none rfl rfl
def keepaliveTo : Setting := declared "keepalive_to" .string "self" [] none rfl rfl
def keepaliveIntervalHours : Setting :=
  declared "keepalive_interval_hours" .int "720" [] (some (1, 8760)) rfl rfl
def keepaliveSubs : Setting :=
  declared "keepalive_subs" .enum "all" ["all", "default"] none rfl rfl
def keepaliveBody : Setting :=
  declared "keepalive_body" .string "rackphone keepalive" [] none rfl rfl
def balanceCode : Setting := declared "balance_code" .string "*102#" [] none rfl rfl
def balanceIntervalHours : Setting :=
  declared "balance_interval_hours" .int "24" [] (some (1, 8760)) rfl rfl

def pluginSettings : List Setting :=
  [collectSms, collectCalls, collectNotifications, includeBody, inboxCap, keepaliveEnabled,
    keepaliveTo, keepaliveIntervalHours, keepaliveSubs, keepaliveBody, balanceCode,
    balanceIntervalHours]

theorem pluginSettings_nodup : (pluginSettings.map Setting.key).Nodup := by decide

/-- The companion's `plugin.json`. -/
def plugin : Plugin := ⟨pluginSettings, pluginSettings_nodup⟩

theorem module_chars : ∀ c ∈ "companion".toList, isNameChar c := List.all_eq_true.1 rfl

def nameOf (setting : Setting) : SettingName :=
  ⟨"companion", setting.key, module_chars, setting.key_chars⟩

/-- The extras of the `CONFIG` that `reload.sh` sends. -/
def configArgs (unit : Device) : List (Text × Text) :=
  pluginSettings.map fun setting =>
    (setting.key.toList, substitute (unit.cfg plugin (nameOf setting)))

/-- `reload.sh`. -/
def reload (unit : Device) (s : App) (w w' : Chance) : App :=
  let s : App :=
    if s.appToken = [] then s.step K (s.hostBroadcast "SETUP".toList [] w) else s
  s.step K (s.hostBroadcast "CONFIG".toList (configArgs unit) w')

/-! ## What the app makes of them -/

/-- What the host asks of the unit's settings. -/
inductive Change where
  | set (name : SettingName) (value : String)
  | unset (name : SettingName)

def change (unit : Device) : Change → Device
  | .set name value => (unit.setValue name value).getD unit
  | .unset name => unit.unsetValue name

/-- What is set is one line that the plugin's declaration accepts. -/
def Validated (P : PythonStr) (unit : Device) : Change → Prop
  | .set name value => ∀ plugin ∈ unit.plugins name.module, ∃ setting ∈ plugin.settings,
      setting.key = name.key ∧ (∃ raw, setting.validate P raw = .ok value) ∧ '\n' ∉ value.toList
  | .unset _ => True

theorem unset_fits : byteLength [] < PROP_VALUE_MAX := Nat.succ_pos 91

/-- Nothing is set. -/
def installed (plugins : String → Option Plugin) : Device :=
  ⟨plugins, fun _ => ⟨[], unset_fits⟩, []⟩

def boolText (b : Bool) : Text := if b then ['1'] else ['0']

def intText (n : ℤ) : Text := (toString n).toList

/-- Every setting is the app's reading of the value that is effective on the unit. -/
structure Mirrors (c : AppSettings) (unit : Device) : Prop where
  collectSms : unit.effective (nameOf collectSms) = boolText c.collectSms
  collectCalls : unit.effective (nameOf collectCalls) = boolText c.collectCalls
  collectNotifications :
    unit.effective (nameOf collectNotifications) = boolText c.collectNotifications
  includeBody : unit.effective (nameOf includeBody) = boolText c.includeBody
  inboxCap : unit.effective (nameOf inboxCap) = intText c.inboxCap
  keepaliveEnabled : unit.effective (nameOf keepaliveEnabled) = boolText c.keepaliveEnabled
  keepaliveTo : c.keepaliveTo = trim K (unit.effective (nameOf keepaliveTo))
  keepaliveIntervalHours :
    unit.effective (nameOf keepaliveIntervalHours) = intText c.keepaliveIntervalHours
  keepaliveSubs : c.keepaliveSubs = trim K (unit.effective (nameOf keepaliveSubs))
  keepaliveBody : c.keepaliveBody = unit.effective (nameOf keepaliveBody)
  balanceCode : c.balanceCode = trim K (unit.effective (nameOf balanceCode))
  balanceIntervalHours :
    unit.effective (nameOf balanceIntervalHours) = intText c.balanceIntervalHours

end CommandReceiver

end Rackphone
