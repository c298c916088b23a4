import Rackphone.Lib.KeyLines
import Rackphone.Lib.Lines

/-!
# The settings of a unit

`resolve`, `set_value` and `unset_value` of the `rackphone` command, the companion's `cfg` and
`Setting.validate` of `plugins.py`. A value has three layers: the property, `config.env`, and the
plugin's `defaults.env`, which `build-modules.sh` writes from its `plugin.json`. The property
service drops a value of more than 91 bytes without an error, `${#_val}` counts characters and
`echo` writes its argument as it is.
-/

namespace Rackphone

/-- Letters, digits, `_` and `-`: what a module and a key are written with. -/
def isNameChar (c : Char) : Bool := c.isAlphanum || c = '_' || c = '-'

/-- `[[:space:]]`. -/
def isShellSpace (c : Char) : Bool := c ∈ [' ', '\t', '\n', '\r', '\x0b', '\x0c']

/-- What `$(...)` leaves of an output. -/
def substitute (t : List Char) : List Char := t.rdropWhile fun c => c = '\n'

def byteLength (t : List Char) : ℕ := (t.map Char.utf8Size).sum

/-! ## Declarations -/

inductive SettingType where
  | bool | int | enum | string
deriving DecidableEq

structure Setting where
  key : String
  valueType : SettingType
  default : String
  allowedValues : List String
  minimum : Option ℤ
  maximum : Option ℤ
  key_chars : ∀ c ∈ key.toList, isNameChar c
  one_line : ∀ v ∈ default :: allowedValues, '\n' ∉ v.toList

structure Plugin where
  settings : List Setting
  keys_nodup : (settings.map Setting.key).Nodup

/-- Python's `int`, `str.strip`, `str.lower` and `repr`. -/
structure PythonStr where
  int : String → Option ℤ
  strip : String → String
  lower : String → String
  repr : String → String

def TRUE_LITERALS : List String := ["1", "true", "yes", "on"]
def FALSE_LITERALS : List String := ["0", "false", "no", "off"]

def Setting.validate (P : PythonStr) (setting : Setting) (value : String) : Except String String :=
  let key := setting.key
  let got := P.repr value
  match setting.valueType with
  | .bool =>
    let lowered := P.lower (P.strip value)
    if lowered ∈ TRUE_LITERALS then .ok "1"
    else if lowered ∈ FALSE_LITERALS then .ok "0"
    else .error s!"{key} is a boolean; got {got}"
  | .int =>
    match P.int value with
    | none => .error s!"{key} is an integer; got {got}"
    | some number =>
      match setting.minimum.filter fun m => number < m with
      | some m => .error s!"{key} must be >= {m}; got {number}"
      | none =>
        match setting.maximum.filter fun m => m < number with
        | some m => .error s!"{key} must be <= {m}; got {number}"
        | none => .ok (toString number)
  | .enum =>
    let allowed := ", ".intercalate setting.allowedValues
    if value ∉ setting.allowedValues then .error s!"{key} must be one of: {allowed}; got {got}"
    else .ok value
  | .string => .ok value

/-- The lines of `defaults.env`. -/
def Plugin.defaultsEnv (plugin : Plugin) : List (List Char) :=
  "# Generated from plugin.json by scripts/build-modules.sh - do not edit.".toList ::
    plugin.settings.map fun setting => setting.key.toList ++ '=' :: setting.default.toList

/-! ## Layers -/

/-- `<module>.<key>`. -/
structure SettingName where
  module : String
  key : String
  module_chars : ∀ c ∈ module.toList, isNameChar c
  key_chars : ∀ c ∈ key.toList, isNameChar c
deriving DecidableEq

/-- What a line of `config.env` begins with. -/
def SettingName.pattern (name : SettingName) : List Char :=
  name.module.toList ++ '.' :: (name.key.toList ++ ['='])

/-- What a line of `defaults.env` begins with. -/
def SettingName.keyPattern (name : SettingName) : List Char := name.key.toList ++ ['=']

def PROP_VALUE_MAX : ℕ := 92

/-- What the property service holds; a property that does not exist reads as empty. -/
structure PropValue where
  text : List Char
  fits : byteLength text < PROP_VALUE_MAX

structure Device where
  plugins : String → Option Plugin
  props : SettingName → PropValue
  /-- The lines of `config.env`. -/
  config : List (List Char)

namespace Device

variable (s : Device)

def getprop (name : SettingName) : List Char := substitute (s.props name).text

def resetprop (name : SettingName) (value : List Char) : Device :=
  if h : byteLength value < PROP_VALUE_MAX then
    { s with props := Function.update s.props name ⟨value, h⟩ }
  else s

def deleteprop (name : SettingName) : Device :=
  { s with props := Function.update s.props name ⟨[], by decide⟩ }

def configValue (name : SettingName) : List Char :=
  KeyLines.last isShellSpace name.pattern s.config

def defaultValue (plugin : Plugin) (name : SettingName) : List Char :=
  KeyLines.last isShellSpace name.keyPattern plugin.defaultsEnv

/-- The text `resolve` writes, or nothing where it fails. -/
def resolve (name : SettingName) : Option (List Char) :=
  if s.getprop name ≠ [] then some (s.getprop name)
  else if s.configValue name ≠ [] then some (s.configValue name)
  else
    match s.plugins name.module with
    | none => none
    | some plugin => if defaultValue plugin name ≠ [] then some (defaultValue plugin name) else none

/-- The effective value: what `resolve` writes. -/
def effective (name : SettingName) : List Char := (s.resolve name).getD []

/-- Where the command succeeds. -/
def setValue (name : SettingName) (value : String) : Option Device :=
  match s.plugins name.module with
  | none => none
  | some _ =>
    let s : Device :=
      if value.length > 91 then s.deleteprop name else s.resetprop name value.toList
    some { s with
      config := KeyLines.without isShellSpace name.pattern s.config ++
        Lines.split (fun c => c = '\n') (name.pattern ++ value.toList) }

def unsetValue (name : SettingName) : Device :=
  let s : Device := s.deleteprop name
  { s with config := KeyLines.without isShellSpace name.pattern s.config }

/-- `cfg`, with the companion's own `defaults.env`. -/
def cfg (plugin : Plugin) (name : SettingName) : List Char :=
  if s.getprop name ≠ [] then s.getprop name
  else if s.configValue name ≠ [] then s.configValue name
  else defaultValue plugin name

/-! ## What is set is what is read -/

structure SetGet (name : SettingName) (setting : Setting) (value : String) : Prop where
  get : ∀ s' ∈ s.setValue name value, s'.effective name = value.toList
  other : ∀ s' ∈ s.setValue name value, ∀ name' ≠ name, s'.resolve name' = s.resolve name'
  unset : (s.unsetValue name).effective name = setting.default.toList
  cfg : ∀ companion ∈ s.plugins "companion", ∀ name' : SettingName, name'.module = "companion" →
    s.cfg companion name' = s.effective name'

/-- No layer loses the value: it is not empty, or the default is too, and where the property
service drops it no earlier property is left to be read. -/
def Keeps (name : SettingName) (setting : Setting) (value : String) : Prop :=
  (value = "" → setting.default = "") ∧
    (value.length ≤ 91 → 91 < byteLength value.toList → s.getprop name = [])

instance (name : SettingName) (setting : Setting) (value : String) :
    Decidable (s.Keeps name setting value) := inferInstanceAs (Decidable ((_ → _) ∧ (_ → _ → _)))

end Device

end Rackphone
