import Rackphone.Lib.Dict
import Rackphone.Settings
import Rackphone.Spool

/-!
# Unit files

`Unit` of `units.py`, the declared state of one phone: the file `save` writes and `load` reads, and
the text of `config.env` that `deploy` pushes. A value is written as it is, on a line of its own;
`load` splits with `str.splitlines` and takes what `SETTING_LINE_PATTERN` matches, the phone's
`resolve` splits at line feeds and hands the value to the shell's `echo`.
-/

namespace Rackphone

/-- `[A-Za-z0-9_.-]`. -/
def isKeyChar (c : Char) : Bool := isNameChar c || c = '.'

def RESERVED_KEY_PREFIX : List Char := "unit.".toList
def SERIAL_KEY : List Char := "unit.serial".toList
def LABEL_KEY : List Char := "unit.label".toList

/-- `SETTING_LINE_PATTERN.match`, with its two groups. -/
def settingLine (line : List Char) : Option (List Char × List Char) :=
  let rest := line.dropWhile isBlank
  match rest.takeWhile isKeyChar, (rest.dropWhile isKeyChar).dropWhile isBlank with
  | c :: key, '=' :: value => some (c :: key, Lines.strip isBlank value)
  | _, _ => none

/-- `Unit`. -/
structure DeclaredUnit where
  name : List Char
  serial : Option (List Char)
  label : List Char
  settings : Dict (List Char) (List Char)

namespace DeclaredUnit

variable (u : DeclaredUnit)

def assign (key value : List Char) : DeclaredUnit :=
  if key = SERIAL_KEY then { u with serial := if value = [] then none else some value }
  else if key = LABEL_KEY then { u with label := value }
  else if RESERVED_KEY_PREFIX <+: key then u
  else { u with settings := u.settings.set key value }

def readLine (line : List Char) : DeclaredUnit :=
  if Lines.strip isBlank line = [] ∨ ['#'] <+: line.dropWhile isBlank then u
  else
    match settingLine line with
    | none => u
    | some (key, value) => u.assign key value

/-- `Unit.load`, of the text of the file. -/
def load (name text : List Char) : DeclaredUnit :=
  (Lines.split isLineBreak text).foldl readLine ⟨name, none, [], .empty⟩

/-- `key=value`, in the order of the keys. -/
def settingLines : List (List Char) :=
  (u.settings.items.insertionSort fun i j => i.1 ≤ j.1).map fun i => i.1 ++ '=' :: i.2

def nameLine : List Char := "# Rackphone unit: ".toList ++ u.name

def fileLines : List (List Char) :=
  [u.nameLine,
    "#".toList,
    "# Declared state for this device. `rackphone deploy` pushes it;".toList,
    "# `rackphone set` updates it alongside the live override so that".toList,
    "# the repo and the hardware do not drift apart.".toList,
    [],
    SERIAL_KEY ++ '=' :: u.serial.getD [],
    LABEL_KEY ++ '=' :: u.label,
    []] ++ u.settingLines

/-- What `Unit.save` writes. -/
def save : List Char := ['\n'].intercalate u.fileLines ++ ['\n']

def setSetting (key value : List Char) : DeclaredUnit :=
  { u with settings := u.settings.set key value }

def removeSetting (key : List Char) : DeclaredUnit := { u with settings := u.settings.pop key }

def deviceNameLine : List Char := "# Unit: ".toList ++ u.name

def deviceLines : List (List Char) :=
  ["# Generated by `rackphone deploy` - do not edit on the device.".toList,
    u.deviceNameLine,
    []] ++ u.settingLines

def toDeviceConfig : List Char := ['\n'].intercalate u.deviceLines ++ ['\n']

/-- The phone once the text is its `config.env`. -/
def deploy (s : Device) : Device :=
  { s with config := Lines.split (fun c => c = '\n') u.toDeviceConfig }

end DeclaredUnit

/-- `<plugin>.<key>`. -/
def SettingName.dotted (name : SettingName) : List Char :=
  name.module.toList ++ '.' :: name.key.toList

/-! ## The phone's answer -/

/-- The `echo` of a shell, of one argument. What it makes of an option or a backslash is left to
the shell. -/
structure Echo where
  print : List Char → List Char
  ordinary : ∀ v, v.head? ≠ some '-' → '\\' ∉ v → print v = v ++ ['\n']

/-- What is read is what was to be printed. -/
def Echo.Keeps (E : Echo) (v : List Char) : Prop := substitute (E.print v) = v

/-- What a caller reads of `resolve`, or nothing where it fails. -/
def Device.answer (E : Echo) (s : Device) (name : SettingName) : Option (List Char) :=
  (s.resolve name).map fun v => substitute (E.print v)

/-! ## The round trips -/

namespace DeclaredUnit

variable (E : Echo) (u : DeclaredUnit)

def WellFormedKeys : Prop := ∀ key ∈ u.settings.keys, ∃ name : SettingName, name.dotted = key

structure RoundTrips : Prop where
  serial : (load u.name u.save).serial = u.serial
  label : (load u.name u.save).label = u.label
  settings : ∀ key, (load u.name u.save).settings.get key = u.settings.get key
  deployed : ∀ (s : Device) (name : SettingName), s.getprop name = [] →
    ∀ v ∈ u.settings.get name.dotted, (u.deploy s).answer E name = some v
  other : ∀ (s : Device) (name : SettingName), u.settings.get name.dotted = none →
    (u.deploy s).configValue name = []

/-- One line, with no blank at either end. -/
def Trimmed (t : List Char) : Prop := (∀ c ∈ t, isLineBreak c = false) ∧ Lines.strip isBlank t = t

def entry (line : List Char) : Option (List Char × List Char) :=
  if Lines.strip isBlank line = [] ∨ ['#'] <+: line.dropWhile isBlank then none
  else settingLine line

/-- The keys and values on the lines of a text. -/
def entries (text : List Char) : List (List Char × List Char) :=
  (Lines.split isLineBreak text).filterMap entry

/-- Where the name breaks the line of the heading, what is left of it sets nothing. -/
structure QuietName : Prop where
  file : ∀ e ∈ entries (u.nameLine ++ ['\n']), RESERVED_KEY_PREFIX <+: e.1 ∨ e.1 ∈ u.settings.keys
  device : ∀ name : SettingName, u.settings.get name.dotted = none →
    KeyLines.last isShellSpace name.pattern
      (Lines.split (fun c => c = '\n') (u.deviceNameLine ++ ['\n'])) = []

structure Plain : Prop where
  serial : ∀ s ∈ u.serial, s ≠ [] ∧ Trimmed s
  label : Trimmed u.label
  values : ∀ i ∈ u.settings.items, i.2 ≠ [] ∧ Trimmed i.2
  echoed : ∀ i ∈ u.settings.items, E.Keeps i.2
  keys : ∀ i ∈ u.settings.items, ¬ RESERVED_KEY_PREFIX <+: i.1
  name : u.QuietName

end DeclaredUnit

/-! ## Runs of changes -/

/-- A setting whose line is read back. -/
structure PlainSetting (E : Echo) where
  name : SettingName
  value : List Char
  unreserved : ¬ RESERVED_KEY_PREFIX <+: name.dotted
  ne_nil : value ≠ []
  trimmed : DeclaredUnit.Trimmed value
  echoed : E.Keeps value

/-- What is done to the unit `unit`: the calls of `record_setting` and `forget_setting`. -/
inductive Change (E : Echo) where
  | record (setting : PlainSetting E)
  | forget (name : SettingName)

namespace Change

variable {E : Echo}

def apply (u : DeclaredUnit) : Change E → DeclaredUnit
  | record setting => u.setSetting setting.name.dotted setting.value
  | forget name => u.removeSetting name.dotted

/-- The text of the unit's file after a change. -/
def write (unit file : List Char) (c : Change E) : List Char :=
  (c.apply (DeclaredUnit.load unit file)).save

end Change

/-- What a unit declares: its serial, its label and the value of each key. -/
structure Declared where
  serial : Option (List Char)
  label : List Char
  setting : List Char → Option (List Char)

def Declared.change {E : Echo} (d : Declared) : Change E → Declared
  | .record setting =>
    { d with setting := Function.update d.setting setting.name.dotted (some setting.value) }
  | .forget name => { d with setting := Function.update d.setting name.dotted none }

def DeclaredUnit.declared (u : DeclaredUnit) : Declared := ⟨u.serial, u.label, u.settings.get⟩

end Rackphone
