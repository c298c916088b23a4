import Rackphone.Lib.JsonInside
import Rackphone.Settings

/-!
# The schema of a unit

`cmd_schema` of the `rackphone` command, which prints what every installed plugin declares with the
effective value and the origin of each of its settings, and `parse_schema` of `plugins.py`, which
reads it. The shell writes the document line by line: what a plugin declares is its `plugin.json`
without the line feeds, and of a text it escapes the backslash, the quote and the tab.
-/

namespace Rackphone

open Json (Value codes loads)

/-! ## The command -/

namespace Device

variable (s : Device)

def origin (name : SettingName) : String :=
  if s.getprop name ≠ [] then "prop"
  else if substitute ((KeyLines.values isShellSpace name.pattern s.config).flatMap
      fun v => v ++ ['\n']) ≠ [] then "config"
  else "default"

end Device

/-- `json_escape`: the three substitutions of `sed`, then `tr`. -/
def jsonEscape (t : List Char) : List Char :=
  let t := t.flatMap fun c => if c = '\\' then ['\\', '\\'] else [c]
  let t := t.flatMap fun c => if c = '"' then ['\\', '"'] else [c]
  let t := t.flatMap fun c => if c = '\t' then ['\\', 't'] else [c]
  let t := t.filter fun c => c ≠ '\r'
  t.map fun c => if c = '\n' then ' ' else c

/-- `[A-Za-z0-9_]`. -/
def isKeyWordChar (c : Char) : Bool := c.isAlphanum || c = '_'

theorem isNameChar_of_isKeyWordChar {c : Char} (h : isKeyWordChar c = true) :
    isNameChar c = true := by
  simp only [isKeyWordChar, isNameChar, Bool.or_eq_true] at h ⊢
  exact .inl h

/-- A key as the listing has it. -/
@[ext] structure KeyWord where
  chars : List Char
  words : ∀ c ∈ chars, isKeyWordChar c

/-- `s/^[[:space:]]*\([A-Za-z0-9_]*\)=.*/\1/p`. -/
def keyOfLine (line : List Char) : Option KeyWord :=
  let rest := line.dropWhile isShellSpace
  if (rest.dropWhile isKeyWordChar).head? = some '=' then
    some ⟨rest.takeWhile isKeyWordChar, fun _ => List.mem_takeWhile_imp⟩
  else none

/-- The keys the listing runs through; the shell makes no word of an empty line. -/
def Plugin.listedKeys (plugin : Plugin) : List KeyWord :=
  (plugin.defaultsEnv.filterMap keyOfLine).filter fun k => k.chars ≠ []

/-! ## The reader -/

namespace Schema

/-- `v[k]`, which raises where there is none. -/
def item (k : String) : Value → Option Value
  | .obj fs => Json.lookup (codes k.toList) fs
  | _ => none

/-- `v.get(k, default)`, which raises where `v` is no dictionary. -/
def get (k : String) (default : Value) : Value → Option Value
  | .obj fs => some ((Json.lookup (codes k.toList) fs).getD default)
  | _ => none

/-- What a loop over a value runs through, where it is iterable. -/
def iterate : Value → Option (List Value)
  | .arr vs => some vs
  | .obj fs => some (fs.map fun f => .str f.1)
  | .str s => some (s.map fun u => .str [u])
  | _ => none

def ofText (t : String) : Value := .str (codes t.toList)

/-- `Setting`; `None` is `null`. -/
structure Setting where
  key : Value
  valueType : Value
  default : List ℕ
  label : Value
  helpText : Value
  unitSuffix : Value
  allowedValues : List (List ℕ)
  minimum : Value
  maximum : Value
  dependsOn : Value

/-- `Plugin`. -/
structure Plugin where
  pluginId : Value
  name : Value
  description : Value
  settings : List Setting
  actions : Value
  statusKeys : Value
  values : Value

section Reading

-- Python's `str`
variable (str : Value → List ℕ)

/-- `Setting.from_dict`, or nothing where it raises. -/
def Setting.fromDict (raw : Value) : Option Setting := do
  let key ← item "key" raw
  let valueType ← get "type" (ofText "string") raw
  let default ← get "default" (ofText "") raw
  let label ← get "label" key raw
  let helpText ← get "help" (ofText "") raw
  let unitSuffix ← get "unit" (ofText "") raw
  let allowedValues ← iterate (← get "values" (.arr []) raw)
  let minimum ← get "min" .null raw
  let maximum ← get "max" .null raw
  let dependsOn ← get "depends_on" .null raw
  return {
    key, valueType, default := str default, label, helpText, unitSuffix,
    allowedValues := allowedValues.map str, minimum, maximum, dependsOn }

/-- The settings that `Plugin.from_dict` reads out of a declaration. -/
def settingsOf (declaration : Value) : Option (List Setting) := do
  let settings ← iterate (← get "settings" (.arr []) declaration)
  settings.mapM (Setting.fromDict str)

/-- `Plugin.from_dict`. -/
def Plugin.fromDict (raw : Value) : Option Plugin := do
  let declaration ← get "declaration" (.obj []) raw
  let pluginId ← item "id" raw
  let name ← get "name" pluginId declaration
  let description ← get "description" (ofText "") declaration
  let settings ← settingsOf str declaration
  let actions ← get "actions" (.arr []) declaration
  let statusKeys ← get "status" (.arr []) declaration
  let values ← get "values" (.obj []) raw
  return { pluginId, name, description, settings, actions, statusKeys, values }

end Reading

namespace Plugin

variable (plugin : Plugin)

def getValue (key : String) : Option Value := do
  let value ← get key (.obj []) plugin.values
  get "value" (ofText "") value

def getOrigin (key : String) : Option Value := do
  let value ← get key (.obj []) plugin.values
  get "origin" (ofText "default") value

/-- Whether `plugin_id` is the text. -/
def HasId (id : String) : Bool :=
  match plugin.pluginId with
  | .str s => s = codes id.toList
  | _ => false

end Plugin

end Schema

/-- `UnitSchema`. -/
structure UnitSchema where
  unitName : Value
  model : Value
  lineageVersion : Value
  plugins : List Schema.Plugin

namespace UnitSchema

open Schema

/-- `get_plugin`, or nothing where it raises. -/
def getPlugin (schema : UnitSchema) (id : String) : Option Schema.Plugin :=
  schema.plugins.find? fun plugin => plugin.HasId id

end UnitSchema

open Schema in
/-- `parse_schema`, or nothing where it raises. -/
def parseSchema (str : Value → List ℕ) (payload : List Char) : Option UnitSchema := do
  let data ← loads payload
  let unitName ← get "unit" (ofText "?") data
  let model ← get "model" (ofText "?") data
  let lineageVersion ← get "lineage" (ofText "?") data
  let plugins ← iterate (← get "plugins" (.arr []) data)
  return { unitName, model, lineageVersion, plugins := ← plugins.mapM (Schema.Plugin.fromDict str) }

/-! ## A unit with its plugins -/

/-- A plugin with the text of its `plugin.json`, an object from which `build-modules.sh` took the
plugin's keys and defaults. -/
structure InstalledPlugin (str : Value → List ℕ) where
  id : String
  id_chars : ∀ c ∈ id.toList, isNameChar c
  plugin : Plugin
  text : List Char
  fields : List (List ℕ × Value)
  reads : loads text = some (.obj fields)
  settings : List Schema.Setting
  declares : Schema.settingsOf str (.obj fields) = some settings
  built : (settings.map fun setting => (setting.key, setting.default))
    = plugin.settings.map fun setting =>
      (Schema.ofText setting.key, codes setting.default.toList)

namespace InstalledPlugin

variable {str : Value → List ℕ} (p : InstalledPlugin str)

/-- The name of one of its settings. -/
def settingName (setting : Setting) : SettingName :=
  ⟨p.id, setting.key, p.id_chars, setting.key_chars⟩

/-- The name the listing asks `resolve` and `origin` for. -/
def listedName (k : KeyWord) : SettingName where
  module := p.id
  key := String.ofList k.chars
  module_chars := p.id_chars
  key_chars c hc := isNameChar_of_isKeyWordChar (k.words c (by simpa using hc))

def valueLine (s : Device) (k : KeyWord) : List Char :=
  "        \"".toList ++ k.chars ++ "\": \x7b \"value\": \"".toList
    ++ jsonEscape (s.effective (p.listedName k)) ++ "\", \"origin\": \"".toList
    ++ (s.origin (p.listedName k)).toList ++ "\" \x7d".toList

def lines (s : Device) : List (List Char) :=
  ["    \x7b".toList,
    "      \"id\": \"".toList ++ p.id.toList ++ "\",".toList,
    "      \"declaration\": ".toList ++ (p.text.filter fun c => c ≠ '\n') ++ ",".toList,
    "      \"values\": \x7b".toList]
  ++ ["        ,".toList].intercalate (p.plugin.listedKeys.map fun k => [p.valueLine s k])
  ++ ["      \x7d".toList, "    \x7d".toList]

end InstalledPlugin

/-- The properties that name the product, as the command reads them. -/
structure Product where
  device : List Char
  model : List Char
  lineage : List Char

namespace Product

variable (product : Product)

def headLines : List (List Char) :=
  ["\x7b".toList,
    "  \"unit\": \"".toList ++ product.device ++ "\",".toList,
    "  \"model\": \"".toList ++ product.model ++ "\",".toList,
    "  \"lineage\": \"".toList ++ product.lineage ++ "\",".toList,
    "  \"plugins\": [".toList]

def tailLines : List (List Char) := ["  ]".toList, "\x7d".toList]

end Product

/-- What `echo` makes of some lines. -/
def unlines (lines : List (List Char)) : List Char := lines.flatMap fun line => line ++ ['\n']

structure PhoneUnit (str : Value → List ℕ) where
  device : Device
  product : Product
  /-- In the order of `plugin_ids`. -/
  plugins : List (InstalledPlugin str)
  installed : ∀ p ∈ plugins, device.plugins p.id = some p.plugin

namespace PhoneUnit

variable {str : Value → List ℕ} (phone : PhoneUnit str)

/-- What `rackphone schema` prints. -/
def cmdSchema : List Char :=
  unlines (phone.product.headLines
    ++ ["    ,".toList].intercalate (phone.plugins.map fun p => p.lines phone.device)
    ++ Product.tailLines)

/-! ## What is printed is what is read -/

/-- The document parses, and every declared setting has the value and the origin the unit gives. -/
def Reports : Prop :=
  ∃ schema ∈ parseSchema str phone.cmdSchema, ∀ p ∈ phone.plugins,
    ∃ plugin ∈ schema.getPlugin p.id, ∀ setting ∈ p.plugin.settings,
      plugin.getValue setting.key
          = some (.str (codes (phone.device.effective (p.settingName setting))))
        ∧ plugin.getOrigin setting.key
          = some (Schema.ofText (phone.device.origin (p.settingName setting)))

end PhoneUnit

/-- The names of the product, between quotes as they are, leave a document where no plugin is. -/
def Product.Reads (product : Product) : Prop :=
  (loads (unlines (product.headLines ++ Product.tailLines))).isSome

/-- Whether the listing has the key. -/
def Setting.Listed (setting : Setting) : Prop :=
  setting.key ≠ "" ∧ ∀ c ∈ setting.key.toList, isKeyWordChar c

instance : DecidablePred Setting.Listed := fun _ => inferInstanceAs (Decidable (_ ∧ _))

/-- No control character but the tab. -/
def Printable (v : List Char) : Prop := ∀ c ∈ v, c = '\t' ∨ 0x20 ≤ c.toNat

instance : DecidablePred Printable := fun v =>
  inferInstanceAs (Decidable (∀ c ∈ v, c = '\t' ∨ 0x20 ≤ c.toNat))

/-- The value of a listed setting is printable; a setting that is not listed has none. -/
def PhoneUnit.Presentable {str : Value → List ℕ} (phone : PhoneUnit str) : Prop :=
  ∀ p ∈ phone.plugins, ∀ setting ∈ p.plugin.settings,
    if setting.Listed then Printable (phone.device.effective (p.settingName setting))
    else phone.device.effective (p.settingName setting) = []
      ∧ phone.device.origin (p.settingName setting) = "default"

end Rackphone
