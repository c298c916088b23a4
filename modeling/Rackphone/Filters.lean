import Rackphone.EventFrames

/-!
# The notification filters

`FilterRule` and `should_push` of `gateway/filters.py`, with the conditions a rule carries and the
order in which they are tested. `Silenced` says of a set of rules what the search decides, without
an order.
-/

namespace Rackphone.Filters

/-- Python's `str.lower` and `fnmatchcase`, and the `search` of a compiled pattern. -/
structure PythonMatch (Pattern : Type) where
  lower : String → String
  fnmatchcase : String → String → Bool
  search : Pattern → String → Bool

structure FilterRule (Pattern : Type) where
  name : String
  mode : FilterMode
  unit : List String
  kind : List String
  sender : List String
  contains : List String
  /-- The field `matches`. -/
  patterns : List Pattern
  enabled : Bool

variable {Pattern : Type} (M : PythonMatch Pattern)

def lowered (values : List String) : List String := values.map M.lower

def matchesSender (address : Option String) (patterns : List String) : Bool :=
  match address with
  | none => false
  | some address => patterns.any fun pattern => M.fnmatchcase (M.lower address) (M.lower pattern)

namespace FilterRule

variable (rule : FilterRule Pattern)

def readsBody : Bool := !rule.contains.isEmpty || !rule.patterns.isEmpty

def matchesBody (body : Option String) : Bool :=
  if !rule.readsBody then true
  else
    match body with
    | none => false
    | some body =>
      let lowered := (M.lower body).toList
      if !rule.contains.isEmpty
          && !rule.contains.any fun needle => (M.lower needle).toList <:+: lowered then false
      else rule.patterns.isEmpty || rule.patterns.any fun pattern => M.search pattern body

/-- `not rule.kind or event.kind.lower() in _lowered(rule.kind)`. -/
def coversKind (kind : String) : Bool :=
  rule.kind.isEmpty || decide (M.lower kind ∈ lowered M rule.kind)

def matchesEvent (event : Event) : Bool :=
  if !rule.enabled then false
  else if !rule.unit.isEmpty && decide (M.lower event.unit ∉ lowered M rule.unit) then false
  else if !rule.kind.isEmpty && decide (M.lower event.kind ∉ lowered M rule.kind) then false
  else if !rule.sender.isEmpty && !matchesSender M event.address rule.sender then false
  else rule.matchesBody M event.body

/-- The rule as the event stream sees it. -/
def view : Rackphone.FilterRule where
  name := rule.name
  mode := rule.mode
  enabled := rule.enabled
  coversKind := rule.coversKind M
  matchesEvent := rule.matchesEvent M

end FilterRule

def shouldPush (event : Event) (rules : List (FilterRule Pattern)) :
    Bool × Option (FilterRule Pattern) :=
  let active := rules.filter fun rule => rule.enabled
  match active.find? fun rule => rule.mode = .deny ∧ rule.matchesEvent M event with
  | some matchingDeny => (false, some matchingDeny)
  | none =>
    let applicableAllows := active.filter fun rule =>
      rule.mode = .allow ∧ rule.coversKind M event.kind
    match applicableAllows.find? fun rule => rule.matchesEvent M event with
    | some matchingAllow => (true, some matchingAllow)
    | none =>
      match applicableAllows with
      | rule :: _ => (false, some rule)
      | [] => (true, none)

/-! ## What the rules say together -/

namespace FilterRule

variable (rule : FilterRule Pattern) (event : Event)

def Denies : Prop := rule.enabled ∧ rule.mode = .deny ∧ rule.matchesEvent M event

def Allows : Prop := rule.enabled ∧ rule.mode = .allow ∧ rule.matchesEvent M event

/-- An allow list for the kind of the event holds this rule. -/
def Limits : Prop := rule.enabled ∧ rule.mode = .allow ∧ rule.coversKind M event.kind

end FilterRule

/-- A rule of the set denies the event, or the set allows only some events of its kind and this is
none of them. -/
def Silenced (event : Event) (rules : Set (FilterRule Pattern)) : Prop :=
  (∃ rule ∈ rules, rule.Denies M event)
    ∨ (¬ ∃ rule ∈ rules, rule.Allows M event) ∧ ∃ rule ∈ rules, rule.Limits M event

end Rackphone.Filters
