import CallGuard.Toml.Reader
import CallGuard.Value.Basic

/-!
# Configuration

What can be chosen about contracts, and how it is written down: two settings, each of which may be
left out; other settings are ignored.
-/

namespace CallGuard

/-- What can be chosen about contracts. -/
structure Config where
  /-- Whether callables returned under a `Callable[...]` declaration are guarded in turn. -/
  guardsReturned : Bool := true
  /-- How `Type[X]` is decided. -/
  rule : TypeRefRule := .subtype
  deriving DecidableEq

namespace TypeRefRule

/-- The name of a rule in a configuration. -/
def text : TypeRefRule → String
  | subtype => "subtype"
  | legacy => "legacy"

/-- The rule of this name. -/
def ofText? (s : String) : Option TypeRefRule :=
  if s == "subtype" then some subtype
  else if s == "legacy" then some legacy
  else none

/-- The rule that an item names: as a text, or as the one name in a table, under which nothing
stands. -/
def ofItem? : Toml.Item → Option TypeRefRule
  | .text s => ofText? s
  | .table _ [(name, item)] => if item.isEmpty then ofText? name else none
  | _ => none

end TypeRefRule

namespace Config

/-- The name of the setting `guardsReturned`. -/
def guardsReturnedKey : String := "auto_wrap_returned_callables"

/-- The name of the setting `rule`. -/
def ruleKey : String := "type_reference_rule"

/-- The configuration that a text describes, if it does. -/
def ofToml? (text : String) : Option Config := do
  let entries ← Toml.parse? text
  let guardsReturned ←
    match entries.lookup guardsReturnedKey with
    | none => some true
    | some (.bool b) => some b
    | some _ => none
  let rule ←
    match entries.lookup ruleKey with
    | none => some .subtype
    | some item => TypeRefRule.ofItem? item
  return { guardsReturned, rule }

end Config

end CallGuard
