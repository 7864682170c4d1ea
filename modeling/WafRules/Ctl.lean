import WafRules.Selector
import WafRules.Setting

/-!
# Control options

The `ctl` action changes the configuration for the transaction at hand: engine settings, the
parser of the request body, and which rules or targets of rules are left out.

## Main Definitions

* `IdRange` — a range of rule ids.
* `BodyProcessor` — the parsers of request bodies.
* `PartsChange` — a change of the audit log parts.
* `CtlOption` — an option with its value.
-/

namespace WafRules

/-- The rule ids from `first` to `last`. -/
structure IdRange where
  first : Nat
  last : Nat
  deriving DecidableEq, Repr

namespace IdRange

/-- Whether the range has a given id. -/
def contains (r : IdRange) (id : Nat) : Bool := r.first ≤ id && id ≤ r.last

/-- The written form; a single id is written once. -/
def render (r : IdRange) : String :=
  if r.first = r.last then toString r.first else toString r.first ++ "-" ++ toString r.last

end IdRange

/-- A parser of request bodies. -/
inductive BodyProcessor
  | urlEncoded | multipart | json | xml
  deriving DecidableEq, Repr

namespace BodyProcessor

/-- The keyword, in upper case. -/
def name : BodyProcessor → String
  | urlEncoded => "URLENCODED"
  | multipart => "MULTIPART"
  | json => "JSON"
  | xml => "XML"

/-- Every processor, once. -/
def all : List BodyProcessor := [urlEncoded, multipart, json, xml]

/-- The processor of a keyword. -/
def ofName? (text : String) : Option BodyProcessor := Text.keyword? name all text

end BodyProcessor

/-- How a list of parts changes the parts in effect. -/
inductive PartsChange
  | set | add | remove
  deriving DecidableEq, Repr

/-- The name of the change. -/
def PartsChange.name : PartsChange → String
  | set => "Set"
  | add => "Add"
  | remove => "Remove"

/-- A change of the configuration for one transaction. -/
inductive CtlOption
  | auditEngine (mode : AuditEngineMode)
  | auditLogParts (change : PartsChange) (parts : List AuditLogPart)
  | forceRequestBodyVariable (enabled : Bool)
  | requestBodyAccess (enabled : Bool)
  | requestBodyProcessor (processor : BodyProcessor)
  | ruleEngine (mode : RuleEngineMode)
  | ruleRemoveById (ids : IdRange)
  | ruleRemoveByTag (tag : String)
  | ruleRemoveTargetById (ids : IdRange) (target : Selector)
  | ruleRemoveTargetByTag (tag : String) (target : Selector)
  deriving DecidableEq, Repr

namespace CtlOption

/-- The name of the option. -/
def name : CtlOption → String
  | auditEngine _ => "auditEngine"
  | auditLogParts _ _ => "auditLogParts"
  | forceRequestBodyVariable _ => "forceRequestBodyVariable"
  | requestBodyAccess _ => "requestBodyAccess"
  | requestBodyProcessor _ => "requestBodyProcessor"
  | ruleEngine _ => "ruleEngine"
  | ruleRemoveById _ => "ruleRemoveById"
  | ruleRemoveByTag _ => "ruleRemoveByTag"
  | ruleRemoveTargetById _ _ => "ruleRemoveTargetById"
  | ruleRemoveTargetByTag _ _ => "ruleRemoveTargetByTag"

/-- The target that is left out, for the options that name one. -/
def target : CtlOption → Option Selector
  | ruleRemoveTargetById _ target | ruleRemoveTargetByTag _ target => some target
  | _ => none

/-- The rule ids, for the options that name them. -/
def ids : CtlOption → Option IdRange
  | ruleRemoveById ids | ruleRemoveTargetById ids _ => some ids
  | _ => none

end CtlOption

end WafRules
