import WafRules.Ctl
import WafRules.Expandable
import WafRules.Position
import WafRules.Severity
import WafRules.Transform

/-!
# Actions

What a rule does when it matches, and what it says about itself.  Actions are grouped by the
shape of their value: none, a text with references, a number, a plain text, or a value of their
own.

## Main Definitions

* `Flag`, `TextAction`, `NumberAction`, `LabelAction` — the actions of the common shapes.
* `VarChange` — what `setvar` does, with the value or amount it does it with.
* `SetVar`, `ExpireVar`, `InitCol` — the values of the actions on collections.
* `Action` — an action with its value.
* `Action.Keyword` — the keywords, with the family of each and its spelling.
* `Action.strings` — the texts with references that an action carries.
-/

namespace WafRules

/-- The actions without a value. -/
inductive Flag
  | allow | block | deny | drop | pass | auditLog | capture | log | multiMatch | noAuditLog
  | noLog | chain
  deriving DecidableEq, Repr

/-- The actions whose value is a text with references. -/
inductive TextAction
  | redirect | append | logData | skipAfter | msg | tag
  deriving DecidableEq, Repr

/-- The actions whose value is a number written in digits. -/
inductive NumberAction
  | skip | accuracy | id | maturity | status
  deriving DecidableEq, Repr

/-- The actions whose value is a plain text. -/
inductive LabelAction
  | rev | ver
  deriving DecidableEq, Repr

namespace NumberAction

/-- The least number the action takes. -/
def least : NumberAction → Nat
  | skip | id => 1
  | accuracy | maturity => 0
  | status => 100

/-- The greatest number the action takes. -/
def most : NumberAction → Nat
  | skip | id => 4294967295
  | accuracy | maturity => 9
  | status => 599

end NumberAction

/-- A variable of a collection; both names may refer to run-time values. -/
structure Member where
  collection : ExpandableString
  name : ExpandableString
  deriving DecidableEq, Repr

/-- What `setvar` may do to a variable. -/
inductive VarOperation
  | set
  /-- The variable is created with the value one. -/
  | setToOne
  | add
  | subtract
  | delete
  deriving DecidableEq, Repr

/-- The name in a dump. -/
def VarOperation.name : VarOperation → String
  | set => "Set"
  | setToOne => "SetToOne"
  | add => "Add"
  | subtract => "Subtract"
  | delete => "Delete"

/-- A change of a variable: what is done, and the value or amount that it is done with.  The type
does not tie the two together: a document that is put together by hand may hold a modifier that its
operation has no use for, or lack one.  What is read is always one of the changes below. -/
structure VarChange where
  operation : VarOperation
  modifier : Option ExpandableString
  deriving DecidableEq, Repr

namespace VarChange

/-- A value is assigned. -/
def set (value : ExpandableString) : VarChange := ⟨.set, some value⟩

/-- The variable is created with the value one. -/
def setToOne : VarChange := ⟨.setToOne, none⟩

/-- An amount is added. -/
def add (amount : ExpandableString) : VarChange := ⟨.add, some amount⟩

/-- An amount is subtracted. -/
def subtract (amount : ExpandableString) : VarChange := ⟨.subtract, some amount⟩

/-- The variable is dropped. -/
def delete : VarChange := ⟨.delete, none⟩

/-- The name of what is done. -/
def name (change : VarChange) : String := change.operation.name

end VarChange

/-- The value of `setvar`. -/
structure SetVar where
  member : Member
  change : VarChange
  deriving DecidableEq, Repr

/-- The value of `expirevar`: a variable, and the time after which it is dropped. -/
structure ExpireVar where
  member : Member
  seconds : ExpandableString
  deriving DecidableEq, Repr

/-- The value of `initcol`: a collection, and the key under which it is stored. -/
structure InitCol where
  collection : String
  key : ExpandableString
  deriving DecidableEq, Repr

/-- An action with its value. -/
inductive Action
  | flag (which : Flag)
  | text (which : TextAction) (value : ExpandableString)
  | number (which : NumberAction) (value : Nat)
  | label (which : LabelAction) (value : String)
  | phase (phase : Nat)
  | severity (severity : Severity)
  | transform (transform : Transform)
  | setVar (value : SetVar)
  | expireVar (value : ExpireVar)
  | initCol (value : InitCol)
  | ctl (option : CtlOption)
  deriving DecidableEq, Repr

namespace Action

/-- The families of actions. -/
inductive Family
  /-- Decides the fate of the transaction. -/
  | disruptive
  /-- Has an effect that does not stop the processing. -/
  | nonDisruptive
  /-- Changes which rule comes next. -/
  | flow
  /-- Describes the rule. -/
  | metaData
  /-- Carries a value for other actions. -/
  | data
  deriving DecidableEq, Repr

/-- The name of a family. -/
def Family.name : Family → String
  | disruptive => "Disruptive"
  | nonDisruptive => "NonDisruptive"
  | flow => "Flow"
  | metaData => "MetaData"
  | data => "Data"

/-- The keywords of the actions. -/
inductive Keyword
  | flag (which : Flag)
  | text (which : TextAction)
  | number (which : NumberAction)
  | label (which : LabelAction)
  | phase | severity | transform | setVar | expireVar | initCol | ctl
  deriving DecidableEq, Repr

namespace Keyword

/-- The spelling in a rule. -/
def spelling : Keyword → String
  | flag .allow => "allow"
  | flag .block => "block"
  | flag .deny => "deny"
  | flag .drop => "drop"
  | flag .pass => "pass"
  | flag .auditLog => "auditlog"
  | flag .capture => "capture"
  | flag .log => "log"
  | flag .multiMatch => "multiMatch"
  | flag .noAuditLog => "noauditlog"
  | flag .noLog => "nolog"
  | flag .chain => "chain"
  | text .redirect => "redirect"
  | text .append => "append"
  | text .logData => "logdata"
  | text .skipAfter => "skipAfter"
  | text .msg => "msg"
  | text .tag => "tag"
  | number .skip => "skip"
  | number .accuracy => "accuracy"
  | number .id => "id"
  | number .maturity => "maturity"
  | number .status => "status"
  | label .rev => "rev"
  | label .ver => "ver"
  | phase => "phase"
  | severity => "severity"
  | transform => "t"
  | setVar => "setvar"
  | expireVar => "expirevar"
  | initCol => "initcol"
  | ctl => "ctl"

/-- The spelling in a dump, which marks every word of the keyword. -/
def dumpName : Keyword → String
  | flag .auditLog => "auditLog"
  | flag .noAuditLog => "noAuditLog"
  | flag .noLog => "noLog"
  | text .logData => "logData"
  | setVar => "setVar"
  | expireVar => "expireVar"
  | initCol => "initCol"
  | keyword => keyword.spelling

/-- Every keyword, once. -/
def all : List Keyword :=
  [flag .allow, flag .block, flag .deny, flag .drop, flag .pass, text .redirect, text .append,
    flag .auditLog, flag .capture, ctl, expireVar, initCol, flag .log, text .logData,
    flag .multiMatch, flag .noAuditLog, flag .noLog, setVar, transform, flag .chain,
    number .skip, text .skipAfter, number .accuracy, number .id, number .maturity, text .msg,
    phase, label .rev, severity, text .tag, label .ver, number .status]

theorem mem_all (keyword : Keyword) : keyword ∈ all := by
  cases keyword with
  | flag which => cases which <;> decide
  | text which => cases which <;> decide
  | number which => cases which <;> decide
  | label which => cases which <;> decide
  | _ => decide

/-- The keyword of a spelling. -/
def ofName? (text : String) : Option Keyword := Text.keyword? spelling all text

/-- The family of the keyword. -/
def family : Keyword → Family
  | flag .allow | flag .block | flag .deny | flag .drop | flag .pass | text .redirect =>
    .disruptive
  | flag .chain | number .skip | text .skipAfter => .flow
  | number .accuracy | number .id | number .maturity | text .msg | text .tag | label _ | phase
  | severity => .metaData
  | number .status => .data
  | flag _ | text _ | transform | setVar | expireVar | initCol | ctl => .nonDisruptive

/-- Whether a value without quotes is a single word, which blanks end. -/
def isSingleWord : Keyword → Bool
  | number _ | label _ | phase | severity | transform | ctl => true
  | flag _ | text _ | setVar | expireVar | initCol => false

end Keyword

/-- The keyword of an action. -/
def keyword : Action → Keyword
  | flag which => .flag which
  | text which _ => .text which
  | number which _ => .number which
  | label which _ => .label which
  | phase _ => .phase
  | severity _ => .severity
  | transform _ => .transform
  | setVar _ => .setVar
  | expireVar _ => .expireVar
  | initCol _ => .initCol
  | ctl _ => .ctl

/-- The name of an action, as rules spell it. -/
def name (a : Action) : String := a.keyword.spelling

/-- The family of an action. -/
def family (a : Action) : Family := a.keyword.family

/-- Whether the action decides the fate of the transaction. -/
def isDisruptive (a : Action) : Bool := a.family == .disruptive

/-- The texts with references that the action carries, in the order they are written. -/
def strings : Action → List ExpandableString
  | text _ value => [value]
  | setVar value => [value.member.collection, value.member.name] ++ value.change.modifier.toList
  | expireVar value => [value.member.collection, value.member.name, value.seconds]
  | initCol value => [value.key]
  | flag _ | number _ _ | label _ _ | phase _ | severity _ | transform _ | ctl _ => []

end Action

end WafRules
