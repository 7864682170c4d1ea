import WafRules.Action
import WafRules.Operator
import WafRules.Selector

/-!
# Directives

A configuration is a sequence of directives.  The most important one is a rule: selectors, an
operator and actions.  The others run or preset actions, mark places in the sequence, or set
options of the engine.

## Main Definitions

* `Rule` — selectors, operator and actions.
* `Directive.Keyword` — the keywords, with the number of arguments of each.
* `Directive.Body`, `Directive` — what a directive says, and the same with its place.
-/

namespace WafRules

/-- What to inspect, what to look for, and what to do on a match. -/
structure Rule where
  selectors : List Selector
  operator : Operator
  actions : List (Positioned Action)
  deriving DecidableEq, Repr

/-- The id given by the first `id` action. -/
def actionsId (actions : List (Positioned Action)) : Option Nat :=
  actions.findSome? fun a =>
    match a.node with
    | .number .id value => some value
    | _ => none

namespace Rule

/-- The id. -/
def id (r : Rule) : Option Nat := actionsId r.actions

/-- The phase given by the first `phase` action. -/
def phase (r : Rule) : Option Nat :=
  r.actions.findSome? fun a =>
    match a.node with
    | .phase phase => some phase
    | _ => none

/-- The severity given by the first `severity` action. -/
def severity (r : Rule) : Option Severity :=
  r.actions.findSome? fun a =>
    match a.node with
    | .severity severity => some severity
    | _ => none

/-- Whether the next rule belongs to the chain of this one. -/
def isChained (r : Rule) : Bool := r.actions.any fun a => a.node == .flag .chain

/-- The transformations in the order they are written. -/
def transforms (r : Rule) : List Transform :=
  r.actions.filterMap fun a =>
    match a.node with
    | .transform transform => some transform
    | _ => none

/-- The first action that decides the fate of the transaction. -/
def disruptiveAction (r : Rule) : Option Action :=
  (r.actions.map Positioned.node).find? Action.isDisruptive

end Rule

namespace Directive

/-- The keywords of the directives. -/
inductive Keyword
  | rule | action | defaultAction | marker | componentSignature | ruleEngine | auditEngine
  | auditLogParts | requestBodyAccess | responseBodyAccess
  deriving DecidableEq, Repr

namespace Keyword

/-- The canonical spelling. -/
def spelling : Keyword → String
  | rule => "SecRule"
  | action => "SecAction"
  | defaultAction => "SecDefaultAction"
  | marker => "SecMarker"
  | componentSignature => "SecComponentSignature"
  | ruleEngine => "SecRuleEngine"
  | auditEngine => "SecAuditEngine"
  | auditLogParts => "SecAuditLogParts"
  | requestBodyAccess => "SecRequestBodyAccess"
  | responseBodyAccess => "SecResponseBodyAccess"

/-- Every keyword, once. -/
def all : List Keyword :=
  [rule, action, defaultAction, marker, componentSignature, ruleEngine, auditEngine,
    auditLogParts, requestBodyAccess, responseBodyAccess]

theorem mem_all (keyword : Keyword) : keyword ∈ all := by
  cases keyword <;> decide

/-- The keyword of a spelling. -/
def ofName? (text : String) : Option Keyword := Text.keyword? spelling all text

/-- The least number of arguments. -/
def least : Keyword → Nat
  | rule => 2
  | _ => 1

/-- The greatest number of arguments. -/
def most : Keyword → Nat
  | rule => 3
  | _ => 1

end Keyword

/-- What a directive says. -/
inductive Body
  | rule (rule : Rule)
  /-- Actions that are taken without a condition. -/
  | action (actions : List (Positioned Action))
  /-- Actions that later rules of the same phase inherit. -/
  | defaultAction (actions : List (Positioned Action))
  | marker (name : String)
  | componentSignature (signature : String)
  | ruleEngine (mode : RuleEngineMode)
  | auditEngine (mode : AuditEngineMode)
  | auditLogParts (parts : List AuditLogPart)
  | requestBodyAccess (enabled : Bool)
  | responseBodyAccess (enabled : Bool)
  deriving DecidableEq, Repr

namespace Body

/-- The keyword of a directive. -/
def keyword : Body → Keyword
  | rule _ => .rule
  | action _ => .action
  | defaultAction _ => .defaultAction
  | marker _ => .marker
  | componentSignature _ => .componentSignature
  | ruleEngine _ => .ruleEngine
  | auditEngine _ => .auditEngine
  | auditLogParts _ => .auditLogParts
  | requestBodyAccess _ => .requestBodyAccess
  | responseBodyAccess _ => .responseBodyAccess

/-- The actions of a directive; only three directives have any. -/
def actions : Body → List (Positioned Action)
  | rule r => r.actions
  | action actions | defaultAction actions => actions
  | _ => []

/-- The rule, for a directive that is one. -/
def rule? : Body → Option Rule
  | rule r => some r
  | _ => none

end Body

end Directive

/-- A directive with the place of its keyword. -/
structure Directive where
  body : Directive.Body
  position : Position
  deriving DecidableEq, Repr

namespace Directive

/-- The keyword, in its canonical spelling. -/
def name (d : Directive) : String := d.body.keyword.spelling

/-- The actions of the directive. -/
def actions (d : Directive) : List (Positioned Action) := d.body.actions

/-- The id that the actions give. -/
def id (d : Directive) : Option Nat := actionsId d.actions

/-- The rule, for a directive that is one. -/
def rule? (d : Directive) : Option Rule := d.body.rule?

/-- A directive in a listing: its place and keyword. -/
def heading (d : Directive) : String := d.position.render ++ " " ++ d.name

end Directive

end WafRules
