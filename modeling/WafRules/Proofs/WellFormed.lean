import WafRules.Document

/-!
# Well-formed documents

The types of a document are wider than what a configuration text can say.  A selector of no
members, a range from nine to two, a rule that inspects nothing: all of them can be built, and
whoever evaluates a rule relies on never meeting one.  This module says which documents are sound,
part by part; it looks at the parts alone and at no reader.

## Main Definitions

* `ExpandableString.WellFormed`, `ExpandableString.Filled` — strings whose literal text is neither
  empty nor split, and those that say something besides.
* `Selector.WellFormed`, `Operator.Kind.WellFormed`, `CtlOption.WellFormed`, `Action.WellFormed` —
  the parts of directives.
* `Document.WellFormed` — documents all of whose directives are sound.
-/

namespace WafRules

/-! ### Strings

Texts between references are joined when a string is built, so no two stand side by side, and none
is empty. -/

/-- A reference names a variable, and a collection if it has one. -/
structure MacroRef.WellFormed (m : MacroRef) : Prop where
  name_ne_empty : m.name ≠ ""
  collection_ne_empty : m.collection ≠ some ""

/-- Whether a piece is literal text. -/
def StringPart.IsLiteral : StringPart → Prop
  | literal _ => True
  | reference _ => False

/-- A piece is text that is not empty, or a reference with its names. -/
def StringPart.WellFormed : StringPart → Prop
  | literal text => text ≠ ""
  | reference m => m.WellFormed

/-- Whether no two pieces of literal text stand side by side. -/
def StringPart.Separated (parts : List StringPart) : Prop :=
  ∀ first second, [first, second] <:+: parts → ¬ (first.IsLiteral ∧ second.IsLiteral)

/-- Every piece of a string is sound, and literal text is in one piece. -/
structure ExpandableString.WellFormed (s : ExpandableString) : Prop where
  parts : ∀ part ∈ s.parts, part.WellFormed
  separated : StringPart.Separated s.parts

/-- A sound string of at least one piece. -/
structure ExpandableString.Filled (s : ExpandableString) : Prop extends s.WellFormed where
  parts_ne_nil : s.parts ≠ []

/-! ### Selectors

A variable with members is one of the collections; a key and a pattern have a text. -/

/-- A collection of the user has a name, which is no built-in one in whatever case. -/
def Variable.WellFormed : Variable → Prop
  | builtIn _ => True
  | user name => name ≠ "" ∧ ∀ v : BuiltIn, Text.foldCase v.name ≠ Text.foldCase name

/-- Members are picked by a key or a regular expression that is not empty. -/
def MemberPattern.WellFormed : MemberPattern → Prop
  | key text => text ≠ ""
  | regex pattern => pattern ≠ ""

/-- Only collections have members to pick. -/
structure Selector.WellFormed (s : Selector) : Prop where
  subject : s.subject.WellFormed
  member : ∀ pattern, s.member = some pattern →
    s.subject.isCollection = true ∧ pattern.WellFormed

/-! ### Operators

An argument that is read to a list has a member there, and one that is read to a string a part.
Texts that an operator takes as they are may be any. -/

/-- A range of byte values goes upwards. -/
structure ByteRange.WellFormed (r : ByteRange) : Prop where
  ordered : r.first ≤ r.last
  isByte : r.last ≤ 255

/-- An operator that takes a string or a list of items is never without one. -/
def Operator.Kind.WellFormed : Operator.Kind → Prop
  | compare _ argument => argument.Filled
  | addresses networks => networks ≠ []
  | byteRanges ranges => ranges ≠ [] ∧ ∀ r ∈ ranges, r.WellFormed
  | regex _ | phrases _ | phraseFiles _ | addressFile _ | blockList _ | detect _ => True

/-! ### Actions

Numbers lie within the bounds of their action.  The other conditions are about the texts that may
not be empty and, for control options, about the ranges and selectors inside. -/

/-- A range of ids goes upwards from one. -/
structure IdRange.WellFormed (r : IdRange) : Prop where
  positive : 1 ≤ r.first
  ordered : r.first ≤ r.last
  isId : r.last ≤ 4294967295

/-- The numbers that an action may be given. -/
def NumberAction.Admits : NumberAction → Nat → Prop
  | id, n | skip, n => 1 ≤ n ∧ n ≤ 4294967295
  | status, n => 100 ≤ n ∧ n ≤ 599
  | accuracy, n | maturity, n => n ≤ 9

/-- A variable of a collection has both names. -/
structure Member.WellFormed (m : Member) : Prop where
  collection : m.collection.Filled
  name : m.name.Filled

/-- An amount to add or to subtract is not empty; a value to set may be. -/
def VarChange.WellFormed (change : VarChange) : Prop :=
  match change.operation with
  | .set => ∀ value ∈ change.modifier, value.WellFormed
  | .add | .subtract => ∀ amount ∈ change.modifier, amount.Filled
  | .setToOne | .delete => True

/-- A change has a value or an amount exactly if it sets, adds or subtracts one. -/
structure SetVar.WellFormed (s : SetVar) : Prop where
  member : s.member.WellFormed
  change : s.change.WellFormed
  modifier : s.change.modifier.isSome ↔ s.change.name ∈ ["Set", "Add", "Subtract"]

/-- A variable that expires has both names and a time. -/
structure ExpireVar.WellFormed (e : ExpireVar) : Prop where
  member : e.member.WellFormed
  seconds : e.seconds.Filled

/-- A collection that is created has a name and a key. -/
structure InitCol.WellFormed (i : InitCol) : Prop where
  collection_ne_empty : i.collection ≠ ""
  key : i.key.Filled

/-- An option names what it changes: parts of the audit log, rules by id or tag, a target. -/
def CtlOption.WellFormed : CtlOption → Prop
  | auditLogParts _ parts => parts ≠ []
  | ruleRemoveById ids => ids.WellFormed
  | ruleRemoveByTag tag => tag ≠ ""
  | ruleRemoveTargetById ids target => ids.WellFormed ∧ target.WellFormed
  | ruleRemoveTargetByTag tag target => tag ≠ "" ∧ target.WellFormed
  | auditEngine _ | forceRequestBodyVariable _ | requestBodyAccess _ | requestBodyProcessor _
  | ruleEngine _ => True

/-- The value of an action is one that the action takes. -/
def Action.WellFormed : Action → Prop
  | text _ value => value.WellFormed
  | number which n => which.Admits n
  | phase n => 1 ≤ n ∧ n ≤ 5
  | setVar value => value.WellFormed
  | expireVar value => value.WellFormed
  | initCol value => value.WellFormed
  | ctl option => option.WellFormed
  | flag _ | label _ _ | severity _ | transform _ => True

/-! ### Documents

A document is sound when all of its directives are, whether it is a whole one or a partial one. -/

/-- A rule inspects something, and all its parts are sound. -/
structure Rule.WellFormed (r : Rule) : Prop where
  selectors_ne_nil : r.selectors ≠ []
  selectors : ∀ s ∈ r.selectors, s.WellFormed
  operator : r.operator.kind.WellFormed
  actions : ∀ a ∈ r.actions, a.node.WellFormed

/-- The parts of a directive are sound. -/
def Directive.Body.WellFormed : Directive.Body → Prop
  | rule r => r.WellFormed
  | action actions | defaultAction actions => ∀ a ∈ actions, a.node.WellFormed
  | auditLogParts parts => parts ≠ []
  | marker _ | componentSignature _ | ruleEngine _ | auditEngine _ | requestBodyAccess _
  | responseBodyAccess _ => True

/-- Every directive of a document is sound. -/
def Document.WellFormed (document : Document) : Prop :=
  ∀ directive ∈ document.directives, directive.body.WellFormed

end WafRules
