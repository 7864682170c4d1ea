import WafRules.Position
import WafRules.Variable

/-!
# Selectors

A selector says which variable a rule inspects: the variable itself, some members of a
collection, the number of members, or what to leave out of the variables named so far.

## Main Definitions

* `SelectorMode` — what the selector contributes.
* `MemberPattern` — which members of a collection are meant.
* `Selector` — mode, variable and members.
* `Selector.render`, `Selector.renderList` — the written forms.
-/

namespace WafRules

/-- What a selector contributes to the inspected values. -/
inductive SelectorMode
  /-- The values themselves. -/
  | add
  /-- Nothing; the values are left out. -/
  | remove
  /-- The number of values. -/
  | count
  deriving DecidableEq, Repr

namespace SelectorMode

/-- The name of the mode. -/
def name : SelectorMode → String
  | add => "Add"
  | remove => "Remove"
  | count => "Count"

/-- The sign written before the variable. -/
def sign : SelectorMode → String
  | add => ""
  | remove => "!"
  | count => "&"

end SelectorMode

/-- Which members of a collection a selector means. -/
inductive MemberPattern
  /-- The member with the given name. -/
  | key (text : String)
  /-- The members whose name matches a regular expression. -/
  | regex (pattern : String)
  deriving DecidableEq, Repr

/-- The written form: a key as it is, a regular expression between slashes. -/
def MemberPattern.render : MemberPattern → String
  | key text => text
  | regex pattern => "/" ++ pattern ++ "/"

/-- What a rule inspects, or leaves out. -/
structure Selector where
  mode : SelectorMode
  subject : Variable
  member : Option MemberPattern
  position : Position
  deriving DecidableEq, Repr

namespace Selector

/-- The written form: sign, name, and the members after a colon. -/
def render (s : Selector) : String :=
  s.mode.sign ++ s.subject.name ++
    match s.member with
    | some member => ":" ++ member.render
    | none => ""

/-- The written form of a list, with bars between the selectors. -/
def renderList (selectors : List Selector) : String :=
  String.intercalate "|" (selectors.map render)

end Selector

end WafRules
