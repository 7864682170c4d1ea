import WafRules.Directive

/-!
# Documents

A document is what a configuration text holds: comments and directives in order, under the
label of the text.

## Main Definitions

* `Comment`, `Item`, `Document` — the parts of a document.
* `Document.directives`, `Document.comments`, `Document.rules` — its parts by kind.
* `Document.findById?` — the directive with a given id.
-/

namespace WafRules

/-- A comment line; the text does not include the mark that opens it. -/
structure Comment where
  text : String
  position : Position
  deriving DecidableEq, Repr

/-- An entry of a document. -/
inductive Item
  | comment (c : Comment)
  | directive (d : Directive)
  deriving DecidableEq, Repr

namespace Item

/-- The directive, for an entry that is one. -/
def directive? : Item → Option Directive
  | comment _ => none
  | directive d => some d

/-- The comment, for an entry that is one. -/
def comment? : Item → Option Comment
  | comment c => some c
  | directive _ => none

end Item

/-- The entries of a configuration text. -/
structure Document where
  /-- The label of the text. -/
  name : String
  items : List Item
  deriving DecidableEq, Repr

namespace Document

/-- The directives in order. -/
def directives (d : Document) : List Directive := d.items.filterMap Item.directive?

/-- The comments in order. -/
def comments (d : Document) : List Comment := d.items.filterMap Item.comment?

/-- The rules in order. -/
def rules (d : Document) : List Rule := d.directives.filterMap Directive.rule?

/-- The first directive whose actions give the id. -/
def findById? (d : Document) (id : Nat) : Option Directive :=
  d.directives.find? fun directive => directive.id == some id

/-- The number of entries. -/
def length (d : Document) : Nat := d.items.length

/-- Whether the document has no entries. -/
def isEmpty (d : Document) : Bool := d.items.isEmpty

end Document

end WafRules
