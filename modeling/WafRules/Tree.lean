import WafRules.Document

/-!
# Trees

A document and its parts form a tree.  The tree of a document is an array of entries in
pre-order: an entry is followed by everything below it, and it knows its parent and its children
by their places in the array.

## Main Definitions

* `Node` — any part of a document, with its children in the order they are written.
* `Node.rank` — a measure that decreases from a node to its children.
* `Tree` — the entries of a document, with upward and downward navigation.
* `Tree.insert`, `Tree.ofDocument` — how the entries are put one behind the other.
-/

namespace WafRules

/-- A part of a document. -/
inductive Node
  | document (d : Document)
  | comment (c : Comment)
  | directive (d : Directive)
  | selectors (list : List Selector)
  | selector (s : Selector)
  | member (m : MemberPattern)
  | operator (o : Operator)
  | action (a : Positioned Action)
  | ctl (o : CtlOption)
  | string (s : ExpandableString)
  | part (p : StringPart)
  deriving DecidableEq, Repr

/-- An entry of a document as a node. -/
def Item.toNode : Item → Node
  | comment c => .comment c
  | directive d => .directive d

namespace Node

/-- The name of the kind of node. -/
def kind : Node → String
  | document _ => "Document"
  | comment _ => "Comment"
  | directive _ => "Directive"
  | selectors _ => "VariableList"
  | selector _ => "VariableSelector"
  | member _ => "CollectionSelector"
  | operator _ => "Operator"
  | action _ => "Action"
  | ctl _ => "CtlOption"
  | string _ => "ExpandableString"
  | part _ => "StringPart"

/-- The name of the node itself. -/
def label : Node → String
  | document d => d.name
  | comment _ => "comment"
  | directive d => d.name
  | selectors _ => "variables"
  | selector s => s.subject.name
  | member (.key _) => "key"
  | member (.regex _) => "regex"
  | operator o => o.kind.name
  | action a => a.node.name
  | ctl o => o.name
  | string _ => "string"
  | part (.literal _) => "literal"
  | part (.reference _) => "macro"

/-- The place of the node, for the kinds that have one. -/
def position? : Node → Option Position
  | comment c => some c.position
  | directive d => some d.position
  | selector s => some s.position
  | operator o => some o.position
  | action a => some a.position
  | document _ | selectors _ | member _ | ctl _ | string _ | part _ => none

/-- The directive, for a node that is one. -/
def directive? : Node → Option Directive
  | directive d => some d
  | _ => none

/-- The action, for a node that is one. -/
def action? : Node → Option (Positioned Action)
  | action a => some a
  | _ => none

/-- The parts of a directive. -/
def ofBody : Directive.Body → List Node
  | .rule r => [selectors r.selectors, operator r.operator] ++ r.actions.map action
  | .action actions | .defaultAction actions => actions.map action
  | _ => []

/-- The parts of an action. -/
def ofAction : Action → List Node
  | .ctl option => [ctl option]
  | a => a.strings.map string

/-- The parts of a node in the order they are written. -/
def children : Node → List Node
  | document d => d.items.map Item.toNode
  | directive d => ofBody d.body
  | selectors list => list.map selector
  | selector s => s.member.toList.map member
  | operator o => o.kind.argument.toList.map string
  | action a => ofAction a.node
  | ctl o => o.target.toList.map selector
  | string s => s.parts.map part
  | comment _ | member _ | part _ => []

/-- A measure that decreases from a node to its children. -/
def rank : Node → Nat
  | document _ => 6
  | directive _ => 5
  | action _ => 4
  | ctl _ | selectors _ => 3
  | operator _ | selector _ => 2
  | string _ => 1
  | comment _ | member _ | part _ => 0

theorem rank_lt_of_mem_children {child parent : Node} (mem : child ∈ parent.children) :
    child.rank < parent.rank := by
  cases parent with
  | document d =>
    obtain ⟨item, -, rfl⟩ := List.mem_map.1 mem
    cases item <;> simp [Item.toNode, rank]
  | directive d =>
    obtain ⟨body, position⟩ := d
    cases body <;>
      simp only [children, ofBody, List.mem_append, List.mem_cons, List.mem_map, List.not_mem_nil,
        or_false] at mem
    · rcases mem with (rfl | rfl) | ⟨a, -, rfl⟩ <;> simp [rank]
    · obtain ⟨a, -, rfl⟩ := mem
      simp [rank]
    · obtain ⟨a, -, rfl⟩ := mem
      simp [rank]
  | selectors list =>
    obtain ⟨s, -, rfl⟩ := List.mem_map.1 mem
    simp [rank]
  | selector s =>
    obtain ⟨m, -, rfl⟩ := List.mem_map.1 mem
    simp [rank]
  | operator o =>
    obtain ⟨s, -, rfl⟩ := List.mem_map.1 mem
    simp [rank]
  | action a =>
    simp only [children] at mem
    unfold ofAction at mem
    split at mem
    · simp only [List.mem_cons, List.not_mem_nil, or_false] at mem
      subst mem
      simp [rank]
    · obtain ⟨s, -, rfl⟩ := List.mem_map.1 mem
      simp [rank]
  | ctl o =>
    obtain ⟨s, -, rfl⟩ := List.mem_map.1 mem
    simp [rank]
  | string s =>
    obtain ⟨p, -, rfl⟩ := List.mem_map.1 mem
    simp [rank]
  | comment _ => simp [children] at mem
  | member _ => simp [children] at mem
  | part _ => simp [children] at mem

end Node

/-- An entry of a tree. -/
structure TreeEntry where
  node : Node
  /-- The place of the parent, which only the root lacks. -/
  parent : Option Nat
  /-- The places of the children. -/
  children : List Nat
  deriving DecidableEq, Repr

/-- The entry with one more child behind those it has. -/
def TreeEntry.addChild (entry : TreeEntry) (place : Nat) : TreeEntry :=
  { entry with children := entry.children ++ [place] }

/-- The parts of a document in pre-order. -/
structure Tree where
  entries : Array TreeEntry

namespace Tree

/-- Puts a node behind the entries there are, as yet without children, and each of its children
with everything below it behind that.  A child is written into the entry of the node when
everything below the child has been put. -/
def insert (t : Tree) (parent : Option Nat) (node : Node) : Tree :=
  let place := t.entries.size
  node.children.attach.foldl
    (fun filled child =>
      let childPlace := filled.entries.size
      ⟨(filled.insert (some place) child.1).entries.modify place (·.addChild childPlace)⟩)
    ⟨t.entries.push ⟨node, parent, []⟩⟩
termination_by node.rank
decreasing_by exact Node.rank_lt_of_mem_children child.2

/-- The tree of a document. -/
def ofDocument (d : Document) : Tree := insert ⟨#[]⟩ none (.document d)

/-- The place of the root. -/
def root : Nat := 0

/-- The number of nodes. -/
def size (t : Tree) : Nat := t.entries.size

/-- The node at a place. -/
def node? (t : Tree) (place : Nat) : Option Node := t.entries[place]?.map TreeEntry.node

/-- The place of the parent. -/
def parent? (t : Tree) (place : Nat) : Option Nat := t.entries[place]?.bind TreeEntry.parent

/-- The places of the children. -/
def children (t : Tree) (place : Nat) : List Nat :=
  (t.entries[place]?.map TreeEntry.children).getD []

/-- The places of the parent, its parent and so on up to the root.  A parent stands before its
children, so the places decrease. -/
def ancestors (t : Tree) (place : Nat) : List Nat :=
  match t.parent? place with
  | none => []
  | some parent => if parent < place then parent :: t.ancestors parent else []
termination_by place

/-- The directive that a node is or belongs to. -/
def enclosingDirective? (t : Tree) (place : Nat) : Option Directive :=
  (place :: t.ancestors place).findSome? fun p => (t.node? p).bind Node.directive?

/-- The actions with their places. -/
def actions (t : Tree) : List (Nat × Positioned Action) :=
  t.entries.toList.zipIdx.filterMap fun (entry, place) =>
    entry.node.action?.map fun action => (place, action)

end Tree

end WafRules
