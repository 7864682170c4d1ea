import WafRules.Tree
import Mathlib.Logic.Relation
import Mathlib.Algebra.BigOperators.Group.List.Basic
import Mathlib.Algebra.GroupWithZero.Nat

/-!
# The tree of a document

The entries of a tree are put one at a time, and the list of children of an entry grows while the
entries below it are put.  What comes out is described without that history: `Node.layout` lists
the entries of a subtree that starts at a given place, where the places of children follow from
the sizes of the children before them, and putting a node appends its layout.

An entry of the tree of a document is then one that `Tree.Occurs` at a place: the document at the
root, or a child of a node that occurs, at the place its size gives it.  Every statement about
parents, children, descendants and ancestors is read off the two ways in which a node can occur.

A node contains its children, but the tree type does not say so to an induction on nodes, because
children are computed from a document's parts.  Recursion and induction are therefore on the rank of
a node (`Node.childInduction`), and each function that goes down the tree has an equation without
that rank.

## Main Definitions

* `Node.preorder`, `Node.size` — the nodes of a subtree, in order, and how many they are.
* `Node.layout` — the entries of a subtree.
* `Tree.Occurs` — a node at a place of the tree of a document.
* `Tree.Below` — the places below a place.
* `Tree.Represents` — what makes a tree the tree of a document.

## Main Statements

* `Tree.toList_entries_insert` — putting a node appends its layout.
* `Tree.map_node_ofDocument` — the tree of a document holds its nodes in pre-order.
* `Tree.ofDocument_represents` — the tree of a document represents it.
-/

namespace WafRules

namespace Node

/-- What holds of a node as soon as it holds of its children holds of every node. -/
theorem childInduction {motive : Node → Prop}
    (step : ∀ node, (∀ child ∈ node.children, motive child) → motive node) (node : Node) :
    motive node :=
  step node fun child _ => childInduction step child
termination_by node.rank
decreasing_by exact rank_lt_of_mem_children ‹_›

/-- The nodes of a subtree: the node, then the nodes below each of its children. -/
def preorder (node : Node) : List Node :=
  node :: node.children.attach.flatMap fun child => preorder child.1
termination_by node.rank
decreasing_by exact rank_lt_of_mem_children child.2

/-- The number of nodes of a subtree. -/
def size (node : Node) : Nat := node.preorder.length

/-- The equation of `preorder` without the proof that children have a smaller rank. -/
theorem preorder_eq (node : Node) : node.preorder = node :: node.children.flatMap preorder := by
  rw [preorder]
  simp

/-- The **size** of a subtree, from those of the children. -/
theorem size_eq (node : Node) : node.size = 1 + (node.children.map size).sum := by
  rw [size, preorder_eq, List.length_cons, List.length_flatMap]
  exact Nat.add_comm _ _

/-- A subtree holds the node itself, so it is **never empty**. -/
theorem size_pos (node : Node) : 0 < node.size := by
  rw [size_eq]
  omega

/-- Nodes whose subtrees follow each other from a place on, with their places. -/
def placed (first : Nat) : List Node → List (Node × Nat)
  | [] => []
  | node :: nodes => (node, first) :: placed (first + node.size) nodes

/-- Placing nodes changes neither them nor their order. -/
@[simp] theorem map_fst_placed (first : Nat) (nodes : List Node) :
    (placed first nodes).map Prod.fst = nodes := by
  induction nodes generalizing first with
  | nil => rfl
  | cons node nodes ih => simp [placed, ih]

/-- Subtrees that follow each other stay between their start and the sum of their sizes. -/
theorem bounds_of_mem_placed {first place : Nat} {nodes : List Node} {node : Node}
    (mem : (node, place) ∈ placed first nodes) :
    first ≤ place ∧ place + node.size ≤ first + (nodes.map size).sum := by
  induction nodes generalizing first with
  | nil => simp [placed] at mem
  | cons head nodes ih =>
    simp only [placed, List.mem_cons, Prod.mk.injEq] at mem
    simp only [List.map_cons, List.sum_cons]
    rcases mem with ⟨rfl, rfl⟩ | mem
    · omega
    · have := ih mem
      omega

/-- Subtrees that follow each other leave no place out. -/
theorem exists_mem_placed {first place : Nat} {nodes : List Node} (lower : first ≤ place)
    (upper : place < first + (nodes.map size).sum) :
    ∃ node start, (node, start) ∈ placed first nodes ∧ start ≤ place ∧
      place < start + node.size := by
  induction nodes generalizing first with
  | nil =>
    simp only [List.map_nil, List.sum_nil] at upper
    omega
  | cons head nodes ih =>
    simp only [List.map_cons, List.sum_cons] at upper
    by_cases inHead : place < first + head.size
    · exact ⟨head, first, by simp [placed], lower, inHead⟩
    · have upper : place < first + head.size + (nodes.map size).sum := by omega
      obtain ⟨node, start, mem, within⟩ := ih (by omega) upper
      exact ⟨node, start, by simp [placed, mem], within⟩

/-- No two subtrees that follow each other start at one place. -/
theorem nodup_places (first : Nat) (nodes : List Node) :
    ((placed first nodes).map Prod.snd).Nodup := by
  induction nodes generalizing first with
  | nil => simp [placed]
  | cons node nodes ih =>
    simp only [placed, List.map_cons, List.nodup_cons, List.mem_map, Prod.exists,
      exists_eq_right]
    refine ⟨?_, ih _⟩
    rintro ⟨other, mem⟩
    have := (bounds_of_mem_placed mem).1
    have := node.size_pos
    omega

/-- The children of a node that stands at a place, with their places. -/
def placedChildren (place : Nat) (node : Node) : List (Node × Nat) :=
  placed (place + 1) node.children

/-- A **placed child** is a child. -/
theorem mem_children_of_mem_placed {place start : Nat} {node child : Node}
    (mem : (child, start) ∈ node.placedChildren place) : child ∈ node.children := by
  rw [← map_fst_placed (place + 1) node.children]
  exact List.mem_map_of_mem mem

/-- The subtree of a child lies within that of its parent. -/
theorem bounds_of_mem_placedChildren {place start : Nat} {node child : Node}
    (mem : (child, start) ∈ node.placedChildren place) :
    place < start ∧ start + child.size ≤ place + node.size := by
  have := bounds_of_mem_placed mem
  rw [size_eq node]
  omega

/-- A place of a subtree is that of its root or belongs to the subtree of a child. -/
theorem exists_mem_placedChildren {place other : Nat} {node : Node} (lower : place < other)
    (upper : other < place + node.size) :
    ∃ child start, (child, start) ∈ node.placedChildren place ∧ start ≤ other ∧
      other < start + child.size := by
  rw [size_eq] at upper
  exact exists_mem_placed lower (by omega)

/-- The entries of a subtree whose root has the given parent and place. -/
def layout (parent : Option Nat) (place : Nat) (node : Node) : List TreeEntry :=
  ⟨node, parent, (node.placedChildren place).map Prod.snd⟩ ::
    (node.placedChildren place).attach.flatMap fun child =>
      layout (some place) child.1.2 child.1.1
termination_by node.rank
decreasing_by exact rank_lt_of_mem_children (mem_children_of_mem_placed child.2)

/-- The equation of `layout` without the proof that children have a smaller rank. -/
theorem layout_eq (parent : Option Nat) (place : Nat) (node : Node) :
    node.layout parent place = ⟨node, parent, (node.placedChildren place).map Prod.snd⟩ ::
      (node.placedChildren place).flatMap fun child => child.1.layout (some place) child.2 := by
  rw [layout, List.cons.injEq]
  refine ⟨rfl, ?_⟩
  conv => rhs; rw [← List.attach_map_subtype_val (node.placedChildren place), List.flatMap_map]

/-- **The entries of a subtree hold its nodes in pre-order.** -/
theorem map_node_layout (parent : Option Nat) (place : Nat) (node : Node) :
    (node.layout parent place).map TreeEntry.node = node.preorder := by
  induction node using childInduction generalizing parent place with
  | step node ih =>
    have below : (node.placedChildren place).flatMap
          (fun child => (child.1.layout (some place) child.2).map TreeEntry.node) =
        node.children.flatMap preorder := by
      conv => rhs; rw [← map_fst_placed (place + 1) node.children, List.flatMap_map]
      exact List.flatMap_congr fun child mem => ih child.1 (mem_children_of_mem_placed mem) _ _
    rw [layout_eq, preorder_eq, List.map_cons, List.map_flatMap, below]

/-- A layout has **an entry for each node** of the subtree. -/
theorem length_layout (parent : Option Nat) (place : Nat) (node : Node) :
    (node.layout parent place).length = node.size := by
  rw [size, ← map_node_layout parent place node, List.length_map]

/-- The layouts of subtrees that follow each other hold each of them at its place. -/
theorem exists_append_layouts {first start : Nat} {parent : Option Nat} {nodes : List Node}
    {node : Node} (mem : (node, start) ∈ placed first nodes) :
    ∃ before after,
      (placed first nodes).flatMap (fun child => child.1.layout parent child.2) =
        before ++ node.layout parent start ++ after ∧ first + before.length = start := by
  induction nodes generalizing first with
  | nil => simp [placed] at mem
  | cons head nodes ih =>
    simp only [placed, List.mem_cons, Prod.mk.injEq] at mem
    rcases mem with ⟨rfl, rfl⟩ | mem
    · rw [placed, List.flatMap_cons]
      exact ⟨[], _, rfl, rfl⟩
    · obtain ⟨before, after, split, rfl⟩ := ih mem
      refine ⟨head.layout parent first ++ before, after, by simp [placed, split], ?_⟩
      rw [List.length_append, length_layout]
      omega

/-- The layout of a node holds that of each of its children. -/
theorem exists_append_layout {place start : Nat} {node child : Node} (parent : Option Nat)
    (mem : (child, start) ∈ node.placedChildren place) :
    ∃ before after, node.layout parent place =
      before ++ child.layout (some place) start ++ after ∧ place + before.length = start := by
  obtain ⟨before, after, split, rfl⟩ := exists_append_layouts mem
  refine ⟨⟨node, parent, (node.placedChildren place).map Prod.snd⟩ :: before, after, ?_, ?_⟩
  · rw [layout_eq, placedChildren, split]
    rfl
  · rw [List.length_cons]
    omega

end Node

namespace Tree

/-- Puts a child of the node at a place. -/
def insertChild (place : Nat) (t : Tree) (child : Node) : Tree :=
  ⟨(t.insert (some place) child).entries.modify place (·.addChild t.entries.size)⟩

/-- Putting a node puts its entry **without children**, and then each of the children. -/
theorem insert_eq (t : Tree) (parent : Option Nat) (node : Node) :
    t.insert parent node =
      node.children.foldl (insertChild t.entries.size)
        ⟨t.entries.push ⟨node, parent, []⟩⟩ := by
  rw [insert]
  conv => rhs; rw [← List.attach_map_subtype_val node.children, List.foldl_map]
  rfl

/-- An entry grows in place when a child is added to it. -/
theorem modify_addChild (before after : List TreeEntry) (entry : TreeEntry) (place : Nat) :
    (before ++ entry :: after).modify before.length (·.addChild place) =
      before ++ entry.addChild place :: after := by
  rw [List.modify_eq_take_cons_drop (by simp)]
  simp

/-- **The children of a node, put one after the other.**  The entry of the node collects the
places of the children, and their layouts follow what stands behind it. -/
theorem toList_foldl_insertChild {nodes : List Node}
    (appends : ∀ node ∈ nodes, ∀ (t : Tree) (parent : Option Nat),
      (t.insert parent node).entries.toList =
        t.entries.toList ++ node.layout parent t.entries.size)
    {t : Tree} {before after : List TreeEntry} {entry : TreeEntry}
    (stands : t.entries.toList = before ++ entry :: after) :
    (nodes.foldl (insertChild before.length) t).entries.toList =
      before ++
        { entry with
          children := entry.children ++ (Node.placed t.entries.size nodes).map Prod.snd } ::
        (after ++ (Node.placed t.entries.size nodes).flatMap fun child =>
          child.1.layout (some before.length) child.2) := by
  induction nodes generalizing t after entry with
  | nil => simp [Node.placed, stands]
  | cons node nodes ih =>
    have grown : (insertChild before.length t node).entries.toList =
        before ++ entry.addChild t.entries.size ::
          (after ++ node.layout (some before.length) t.entries.size) := by
      rw [insertChild, Array.toList_modify, appends node List.mem_cons_self, stands,
        List.append_assoc, List.cons_append, modify_addChild]
    have size : (insertChild before.length t node).entries.size = t.entries.size + node.size := by
      rw [insertChild, Array.size_modify, ← Array.length_toList, appends node List.mem_cons_self,
        List.length_append, Node.length_layout, Array.length_toList]
    rw [List.foldl_cons, ih (fun child mem => appends child (List.mem_cons_of_mem _ mem)) grown,
      size]
    simp [Node.placed, TreeEntry.addChild]

/-- **Putting a node appends its layout.** -/
theorem toList_entries_insert (t : Tree) (parent : Option Nat) (node : Node) :
    (t.insert parent node).entries.toList =
      t.entries.toList ++ node.layout parent t.entries.size := by
  induction node using Node.childInduction generalizing t parent with
  | step node ih =>
    have pushed : (t.entries.push ⟨node, parent, []⟩).toList =
        t.entries.toList ++ [⟨node, parent, []⟩] := Array.toList_push
    have put := toList_foldl_insertChild
      (fun child mem t parent => ih child mem t parent)
      (t := ⟨t.entries.push ⟨node, parent, []⟩⟩) pushed
    rw [Array.length_toList] at put
    rw [insert_eq, put, Node.layout_eq]
    simp [Node.placedChildren]

/-- The tree of a document is the **layout of the document** from the root on. -/
theorem toList_entries_ofDocument (d : Document) :
    (ofDocument d).entries.toList = (Node.document d).layout none root := by
  rw [ofDocument, toList_entries_insert]
  rfl

/-- **The tree of a document holds its nodes in pre-order.** -/
theorem map_node_ofDocument (d : Document) :
    (ofDocument d).entries.toList.map TreeEntry.node = (Node.document d).preorder := by
  rw [toList_entries_ofDocument, Node.map_node_layout]

/-- The tree of a document has a place **for each node** of it. -/
theorem size_ofDocument (d : Document) : (ofDocument d).size = (Node.document d).size := by
  rw [size, ← Array.length_toList, toList_entries_ofDocument, Node.length_layout]

/-! ### Occurrences

What the tree holds at a place is said in two rules that follow the document: the root, and a child
of what occurs.  Looking up a place and occurring at it are the same, and from here on the tree is
only spoken of in terms of what occurs. -/

/-- A node that is part of a document, at a place and under a parent: the document itself, or a
child of such a node. -/
inductive Occurs (d : Document) : Nat → Option Nat → Node → Prop
  | root : Occurs d Tree.root none (.document d)
  | child {place start : Nat} {parent : Option Nat} {node child : Node} :
      Occurs d place parent node → (child, start) ∈ node.placedChildren place →
        Occurs d start (some place) child

/-- What occurs has its layout in the tree. -/
theorem Occurs.exists_append {d : Document} {place : Nat} {parent : Option Nat} {node : Node}
    (occurs : Occurs d place parent node) :
    ∃ before after, (ofDocument d).entries.toList =
      before ++ node.layout parent place ++ after ∧ before.length = place := by
  induction occurs with
  | root => exact ⟨[], [], by simp [toList_entries_ofDocument], rfl⟩
  | @child place start parent node child occurs mem ih =>
    obtain ⟨before, after, whole, rfl⟩ := ih
    obtain ⟨left, right, split, rfl⟩ := Node.exists_append_layout parent mem
    refine ⟨before ++ left, right ++ after, ?_, List.length_append⟩
    simp [whole, split]

/-- **The entry of a node that occurs.** -/
theorem Occurs.entry {d : Document} {place : Nat} {parent : Option Nat} {node : Node}
    (occurs : Occurs d place parent node) :
    (ofDocument d).entries[place]? =
      some ⟨node, parent, (node.placedChildren place).map Prod.snd⟩ := by
  obtain ⟨before, after, whole, rfl⟩ := occurs.exists_append
  rw [← Array.getElem?_toList, whole, Node.layout_eq]
  simp

/-- What occurs fills the places of its subtree with what occurs. -/
theorem Occurs.exists_occurs {d : Document} {place other : Nat} {parent : Option Nat}
    {node : Node} (occurs : Occurs d place parent node) (lower : place ≤ other)
    (upper : other < place + node.size) :
    ∃ parent' node', Occurs d other parent' node' := by
  induction node using Node.childInduction generalizing place parent with
  | step node ih =>
    rcases Nat.eq_or_lt_of_le lower with rfl | below
    · exact ⟨parent, node, occurs⟩
    · obtain ⟨child, start, mem, within⟩ := Node.exists_mem_placedChildren below upper
      exact ih child (Node.mem_children_of_mem_placed mem) (occurs.child mem) within.1 within.2

/-- **Every place of the tree is that of a node that occurs.** -/
theorem exists_occurs {d : Document} {place : Nat} (within : place < (ofDocument d).size) :
    ∃ parent node, Occurs d place parent node := by
  rw [size_ofDocument] at within
  exact Occurs.root.exists_occurs (Nat.zero_le _) (by rw [root]; omega)

section Lookup

variable {d : Document} {place other : Nat} {parent : Option Nat} {node : Node}

/-- The **node** at the place of one that occurs. -/
theorem Occurs.node? (occurs : Occurs d place parent node) :
    (ofDocument d).node? place = some node := by
  rw [Tree.node?, occurs.entry, Option.map_some]

/-- The **parent** at the place of one that occurs. -/
theorem Occurs.parent? (occurs : Occurs d place parent node) :
    (ofDocument d).parent? place = parent := by
  rw [Tree.parent?, occurs.entry, Option.bind_some]

/-- The **children** at the place of one that occurs. -/
theorem Occurs.children (occurs : Occurs d place parent node) :
    (ofDocument d).children place = (node.placedChildren place).map Prod.snd := by
  rw [Tree.children, occurs.entry]
  rfl

/-- A tree has a node **at every place before its size**, and at no other. -/
theorem isSome_node?_iff {t : Tree} : (t.node? place).isSome ↔ place < t.size := by
  simp [Tree.node?, size]

/-- The node at a place **is one that occurs there**, under some parent. -/
theorem node?_eq_some_iff :
    (ofDocument d).node? place = some node ↔ ∃ parent, Occurs d place parent node := by
  constructor
  · intro found
    have within : place < (ofDocument d).size := isSome_node?_iff.1 (by rw [found]; rfl)
    obtain ⟨parent, other, occurs⟩ := exists_occurs within
    obtain rfl : other = node := Option.some.inj (occurs.node?.symm.trans found)
    exact ⟨parent, occurs⟩
  · rintro ⟨parent, occurs⟩
    exact occurs.node?

/-- Nothing is recorded for a place behind the last. -/
theorem getElem?_entries_eq_none {t : Tree} (beyond : t.size ≤ place) :
    t.entries[place]? = none :=
  Array.getElem?_eq_none beyond

/-- A place that lists a child is that of a node with this child. -/
theorem exists_of_mem_children (mem : other ∈ (ofDocument d).children place) :
    ∃ parent node child, Occurs d place parent node ∧
      (child, other) ∈ node.placedChildren place := by
  have within : place < (ofDocument d).size := by
    by_contra beyond
    rw [Tree.children, getElem?_entries_eq_none (Nat.le_of_not_lt beyond)] at mem
    exact List.not_mem_nil mem
  obtain ⟨parent, node, occurs⟩ := exists_occurs within
  rw [occurs.children] at mem
  obtain ⟨⟨child, start⟩, placed, rfl⟩ := List.mem_map.1 mem
  exact ⟨parent, node, child, occurs, placed⟩

/-- A place that has a parent is that of a child of the node there. -/
theorem exists_of_parent? (found : (ofDocument d).parent? other = some place) :
    ∃ parent node child, Occurs d place parent node ∧
      (child, other) ∈ node.placedChildren place := by
  have within : other < (ofDocument d).size := by
    by_contra beyond
    rw [Tree.parent?, getElem?_entries_eq_none (Nat.le_of_not_lt beyond)] at found
    cases found
  obtain ⟨parent, child, occurs⟩ := exists_occurs within
  obtain rfl : parent = some place := occurs.parent?.symm.trans found
  cases occurs with
  | child above placed => exact ⟨_, _, _, above, placed⟩

/-- **A place lists the children whose parent it is.** -/
theorem mem_children_iff :
    other ∈ (ofDocument d).children place ↔ (ofDocument d).parent? other = some place := by
  constructor
  · intro mem
    obtain ⟨parent, node, child, occurs, placed⟩ := exists_of_mem_children mem
    exact (occurs.child placed).parent?
  · intro found
    obtain ⟨parent, node, child, occurs, placed⟩ := exists_of_parent? found
    rw [occurs.children]
    exact List.mem_map_of_mem placed

/-- A parent stands before its children. -/
theorem lt_of_parent? (found : (ofDocument d).parent? other = some place) : place < other := by
  obtain ⟨parent, node, child, -, placed⟩ := exists_of_parent? found
  exact (Node.bounds_of_mem_placedChildren placed).1

/-- Only the root has no parent. -/
theorem parent?_eq_none_iff (within : place < (ofDocument d).size) :
    (ofDocument d).parent? place = none ↔ place = root := by
  obtain ⟨parent, node, occurs⟩ := exists_occurs within
  rw [occurs.parent?]
  constructor
  · rintro rfl
    cases occurs
    rfl
  · rintro rfl
    cases occurs with
    | root => rfl
    | child above placed =>
      exact absurd (Node.bounds_of_mem_placedChildren placed).1 (Nat.not_lt_zero _)

/-- Every place behind the root **has a parent**. -/
theorem exists_parent? (below : root < place) (within : place < (ofDocument d).size) :
    ∃ parent, (ofDocument d).parent? place = some parent :=
  Option.ne_none_iff_exists'.1 fun none =>
    Nat.ne_of_gt below ((parent?_eq_none_iff within).1 none)

/-- A place lists no child twice. -/
theorem nodup_children : ((ofDocument d).children place).Nodup := by
  by_cases within : place < (ofDocument d).size
  · obtain ⟨parent, node, occurs⟩ := exists_occurs within
    rw [occurs.children]
    exact Node.nodup_places _ _
  · rw [Tree.children, getElem?_entries_eq_none (Nat.le_of_not_lt within)]
    exact List.nodup_nil

/-- The children of a place are those of its node. -/
theorem Occurs.map_node?_children (occurs : Occurs d place parent node) :
    ((ofDocument d).children place).map (ofDocument d).node? = node.children.map some := by
  rw [occurs.children, ← Node.map_fst_placed (place + 1) node.children, List.map_map,
    List.map_map]
  apply List.map_congr_left
  intro child placed
  exact (occurs.child placed).node?

end Lookup

/-! ### Descendants

The places below a node form an interval that begins behind it, because a child has its subtree
within that of its parent. -/

/-- A place is below another when it is reached from it by children. -/
def Below (t : Tree) : Nat → Nat → Prop :=
  Relation.TransGen fun place child => child ∈ t.children place

/-- What is below a node has its whole subtree within that of the node. -/
theorem Occurs.exists_of_below {d : Document} {place other : Nat} {parent : Option Nat}
    {node : Node} (occurs : Occurs d place parent node) (below : (ofDocument d).Below place other) :
    ∃ parent' node', Occurs d other parent' node' ∧ place < other ∧
      other + node'.size ≤ place + node.size := by
  have step {place start : Nat} {parent : Option Nat} {node : Node}
      (occurs : Occurs d place parent node) (mem : start ∈ (ofDocument d).children place) :
      ∃ parent' child, Occurs d start parent' child ∧ place < start ∧
        start + child.size ≤ place + node.size := by
    rw [occurs.children] at mem
    obtain ⟨⟨child, start⟩, placed, rfl⟩ := List.mem_map.1 mem
    exact ⟨_, child, occurs.child placed, Node.bounds_of_mem_placedChildren placed⟩
  induction below with
  | single mem => exact step occurs mem
  | tail _ mem ih =>
    obtain ⟨parent', node', inner, later, within⟩ := ih
    obtain ⟨parent'', child, innermost, later', within'⟩ := step inner mem
    exact ⟨parent'', child, innermost, by omega, by omega⟩

/-- **The places below a node are those of its subtree, and follow it directly.** -/
theorem Occurs.below_iff {d : Document} {place : Nat} {parent : Option Nat} {node : Node}
    (occurs : Occurs d place parent node) (other : Nat) :
    (ofDocument d).Below place other ↔ place < other ∧ other < place + node.size := by
  constructor
  · intro below
    obtain ⟨_, node', -, later, within⟩ := occurs.exists_of_below below
    have := node'.size_pos
    omega
  · rintro ⟨later, within⟩
    induction node using Node.childInduction generalizing place parent with
    | step node ih =>
      obtain ⟨child, start, placed, reached, inside⟩ :=
        Node.exists_mem_placedChildren later within
      have mem : start ∈ (ofDocument d).children place := by
        rw [occurs.children]
        exact List.mem_map_of_mem placed
      rcases Nat.eq_or_lt_of_le reached with rfl | beyond
      · exact .single mem
      · exact .head mem (ih child (Node.mem_children_of_mem_placed placed) (occurs.child placed)
          beyond inside)

/-! ### Ancestors

The walk from a place to its parent always goes to a smaller place, so it ends, and it ends at the
root, which alone has no parent. -/

section Ancestors

variable {d : Document} {place : Nat}

/-- The walk up the tree **ends** at a place without parent. -/
theorem ancestors_of_parent?_eq_none {t : Tree} (none : t.parent? place = none) :
    t.ancestors place = [] := by
  rw [ancestors, none]

/-- The walk up the tree never meets a parent that stands behind its child. -/
theorem ancestors_of_parent?_eq_some {parent : Nat}
    (found : (ofDocument d).parent? place = some parent) :
    (ofDocument d).ancestors place = parent :: (ofDocument d).ancestors parent := by
  rw [ancestors, found]
  exact if_pos (lt_of_parent? found)

/-- **The walk up the tree goes from the parent to the parent of the parent.** -/
theorem ancestors_eq (d : Document) (place : Nat) :
    (ofDocument d).ancestors place =
      ((ofDocument d).parent? place).elim []
        fun parent => parent :: (ofDocument d).ancestors parent := by
  cases found : (ofDocument d).parent? place with
  | none => exact ancestors_of_parent?_eq_none found
  | some parent => exact ancestors_of_parent?_eq_some found

/-- Each place of the walk up the tree stands before the one it came from. -/
theorem isChain_ancestors (d : Document) (place : Nat) :
    (place :: (ofDocument d).ancestors place).IsChain (· > ·) := by
  induction place using Nat.strongRecOn with
  | ind place ih =>
    cases found : (ofDocument d).parent? place with
    | none =>
      rw [ancestors_of_parent?_eq_none found]
      exact .singleton _
    | some parent =>
      have before : parent < place := lt_of_parent? found
      rw [ancestors_of_parent?_eq_some found]
      exact .cons_cons before (ih parent before)

/-- The walk up the tree ends at the root. -/
theorem getLast?_ancestors (below : root < place) (within : place < (ofDocument d).size) :
    ((ofDocument d).ancestors place).getLast? = some root := by
  induction place using Nat.strongRecOn with
  | ind place ih =>
    obtain ⟨parent, found⟩ := exists_parent? below within
    have before : parent < place := lt_of_parent? found
    rw [ancestors_of_parent?_eq_some found]
    rcases Nat.eq_zero_or_pos parent with rfl | inner
    · have top : (ofDocument d).parent? 0 = none :=
        (parent?_eq_none_iff (Nat.lt_trans below within)).2 rfl
      rw [ancestors_of_parent?_eq_none top]
      rfl
    · rw [List.getLast?_cons, ih parent before inner (Nat.lt_trans before within)]
      rfl

end Ancestors

/-! ### The whole tree

The lookups of a tree agree with each other and with the document: every node has one place, every
place but the first has one parent, and what is below a place is what can be reached from it. -/

/-- **What makes a tree the tree of a document.** -/
structure Represents (t : Tree) (d : Document) : Prop where
  /-- The root is the document. -/
  root : t.node? Tree.root = some (.document d)
  /-- The places of the tree are those before its size. -/
  isSome_node?_iff : ∀ place, (t.node? place).isSome ↔ place < t.size
  /-- The root is the only place without parent. -/
  parent?_eq_none_iff : ∀ place < t.size, t.parent? place = none ↔ place = Tree.root
  /-- The nodes at the children of a place are the children of the node there, in order. -/
  map_node?_children : ∀ place node, t.node? place = some node →
    (t.children place).map t.node? = node.children.map some
  /-- Every other place is listed once by one place, which is its parent and stands before it. -/
  exists_parent : ∀ place < t.size, place ≠ Tree.root →
    ∃ parent < place, t.parent? place = some parent ∧
      ∀ other, (t.children other).count place = if other = parent then 1 else 0
  /-- The places below a place follow it, as many as its subtree has nodes besides the root. -/
  below_iff : ∀ place node, t.node? place = some node →
    ∀ other, t.Below place other ↔ place < other ∧ other < place + node.size
  /-- The tree has as many places as the document has nodes. -/
  size_eq : t.size = (Node.document d).size
  /-- Every place is the root or below it. -/
  reachable : ∀ place, place < t.size ↔ place = Tree.root ∨ t.Below Tree.root place
  /-- The ancestors of a place are its parent and the ancestors of its parent. -/
  ancestors_eq : ∀ place, t.ancestors place =
    (t.parent? place).elim [] fun parent => parent :: t.ancestors parent
  /-- The way up the tree is strictly decreasing. -/
  pairwise_ancestors : ∀ place, (place :: t.ancestors place).Pairwise (· > ·)
  /-- The way up the tree ends at the root. -/
  getLast?_ancestors : ∀ place < t.size, place ≠ Tree.root →
    (t.ancestors place).getLast? = some Tree.root
  /-- Nothing is found at other places. -/
  beyond : ∀ place, t.size ≤ place → t.node? place = none ∧ t.parent? place = none ∧
    t.children place = [] ∧ t.ancestors place = [] ∧ t.enclosingDirective? place = none

/-- **The tree of a document represents it**, whatever the document.  The entries of the tree are
the preorder of its nodes, laid out from a place on, and every lookup is answered from where a node
occurs in that layout. -/
theorem ofDocument_represents (d : Document) : (ofDocument d).Represents d := by
  have positive : Tree.root < (ofDocument d).size := by
    rw [size_ofDocument]
    exact Node.size_pos _
  refine
    { root := Occurs.root.node?
      isSome_node?_iff := fun place => isSome_node?_iff
      parent?_eq_none_iff := fun place within => parent?_eq_none_iff within
      map_node?_children := ?nodes
      exists_parent := ?parents
      below_iff := ?descendants
      size_eq := size_ofDocument d
      reachable := ?reached
      ancestors_eq := ancestors_eq d
      pairwise_ancestors := fun place => List.isChain_iff_pairwise.1 (isChain_ancestors d place)
      getLast?_ancestors := fun place within inner =>
        getLast?_ancestors (Nat.pos_of_ne_zero inner) within
      beyond := ?others }
  case nodes =>
    intro place node found
    obtain ⟨parent, occurs⟩ := node?_eq_some_iff.1 found
    exact occurs.map_node?_children
  case parents =>
    intro place within inner
    obtain ⟨parent, found⟩ := exists_parent? (Nat.pos_of_ne_zero inner) within
    refine ⟨parent, lt_of_parent? found, found, fun other => ?_⟩
    have listed : place ∈ (ofDocument d).children other ↔ other = parent := by
      rw [mem_children_iff, found, Option.some_inj, eq_comm]
    simp only [nodup_children.count, listed]
  case descendants =>
    intro place node found
    obtain ⟨parent, occurs⟩ := node?_eq_some_iff.1 found
    exact occurs.below_iff
  case reached =>
    intro place
    rw [size_ofDocument] at positive ⊢
    rw [Occurs.root.below_iff, Tree.root] at *
    omega
  case others =>
    intro place beyond
    have none : (ofDocument d).entries[place]? = none := getElem?_entries_eq_none beyond
    have node : (ofDocument d).node? place = Option.none := by rw [node?, none, Option.map_none]
    have parent : (ofDocument d).parent? place = Option.none := by
      rw [parent?, none, Option.bind_none]
    have ancestors : (ofDocument d).ancestors place = [] := ancestors_of_parent?_eq_none parent
    refine ⟨node, parent, ?_, ancestors, ?_⟩
    · rw [children, none]
      rfl
    · rw [enclosingDirective?, ancestors, List.findSome?_singleton, node]
      rfl

end Tree

end WafRules
