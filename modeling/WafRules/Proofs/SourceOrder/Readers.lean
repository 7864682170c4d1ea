import Mathlib.Data.List.Flatten
import WafRules.Proofs.Entry
import WafRules.Proofs.Tree
import WafRules.Proofs.WellFormed.Documents

/-!
# The places that readers record

A selector, an operator and an action record the place of the token they begin with, and readers
take the tokens of a window from left to right.  So the places that a node and those below it
record are, in the order of the tree, among the places of the tokens it was read from.  An operator
without any token records the place of the token that closes its window.

What is recorded below a node is compared with the window by `List.Sublist`, which says both that
the places are places of the window and that they stand in its order.  A reader that takes a part of
its window gives up the tokens of that part, so the statement about it is that what it recorded,
followed by the places it leaves, is still such a sublist; the statements of two readers in sequence
are put together by transitivity.

## Main Definitions

* `Node.positions` — the places a node and those below it record.
* `Window.positions` — the places of the tokens of a window.
* `ArgumentTokens.anchors`, `EntryTokens.anchors` — the tokens whose places can be recorded.

## Main Statements

* `Selector.readList_positions`, `Action.readList_positions`, `Operator.read_position`.
* `EntryTokens.read_positions` — the places of an item are those of anchors, in order.
* `readEntries_positions` — the same for the items of entries.
-/

namespace WafRules

/-! ### The places of nodes

One equation for every type of node, so that the places below a directive can be computed from what
it holds.  Texts and the members of selectors record none. -/

namespace Node

/-- The places that a node and the nodes below it record, in the order of the tree. -/
def positions (node : Node) : List Position := node.preorder.filterMap position?

/-- The places of a node are **its own**, if it records one, and then those below it. -/
theorem positions_eq (node : Node) :
    node.positions = node.position?.toList ++ node.children.flatMap positions := by
  have below : (node.children.flatMap preorder).filterMap position? =
      node.children.flatMap positions := by
    rw [List.filterMap_flatMap]
    rfl
  rw [positions, preorder_eq, List.filterMap_cons, below]
  cases node.position? <;> rfl

@[simp]
theorem positions_part (p : StringPart) : (part p).positions = [] := by
  rw [positions_eq]
  rfl

@[simp]
theorem positions_string (s : ExpandableString) : (string s).positions = [] := by
  rw [positions_eq]
  simp [children, position?, List.flatMap_map]

@[simp]
theorem positions_member (m : MemberPattern) : (member m).positions = [] := by
  rw [positions_eq]
  rfl

@[simp]
theorem positions_selector (s : Selector) : (selector s).positions = [s.position] := by
  rw [positions_eq]
  simp [children, position?, List.flatMap_map]

/-- Selectors have nothing below them that records a place, so a list of them records one each. -/
theorem flatMap_positions_selector (list : List Selector) :
    (list.map selector).flatMap positions = list.map Selector.position := by
  induction list with
  | nil => rfl
  | cons s list ih => simp [ih]

@[simp]
theorem positions_selectors (list : List Selector) :
    (selectors list).positions = list.map Selector.position := by
  rw [positions_eq]
  exact flatMap_positions_selector list

@[simp]
theorem positions_operator (o : Operator) : (operator o).positions = [o.position] := by
  rw [positions_eq]
  simp [children, position?, List.flatMap_map]

@[simp]
theorem positions_ctl (o : CtlOption) :
    (ctl o).positions = o.target.toList.map Selector.position := by
  rw [positions_eq]
  exact flatMap_positions_selector _

/-- The places below an **action**: strings have none, so only a control option has some. -/
theorem positions_ofAction (a : Action) :
    (ofAction a).flatMap positions =
      match a with
      | .ctl option => (ctl option).positions
      | _ => [] := by
  unfold ofAction
  split <;> simp [List.flatMap_map]

/-- An **action** records the place of its name, then those below it. -/
theorem positions_action (a : Positioned Action) :
    (action a).positions = a.position :: (ofAction a.node).flatMap positions := by
  rw [positions_eq]
  rfl

/-- A **comment** records the place of its mark. -/
theorem positions_comment (c : Comment) : (comment c).positions = [c.position] := by
  rw [positions_eq]
  rfl

/-- A **directive** records the place of its name, then those below it. -/
theorem positions_directive (d : Directive) :
    (directive d).positions = d.position :: (ofBody d.body).flatMap positions := by
  rw [positions_eq]
  rfl

/-- A **document** records no place of its own. -/
theorem positions_document (d : Document) :
    (document d).positions = (d.items.map Item.toNode).flatMap positions := by
  rw [positions_eq]
  rfl

end Node

/-! ### The places of windows

What readers do to windows, seen through the places of their tokens.  Dropping tokens leaves a
sublist, and cutting a window in two leaves the places of both parts, one list behind the other. -/

namespace Window

/-- The places of the tokens of a window. -/
def positions (w : Window) : List Position := w.tokens.map Token.position

/-- A window that is cut out of another one has places of it only, in the same order. -/
theorem positions_sublist {inner outer : Window} (cut : inner.tokens.Sublist outer.tokens) :
    inner.positions.Sublist outer.positions := cut.map _

/-- What is left **behind tokens** that were read. -/
theorem positions_drop (w : Window) (n : Nat) : (w.drop n).positions.Sublist w.positions :=
  positions_sublist (w.drop_suffix n).sublist

/-- What is left **behind blanks**. -/
theorem positions_skipBlanks (w : Window) : w.skipBlanks.positions.Sublist w.positions :=
  positions_sublist w.skipBlanks_suffix.sublist

/-- What is cut out before an index has its places before what is cut out behind it. -/
theorem positions_append_sublist {w inner rest : Window} (n : Nat)
    (front : inner.tokens.Sublist (w.splitAt n).1.tokens)
    (back : rest.tokens.Sublist (w.splitAt n).2.tokens) :
    (inner.positions ++ rest.positions).Sublist w.positions := by
  have both : (inner.tokens ++ rest.tokens).Sublist (w.tokens.take n ++ w.tokens.drop n) :=
    front.append back
  rw [List.take_append_drop] at both
  rw [positions, positions, ← List.map_append]
  exact both.map _

/-- What is read behind the first token has the places behind its own. -/
theorem position_cons_sublist {w rest : Window} (suffix : rest.tokens <:+ w.tokens)
    (shorter : rest.tokens.length < w.tokens.length) :
    (w.position :: rest.positions).Sublist w.positions := by
  obtain ⟨tokens, closing⟩ := w
  rcases tokens with _ | ⟨t, tokens⟩
  · exact absurd shorter (Nat.not_lt_zero _)
  · rcases List.suffix_cons_iff.mp suffix with same | behind
    · rw [same] at shorter
      exact absurd shorter (Nat.lt_irrefl _)
    · exact (behind.sublist.map Token.position).cons_cons t.position

/-- A token that **has to be there** is the first of the window, so no place is lost. -/
theorem expect_positions (w : Window) (kind : Token.Kind) (what : Expected) :
    Yields (fun result => result.1.position :: result.2.positions = w.positions)
      (w.expect kind what) := by
  rintro ⟨t, rest⟩ read
  obtain ⟨tokens, -, -⟩ := expect_eq_ok read
  rw [positions, positions, tokens]
  rfl

end Window

/-! ### Selectors

A selector records the place of its first token, which the reader takes, so the next selector has
its place among those of later tokens. -/

namespace Selector

/-- A **selector** stands where its window starts, and leaves an end of the window. -/
theorem read_suffix (w : Window) :
    Yields (fun result => result.1.position = w.position ∧ result.2.tokens <:+ w.tokens)
      (Selector.read w) := by
  rintro ⟨s, rest⟩ read
  simp only [Selector.read, bind_eq_ok_iff] at read
  obtain ⟨⟨mode, afterMode⟩, readMode, ⟨name, afterName⟩, readName, read⟩ := read
  have named : afterName.tokens <:+ w.tokens :=
    (Window.expect_suffix readName).trans (readMode_suffix readMode)
  dsimp only at read
  split at read
  · split at read
    · simp only [bind_eq_ok_iff] at read
      obtain ⟨⟨member, afterMember⟩, readMember, same⟩ := read
      obtain ⟨rfl, rfl⟩ := Prod.mk.inj (Except.ok.inj same)
      exact ⟨rfl, (MemberPattern.read_suffix readMember).trans
        ((afterName.drop_suffix 1).trans named)⟩
    · cases read
  · obtain ⟨rfl, rfl⟩ := Prod.mk.inj (Except.ok.inj read)
    exact ⟨rfl, named⟩

/-- A selector records the place of the first of its tokens. -/
theorem read_positions (w : Window) :
    Yields (fun result => (result.1.position :: result.2.positions).Sublist w.positions)
      (Selector.read w) := by
  rintro ⟨s, rest⟩ read
  obtain ⟨place, suffix⟩ := read_suffix w _ read
  dsimp only at place suffix ⊢
  rw [place]
  exact Window.position_cons_sublist suffix (read_length read)

/-- The selectors **behind those that are there**.  The statement is about those that are found, as
nothing is known of the places of the others. -/
theorem readOnto_positions (before : Array Selector) (w : Window) :
    Yields (fun list => ∃ found : List Selector, list = before.toList ++ found ∧
      (found.map Selector.position).Sublist w.positions) (readOnto before w) := by
  fun_induction readOnto before w with
  | case1 before w e failed => exact .error e
  -- a selector takes the first token, and the later ones are read behind it
  | case2 before w s rest read list ended =>
    refine .ok ⟨[s], by simp [list], ?_⟩
    exact ((List.nil_sublist _).cons_cons _).trans (read_positions w _ read)
  | case3 before w s rest read list e failed => exact .error e
  | case4 before w s rest read list goesOn bar after separated ih =>
    refine ih.mono ?_
    rintro _ ⟨found, rfl, later⟩
    refine ⟨s :: found, by simp [list], ?_⟩
    have behind : after.skipBlanks.positions.Sublist rest.positions :=
      Window.positions_sublist (after.skipBlanks_suffix.trans
        ((Window.expect_suffix separated).trans rest.skipBlanks_suffix)).sublist
    exact ((later.trans behind).cons_cons s.position).trans (read_positions w _ read)

/-- The **selectors of a window** record places of its tokens. -/
theorem readList_positions (w : Window) :
    Yields (fun list => (list.map Selector.position).Sublist w.positions) (readList w) := by
  refine (readOnto_positions #[] w.skipBlanks).mono ?_
  rintro _ ⟨found, rfl, places⟩
  exact places.trans w.positions_skipBlanks

end Selector

/-- The **operator of a window** records the place where the window starts. -/
theorem Operator.read_position (w : Window) :
    Yields (fun o => o.position = w.position) (Operator.read w) := by
  have placed (negated : Bool) (kind : Except SyntaxError Operator.Kind) :
      Yields (fun o : Operator => o.position = w.position)
        (kind >>= fun kind => .ok ⟨kind, negated, w.position⟩) :=
    .bind_of_forall fun _ => .ok rfl
  exact .ite (fun _ => placed _ _) fun _ => placed _ _

/-! ### Actions

An action records the place of its name.  Below it only a control option can record a place, that of
its target, and the target is read from the value, which stands behind the name. -/

namespace CtlOption

/-- The **target** of an option stands where its window starts. -/
theorem readTarget_positions (w : Window) :
    Yields (fun target => [target.position].Sublist w.positions) (readTarget w) := by
  refine (Selector.read_positions w).bind ?_
  rintro ⟨target, rest⟩ places
  exact .bind_of_forall fun _ => .ok (((List.nil_sublist _).cons_cons _).trans places)

/-- The part **behind a semicolon** is the one that a target is read from. -/
theorem splitTarget_positions (w : Window) :
    Yields (fun result => result.2.positions.Sublist w.positions) (splitTarget w) := by
  unfold splitTarget
  cases w.index? (.punct .semicolon) with
  | none => exact .error _
  | some semicolon => exact .ok ((Window.positions_drop _ 1).trans (w.positions_drop semicolon))

/-- Every reader of a value that names a target takes it from the window of the value.  The other
readers give values without places. -/
theorem readers_positions {name : String} {read : Window → Except SyntaxError CtlOption}
    (listed : (name, read) ∈ readers) (w : Window) :
    Yields (fun o => (Node.ctl o).positions.Sublist w.positions) (read w) := by
  simp only [Node.positions_ctl]
  have noTarget {o : CtlOption} (none : o.target = none) :
      (o.target.toList.map Selector.position).Sublist w.positions := by
    rw [none]
    exact List.nil_sublist _
  simp only [readers, List.mem_cons, Prod.mk.injEq, List.not_mem_nil, or_false] at listed
  rcases listed with ⟨-, rfl⟩ | ⟨-, rfl⟩ | ⟨-, rfl⟩ | ⟨-, rfl⟩ | ⟨-, rfl⟩ | ⟨-, rfl⟩ |
    ⟨-, rfl⟩ | ⟨-, rfl⟩ | ⟨-, rfl⟩ | ⟨-, rfl⟩
  · exact .map_of_forall fun _ => noTarget rfl
  · exact .bind_of_forall fun _ => .ok (noTarget rfl)
  · exact .map_of_forall fun _ => noTarget rfl
  · exact .map_of_forall fun _ => noTarget rfl
  · refine .bind_of_forall fun token => ?_
    split
    · exact .ok (noTarget rfl)
    · exact .error _
  · exact .map_of_forall fun _ => noTarget rfl
  · exact .map_of_forall fun _ => noTarget rfl
  · exact .map_of_forall fun _ => noTarget rfl
  · refine (splitTarget_positions w).bind fun parts cut => .bind_of_forall fun ids => ?_
    exact (readTarget_positions parts.2).bind fun target place => .ok (place.trans cut)
  · refine (splitTarget_positions w).bind fun parts cut => .bind_of_forall fun tag => ?_
    exact (readTarget_positions parts.2).bind fun target place => .ok (place.trans cut)

/-- The target of a **control option** records a place of its window. -/
theorem read_positions (w : Window) :
    Yields (fun o => (Node.ctl o).positions.Sublist w.positions) (CtlOption.read w) := by
  refine (w.expect_positions .word .ctlOption).bind ?_
  rintro ⟨name, rest⟩ first
  refine (rest.expect_positions (.punct .equals) .ctlValue).bind ?_
  rintro ⟨equals, value⟩ second
  have behind : value.positions.Sublist w.positions := by
    rw [← first, ← second]
    exact ((List.Sublist.refl _).cons _).cons _
  cases found : Text.lookup? readers name.value with
  | none => exact .error _
  | some read =>
    obtain ⟨spelling, listed⟩ := Text.exists_mem_of_lookup? found
    exact (readers_positions listed value).mono fun o places => places.trans behind

end CtlOption

/-- The places of the value of an action. -/
def ActionValue.positions (v : ActionValue) : List Position :=
  (v.window.map Window.positions).getD []

namespace Action

/-- An action that is no control option has no places below it. -/
theorem positions_ofAction_eq_nil {a : Action} (notCtl : ∀ option, a ≠ .ctl option) :
    (Node.ofAction a).flatMap Node.positions = [] := by
  rw [Node.positions_ofAction]
  split
  · next option => exact absurd rfl (notCtl option)
  · rfl

/-- The places below an action are among those of its value.  Only a control option can have any,
which are those of its target. -/
theorem ofValue_positions (keyword : Keyword) (v : ActionValue) :
    Yields (fun a => ((Node.ofAction a).flatMap Node.positions).Sublist v.positions)
      (ofValue keyword v) := by
  have nothing {a : Action} (notCtl : ∀ option, a ≠ .ctl option) :
      ((Node.ofAction a).flatMap Node.positions).Sublist v.positions := by
    rw [positions_ofAction_eq_nil notCtl]
    exact List.nil_sublist _
  cases keyword with
  | ctl =>
  -- every other keyword gives an action with nothing below it that records a place
    intro a read
    obtain ⟨w, required, read⟩ := bind_eq_ok_iff.mp read
    obtain ⟨option, readOption, same⟩ := bind_eq_ok_iff.mp read
    obtain rfl := Except.ok.inj same
    have window : v.window = some w := by
      unfold ActionValue.required at required
      split at required
      · next found => rw [found, Except.ok.inj required]
      · cases required
    have places := CtlOption.read_positions w _ readOption
    rw [Node.positions_ofAction, ActionValue.positions, window]
    exact places
  | setVar | expireVar | initCol =>
    refine .bind_of_forall fun w => .bind_of_forall fun value => .ok (nothing ?_)
    intro option
    exact Action.noConfusion
  | flag | text | number | label | phase | severity | transform =>
    refine .map_of_forall fun value => nothing ?_
    intro option
    exact Action.noConfusion

/-- A value **without quotes** stands in front of what it leaves. -/
theorem bareValue_positions (singleWord : Bool) (w : Window) :
    ((bareValue singleWord w).1.positions ++ (bareValue singleWord w).2.positions).Sublist
      w.positions :=
  Window.positions_append_sublist _ (List.take_sublist _ _) (.refl _)

/-- The value of an action is cut out of its window, in front of the rest. -/
theorem splitValue_positions (singleWord : Bool) (w : Window) :
    Yields (fun result =>
      ((result.1.map Window.positions).getD [] ++ result.2.positions).Sublist w.positions)
      (splitValue singleWord w) := by
  have start : (w.drop 1).skipBlanks.positions.Sublist w.positions :=
    (Window.positions_skipBlanks _).trans (w.positions_drop 1)
  refine .ite (fun _ => .ite (fun _ => ?_) fun _ => ?_) fun _ => .ok (.refl _)
  · -- between the quotes
    unfold quotedValue
    cases ((w.drop 1).skipBlanks.drop 1).index? (.punct .singleQuote) with
    | none => exact .error _
    | some close =>
      have cut := Window.positions_append_sublist (w := (w.drop 1).skipBlanks.drop 1) close
        (.refl _) (Window.drop_suffix _ 1).sublist
      exact .ok (cut.trans ((Window.positions_drop _ 1).trans start))
  · exact .ok ((bareValue_positions singleWord _).trans start)

/-- An action records the place of its name, and below it places of its value. -/
theorem read_positions (w : Window) :
    Yields (fun result => ((Node.action result.1).positions ++ result.2.positions).Sublist
      w.positions) (Action.read w) := by
  refine (w.expect_positions .word .actionName).bind ?_
  rintro ⟨name, rest⟩ named
  refine (splitValue_positions _ rest).bind ?_
  rintro ⟨value, after⟩ cut
  cases Keyword.ofName? name.value with
  | none => exact .error _
  | some keyword =>
    refine (ofValue_positions keyword ⟨name, value⟩).bind fun action places => .ok ?_
    rw [← named, Node.positions_action, List.cons_append]
    exact ((places.append_right _).trans cut).cons_cons name.position

/-- The actions **behind those that are there**, with the places below each of them. -/
theorem readOnto_positions (before : Array (Positioned Action)) (w : Window) :
    Yields (fun list => ∃ found, list = before.toList ++ found ∧
      ((found.map Node.action).flatMap Node.positions).Sublist w.positions)
      (readOnto before w) := by
  fun_induction readOnto before w with
  | case1 before w ended => exact .ok ⟨[], by simp, List.nil_sublist _⟩
  | case2 before w goesOn e read => exact .error e
  | case3 before w goesOn action rest read separated ih =>
    refine ih.mono ?_
    rintro _ ⟨found, rfl, later⟩
    refine ⟨action :: found, by simp, ?_⟩
    have behind : (skipSeparators rest).positions.Sublist rest.positions :=
      Window.positions_sublist (skipSeparators_suffix rest).sublist
    exact ((later.trans behind).append_left _).trans (read_positions w _ read)
  | case4 before w goesOn action rest read joined => exact .error _

/-- The **actions of a window** record places of its tokens. -/
theorem readList_positions (w : Window) :
    Yields (fun list => ((list.map Node.action).flatMap Node.positions).Sublist w.positions)
      (readList w) := by
  refine (readOnto_positions #[] (skipSeparators w)).mono ?_
  rintro _ ⟨found, rfl, places⟩
  exact places.trans (Window.positions_sublist (skipSeparators_suffix w).sublist)

end Action

/-! ### Entries

An argument without tokens has no place to offer but that of the mark behind it.  It is an anchor
for that case only: with tokens inside, neither mark of an argument is recorded by anything. -/

/-- The tokens of an argument whose places can be recorded: those between its marks, or the mark
behind them if there are none. -/
def ArgumentTokens.anchors (a : ArgumentTokens) : List Token :=
  if a.body = [] then [a.stop] else a.body

/-- The tokens of an entry whose places can be recorded. -/
def EntryTokens.anchors : EntryTokens → List Token
  | comment c => [c.mark]
  | directive d => d.name :: d.arguments.flatMap ArgumentTokens.anchors

namespace ArgumentTokens

variable (a : ArgumentTokens)

/-- The places **inside an argument** are those of anchors, since a body that is not empty is what
the anchors are. -/
theorem positions_sublist_anchors :
    a.argument.window.positions.Sublist (a.anchors.map Token.position) := by
  show (a.body.map Token.position).Sublist _
  unfold anchors
  split
  · next empty =>
    rw [empty]
    exact List.nil_sublist _
  · exact .refl _

/-- An argument's anchors are tokens of it. -/
theorem anchors_sublist : a.anchors.Sublist a.toList := by
  unfold anchors toList
  split
  · exact (List.sublist_append_right _ _).cons _
  · exact (List.sublist_append_left _ _).cons _

/-- The window of an argument starts at an anchor. -/
theorem position_mem_anchors :
    [a.argument.window.position].Sublist (a.anchors.map Token.position) := by
  unfold anchors argument Window.position Window.first
  rcases a.body with _ | ⟨t, body⟩
  · exact .refl _
  · exact (List.nil_sublist _).cons_cons _

end ArgumentTokens

/-- An entry's anchors are tokens of it. -/
theorem EntryTokens.anchors_sublist (entry : EntryTokens) :
    entry.anchors.Sublist entry.toList := by
  cases entry with
  | comment c => exact (List.nil_sublist _).cons_cons _
  | directive d =>
    refine List.Sublist.cons_cons _ ?_
    exact List.Sublist.flatMap_right _ fun a _ => a.anchors_sublist

namespace Directive

/-- The places that the arguments of a directive offer. -/
def anchors (arguments : List ArgumentTokens) : List Position :=
  arguments.flatMap fun a => a.anchors.map Token.position

/-- A rule records places of its selectors, its operator and its actions, in this order. -/
theorem readRule_positions (selectors operator : ArgumentTokens)
    (actions : Option ArgumentTokens) :
    Yields (fun r => ((Node.ofBody (.rule r)).flatMap Node.positions).Sublist
      (anchors (selectors :: operator :: actions.toList)))
      (readRule selectors.argument operator.argument (actions.map ArgumentTokens.argument)) := by
  refine (Selector.readList_positions _).bind fun list selectorPlaces => ?_
  refine (Operator.read_position _).bind fun o place => ?_
  have front : (list.map Selector.position ++ [o.position]).Sublist
      (selectors.anchors.map Token.position ++ operator.anchors.map Token.position) := by
    rw [place]
    exact (selectorPlaces.trans selectors.positions_sublist_anchors).append
      operator.position_mem_anchors
  cases actions with
  | none =>
    refine .ok ?_
    simpa [Node.ofBody, anchors] using front
  | some actions =>
    refine (Action.readList_positions _).bind fun as actionPlaces => .ok ?_
    have whole := front.append (actionPlaces.trans actions.positions_sublist_anchors)
    simpa [Node.ofBody, anchors] using whole

/-- What a **keyword says** records places of the arguments, in order.  Selectors stand in front of
the operator and the operator in front of the actions, as their arguments do. -/
theorem Body.read?_positions {keyword : Keyword} {arguments : List ArgumentTokens}
    {body : Except SyntaxError Body}
    (read : Body.read? keyword (arguments.map ArgumentTokens.argument) = some body) :
    Yields (fun b => ((Node.ofBody b).flatMap Node.positions).Sublist (anchors arguments))
      body := by
  by_cases isRule : keyword = .rule
  · subst isRule
    match arguments with
    | [selectors, operator] =>
      obtain rfl := Option.some.inj read
      exact (readRule_positions selectors operator none).map fun r places => places
    | [selectors, operator, actions] =>
      obtain rfl := Option.some.inj read
      exact (readRule_positions selectors operator (some actions)).map fun r places => places
    | [] | [_] | _ :: _ :: _ :: _ :: _ => cases read
  · obtain ⟨argument, single⟩ := Body.exists_argument isRule read
    obtain ⟨a, rfl, rfl⟩ := List.map_eq_singleton_iff.mp single
    have actionPlaces : Yields (fun list =>
        ((list.map Node.action).flatMap Node.positions).Sublist (anchors [a]))
        (Action.readList a.argument.window) := by
      refine (Action.readList_positions _).mono fun list places => places.trans ?_
      rw [anchors, List.flatMap_singleton]
      exact a.positions_sublist_anchors
    cases keyword
    case rule => exact absurd rfl isRule
    all_goals obtain rfl := Option.some.inj read
    case action => exact actionPlaces.map fun list places => places
    case defaultAction => exact actionPlaces.map fun list places => places
    all_goals exact .map_of_forall fun _ => List.nil_sublist _

end Directive

/-- A **directive** records the place of its name and places of its arguments, in order. -/
theorem DirectiveTokens.read_positions (d : DirectiveTokens) :
    Yields (fun directive => (Node.directive directive).positions.Sublist
      (d.name.position :: Directive.anchors d.arguments)) d.read := by
  unfold DirectiveTokens.read
  cases Directive.Keyword.ofName? d.name.value with
  | none => exact .error _
  | some keyword =>
    dsimp only
    split
    · next body read =>
      refine (Directive.Body.read?_positions read).map fun b places => ?_
      rw [Node.positions_directive]
      exact places.cons_cons _
    · exact .error _

/-- The item of an **entry** records places of its anchors, in order. -/
theorem EntryTokens.read_positions (entry : EntryTokens) :
    Yields (fun item => item.toNode.positions.Sublist (entry.anchors.map Token.position))
      entry.read := by
  cases entry with
  | comment c =>
    refine .ok ?_
    show (Node.comment c.read).positions.Sublist _
    rw [Node.positions_comment]
    exact .refl _
  | directive d =>
    refine d.read_positions.map fun directive places => ?_
    show (Node.directive directive).positions.Sublist _
    rw [anchors, List.map_cons, List.map_flatMap]
    exact places

/-- The items of **entries** record places of their anchors, in order. -/
theorem readEntries_positions (entries : List EntryTokens) :
    (((readEntries entries).1.map Item.toNode).flatMap Node.positions).Sublist
      ((entries.flatMap EntryTokens.anchors).map Token.position) := by
  induction entries with
  | nil => exact .refl _
  | cons entry entries ih =>
    cases read : entry.read with
    | error e =>
      rw [readEntries_cons_error entries read]
      exact List.nil_sublist _
    | ok item =>
      rw [readEntries_cons_ok entries read, List.map_cons, List.flatMap_cons, List.flatMap_cons,
        List.map_append]
      exact (entry.read_positions item read).append ih

end WafRules
