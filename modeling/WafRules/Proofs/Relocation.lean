import WafRules.Document.Reader

/-!
# Relocation

Positions are data that readers hand on and never look at.  If every position in the tokens of a
window is moved, what a reader makes of the window moves with it and changes in nothing else.

A type whose values hold positions is `Relocatable`; a function between two such types that
moves its results as its arguments are moved has a lemma `…_relocate`.  These are stated with the
moved argument on the left, so that they carry a motion outwards through a reader.

The motion is any function on places.  The readers never read on from a place, so nothing is asked
of it there; the lexer does, behind the mark of a comment, and only for the lexer a motion has to
agree with reading on (`Position.FollowsText`).  Three motions are used: that by a number of lines,
for a text behind another one; that to another label; and one that keeps the places of a text and
moves all others, which shows that a reader reports no place but those it was given.

## Main Definitions

* `Relocatable`, `relocate` — values with every position moved.
* `Position.shiftLines` — the motion by a number of lines.
* `Position.FollowsText` — the motions that agree with reading on.

## Main Statements

* `relocate_bind` — two readers in sequence.
* The lemmas `Window.…_relocate` — the elementary readers.
-/

namespace WafRules

/-- Types whose values hold positions. -/
class Relocatable (α : Type) where
  /-- The value with every position moved. -/
  relocate : (Position → Position) → α → α

export Relocatable (relocate)

namespace Position

/-- The place the given number of lines further down. -/
def shiftLines (count : Nat) (p : Position) : Position := { p with line := p.line + count }

/-- Whether moving a place and reading on from it commute. -/
def FollowsText (f : Position → Position) : Prop := ∀ p c, f (p.next c) = (f p).next c

/-- Moving lines down agrees with reading on: a line feed starts a line further down, and every
other character moves along its line. -/
theorem followsText_shiftLines (count : Nat) : FollowsText (shiftLines count) := by
  intro p c
  unfold next shiftLines
  split
  · simp only [Nat.add_right_comm]
  · rfl

end Position

/-! ### Instances

A motion reaches every position in a value and nothing else.  The positions of a value are its own
and those of its parts, so the instance of a type follows its constructors. -/

instance : Relocatable Position := ⟨fun f p => f p⟩

/-! Texts, numbers and the values that are read from a single word hold no positions. -/

instance : Relocatable String := ⟨fun _ text => text⟩
instance : Relocatable Nat := ⟨fun _ n => n⟩
instance : Relocatable Bool := ⟨fun _ b => b⟩
instance : Relocatable Unit := ⟨fun _ u => u⟩
instance : Relocatable MacroRef := ⟨fun _ m => m⟩
instance : Relocatable ExpandableString := ⟨fun _ s => s⟩
instance : Relocatable SelectorMode := ⟨fun _ mode => mode⟩
instance : Relocatable MemberPattern := ⟨fun _ pattern => pattern⟩
instance : Relocatable Operator.Kind := ⟨fun _ kind => kind⟩
instance : Relocatable Network := ⟨fun _ network => network⟩
instance : Relocatable ByteRange := ⟨fun _ range => range⟩
instance : Relocatable RuleEngineMode := ⟨fun _ mode => mode⟩
instance : Relocatable AuditEngineMode := ⟨fun _ mode => mode⟩
instance : Relocatable AuditLogPart := ⟨fun _ part => part⟩
instance : Relocatable IdRange := ⟨fun _ range => range⟩
instance : Relocatable Member := ⟨fun _ member => member⟩
instance : Relocatable VarChange := ⟨fun _ change => change⟩
instance : Relocatable SetVar := ⟨fun _ value => value⟩
instance : Relocatable ExpireVar := ⟨fun _ value => value⟩
instance : Relocatable InitCol := ⟨fun _ value => value⟩
instance : Relocatable Severity := ⟨fun _ severity => severity⟩
instance : Relocatable Transform := ⟨fun _ transform => transform⟩

section Containers

variable {α β : Type} [Relocatable α] [Relocatable β]

instance : Relocatable (Option α) := ⟨fun f => Option.map (relocate f)⟩
instance : Relocatable (List α) := ⟨fun f => List.map (relocate f)⟩
instance : Relocatable (Array α) := ⟨fun f => Array.map (relocate f)⟩
instance : Relocatable (α × β) := ⟨fun f pair => (relocate f pair.1, relocate f pair.2)⟩

end Containers

instance : Relocatable Token := ⟨fun f t => { t with position := f t.position }⟩
instance : Relocatable Window := ⟨fun f w => ⟨relocate f w.tokens, relocate f w.closing⟩⟩
instance : Relocatable LexError := ⟨fun f e => { e with position := f e.position }⟩
instance : Relocatable SyntaxError := ⟨fun f e => { e with position := f e.position }⟩

/-- A refusal of storage has no position. -/
instance : Relocatable ParseError where
  relocate f
    | .lexical error => .lexical (relocate f error)
    | .structural error => .structural (relocate f error)
    | .storage error => .storage error

instance {ε α : Type} [Relocatable ε] [Relocatable α] : Relocatable (Except ε α) where
  relocate f
    | .ok value => .ok (relocate f value)
    | .error error => .error (relocate f error)

instance : Relocatable Selector := ⟨fun f s => { s with position := f s.position }⟩
instance : Relocatable Operator := ⟨fun f o => { o with position := f o.position }⟩

instance : Relocatable CtlOption where
  relocate f
    | .ruleRemoveTargetById ids target => .ruleRemoveTargetById ids (relocate f target)
    | .ruleRemoveTargetByTag tag target => .ruleRemoveTargetByTag tag (relocate f target)
    | option => option

instance : Relocatable Action where
  relocate f
    | .ctl option => .ctl (relocate f option)
    | action => action

instance {α : Type} [Relocatable α] : Relocatable (Positioned α) :=
  ⟨fun f value => ⟨relocate f value.node, f value.position⟩⟩

instance : Relocatable Rule where
  relocate f rule :=
    ⟨relocate f rule.selectors, relocate f rule.operator, relocate f rule.actions⟩

instance : Relocatable Directive.Body where
  relocate f
    | .rule rule => .rule (relocate f rule)
    | .action actions => .action (relocate f actions)
    | .defaultAction actions => .defaultAction (relocate f actions)
    | body => body

instance : Relocatable Directive := ⟨fun f d => ⟨relocate f d.body, f d.position⟩⟩
instance : Relocatable Comment := ⟨fun f c => { c with position := f c.position }⟩

instance : Relocatable Item where
  relocate f
    | .comment c => .comment (relocate f c)
    | .directive d => .directive (relocate f d)

instance : Relocatable Document := ⟨fun f d => { d with items := relocate f d.items }⟩

/-- The words of an error do not say where it is. -/
theorem message_relocate (f : Position → Position) (e : ParseError) :
    (relocate f e).message = e.message := by
  cases e <;> rfl

/-! ### Sequences of readers

Readers are put together from smaller ones by `do`, by `<$>`, by recursion over lists and by tests.
For each of these there is one lemma that takes the motion from the parts to the whole; the proofs
for the readers of the language are made of them. -/

section Sequences

variable {α β : Type} [Relocatable α] [Relocatable β] {f : Position → Position}

@[simp]
theorem relocate_ok {ε : Type} [Relocatable ε] (a : α) :
    relocate f (Except.ok a : Except ε α) = .ok (relocate f a) := rfl

@[simp]
theorem relocate_error {ε : Type} [Relocatable ε] (e : ε) :
    relocate f (Except.error e : Except ε α) = .error (relocate f e) := rfl

@[simp]
theorem relocate_pair (a : α) (b : β) : relocate f (a, b) = (relocate f a, relocate f b) := rfl

/-- Moving the elements of two lists moves those of the list they make. -/
theorem relocate_append (first second : List α) :
    relocate f (first ++ second) = relocate f first ++ relocate f second := List.map_append

/-- Elements that are made from moved values. -/
theorem relocate_listMap {make : α → β} (moved : ∀ a, make (relocate f a) = relocate f (make a))
    (values : List α) : (relocate f values).map make = relocate f (values.map make) := by
  show (values.map (relocate f)).map make = (values.map make).map (relocate f)
  rw [List.map_map, List.map_map]
  exact List.map_congr_left fun a _ => moved a

/-- Stretches that are made from moved values, one after the other. -/
theorem relocate_flatMap {make : α → List β}
    (moved : ∀ a, make (relocate f a) = relocate f (make a)) (values : List α) :
    (relocate f values).flatMap make = relocate f (values.flatMap make) := by
  show (values.map (relocate f)).flatMap make = (values.flatMap make).map (relocate f)
  rw [List.flatMap_map, List.map_flatMap]
  congr 1
  funext a
  exact moved a

/-- Nothing has been read yet, so nothing is moved. -/
theorem relocate_empty : relocate f (#[] : Array α) = #[] := Array.map_empty

/-- One more element behind the elements read so far. -/
theorem relocate_push (before : Array α) (a : α) :
    relocate f (before.push a) = (relocate f before).push (relocate f a) := Array.map_push

/-- The elements read so far, as a list. -/
theorem relocate_toList (before : Array α) :
    relocate f before.toList = (relocate f before).toList := Array.toList_map.symm

/-- Two **readers in sequence.**  If the first moves its result with its window, and the second
its own with the result of the first, then both together move theirs. -/
theorem relocate_bind {first first' : Except SyntaxError α}
    {second second' : α → Except SyntaxError β} (moved : first' = relocate f first)
    (movesNext : ∀ a, first = .ok a → second' (relocate f a) = relocate f (second a)) :
    first' >>= second' = relocate f (first >>= second) := by
  subst moved
  cases first with
  | error e => rfl
  | ok a => exact movesNext a rfl

/-- A constructor behind a reader. -/
theorem relocate_map {first first' : Except SyntaxError α} {make make' : α → β}
    (moved : first' = relocate f first)
    (movesMake : ∀ a, make' (relocate f a) = relocate f (make a)) :
    make' <$> first' = relocate f (make <$> first) := by
  subst moved
  cases first with
  | error e => rfl
  | ok a => exact congrArg Except.ok (movesMake a)

/-- Readers of the elements of a list, one after the other. -/
theorem relocate_mapM {γ : Type} {read read' : γ → Except SyntaxError α}
    (moved : ∀ c, read' c = relocate f (read c)) (cs : List γ) :
    cs.mapM read' = relocate f (cs.mapM read) := by
  induction cs with
  | nil => rfl
  | cons c cs ih =>
    rw [List.mapM_cons, List.mapM_cons]
    refine relocate_bind (moved c) fun a _ => ?_
    exact relocate_bind ih fun as _ => rfl

/-- A list of values without positions stays as it is. -/
theorem relocate_list_eq_self (fixed : ∀ a : α, relocate f a = a) (values : List α) :
    relocate f values = values :=
  (List.map_congr_left fun a _ => fixed a).trans (List.map_id values)

/-- A choice between two readers by a test that does not see positions. -/
theorem relocate_ite {condition : Prop} [Decidable condition] {first first' second second' : α}
    (movesFirst : condition → first' = relocate f first)
    (movesSecond : ¬ condition → second' = relocate f second) :
    (if condition then first' else second') = relocate f (if condition then first else second) := by
  split
  · next holds => exact movesFirst holds
  · next fails => exact movesSecond fails

end Sequences

/-! ### Tokens and windows

Kinds and values are what readers look at, and a motion keeps both.  So a search in a window finds
the same place in it, and what is cut off there is moved. -/

variable (f : Position → Position)

@[simp]
theorem Token.kind_relocate (t : Token) : (relocate f t).kind = t.kind := rfl

@[simp]
theorem Token.value_relocate (t : Token) : (relocate f t).value = t.value := rfl

@[simp]
theorem Token.toLexeme_relocate (t : Token) : (relocate f t).toLexeme = t.toLexeme := rfl

@[simp]
theorem Token.position_relocate (t : Token) :
    (relocate f t).position = relocate f t.position := rfl

@[simp]
theorem Token.isKind_relocate (t : Token) (kind : Token.Kind) :
    (relocate f t).isKind kind = t.isKind kind := rfl

/-- The error at a token moves with the token. -/
theorem unexpected_relocate (what : Expected) (found : Token) :
    unexpected what (relocate f found) = relocate f (unexpected what found) := rfl

namespace Window

/-- A list of tokens is searched by their kinds and values only. -/
theorem map_relocate_takeWhile {tokens : List Token} {p : Token → Bool}
    (blind : ∀ t, p (relocate f t) = p t) :
    (tokens.map (relocate f)).takeWhile p = (tokens.takeWhile p).map (relocate f) := by
  rw [List.takeWhile_map]
  congr 2
  funext t
  exact blind t

/-- What is left of the search is moved as well. -/
theorem map_relocate_dropWhile {tokens : List Token} {p : Token → Bool}
    (blind : ∀ t, p (relocate f t) = p t) :
    (tokens.map (relocate f)).dropWhile p = (tokens.dropWhile p).map (relocate f) := by
  rw [List.dropWhile_map]
  congr 2
  funext t
  exact blind t

@[simp]
theorem tokens_relocate (w : Window) : (relocate f w).tokens = w.tokens.map (relocate f) := rfl

@[simp]
theorem closing_relocate (w : Window) : (relocate f w).closing = relocate f w.closing := rfl

@[simp]
theorem first_relocate (w : Window) : (relocate f w).first = relocate f w.first := by
  rcases w with ⟨tokens, closing⟩
  cases tokens <;> rfl

@[simp]
theorem isEmpty_relocate (w : Window) : (relocate f w).isEmpty = w.isEmpty := by
  simp [isEmpty]

@[simp]
theorem startsWith_relocate (w : Window) (kind : Token.Kind) :
    (relocate f w).startsWith kind = w.startsWith kind := by
  rcases w with ⟨tokens, closing⟩
  cases tokens <;> rfl

@[simp]
theorem position_relocate (w : Window) : (relocate f w).position = relocate f w.position := by
  rw [position, first_relocate]
  rfl

@[simp]
theorem text_relocate (w : Window) : (relocate f w).text = w.text := by
  rw [text, text, tokens_relocate, List.flatMap_map]
  rfl

@[simp]
theorem drop_relocate (w : Window) (n : Nat) : (relocate f w).drop n = relocate f (w.drop n) := by
  rw [drop, tokens_relocate, ← List.map_drop]
  rfl

@[simp]
theorem dropKinds_relocate (w : Window) (kinds : List Token.Kind) :
    (relocate f w).dropKinds kinds = relocate f (w.dropKinds kinds) := by
  rw [dropKinds, tokens_relocate, map_relocate_dropWhile f fun t => rfl]
  rfl

@[simp]
theorem skipBlanks_relocate (w : Window) :
    (relocate f w).skipBlanks = relocate f w.skipBlanks := w.dropKinds_relocate f _

@[simp]
theorem splitAt_relocate (w : Window) (n : Nat) :
    (relocate f w).splitAt n = relocate f (w.splitAt n) := by
  have next : ((relocate f w).tokens.drop n).headD (relocate f w).closing =
      relocate f ((w.tokens.drop n).headD w.closing) := by
    rw [tokens_relocate, ← List.map_drop]
    cases w.tokens.drop n <;> rfl
  rw [splitAt, next, drop_relocate, tokens_relocate, ← List.map_take]
  rfl

@[simp]
theorem trimEnd_relocate (w : Window) : (relocate f w).trimEnd = relocate f w.trimEnd := by
  have blanks : ((relocate f w).tokens.reverse.takeWhile (·.isKind .blanks)).length =
      (w.tokens.reverse.takeWhile (·.isKind .blanks)).length := by
    rw [tokens_relocate, ← List.map_reverse, map_relocate_takeWhile f fun t => rfl,
      List.length_map]
  have length : (relocate f w).tokens.length = w.tokens.length := List.length_map _
  simp only [trimEnd, blanks, length, splitAt_relocate]
  rfl

@[simp]
theorem index?_relocate (w : Window) (kind : Token.Kind) :
    (relocate f w).index? kind = w.index? kind := by
  rw [index?, tokens_relocate, List.findIdx?_map]
  rfl

/-- The search for a kind outside references counts the braces before it, which are kinds too. -/
theorem indexAtDepth?_relocate (kind : Token.Kind) (depth : Nat) (tokens : List Token) :
    indexAtDepth? kind depth (tokens.map (relocate f)) = indexAtDepth? kind depth tokens := by
  fun_induction indexAtDepth? kind depth tokens with
  | case1 => rfl
  | case2 depth t found => exact if_pos found
  | case3 depth t other => exact if_neg other
  | case4 depth t u rest opens ih =>
    rw [← ih]
    exact if_pos opens
  | case5 depth t u rest plain closes ih =>
    rw [← ih]
    exact (if_neg plain).trans (if_pos closes)
  | case6 depth t u rest plain inside found =>
    exact (if_neg plain).trans ((if_neg inside).trans (if_pos found))
  | case7 depth t u rest plain inside other ih =>
    rw [← ih]
    exact (if_neg plain).trans ((if_neg inside).trans (if_neg other))

@[simp]
theorem indexOutsideMacros?_relocate (w : Window) (kind : Token.Kind) :
    (relocate f w).indexOutsideMacros? kind = w.indexOutsideMacros? kind :=
  indexAtDepth?_relocate f kind 0 w.tokens

/-- A token that is asked for is the moved one, and so is the one that stands in its place. -/
theorem expect_relocate (w : Window) (kind : Token.Kind) (what : Expected) :
    (relocate f w).expect kind what = relocate f (w.expect kind what) := by
  simp only [expect, startsWith_relocate, first_relocate, drop_relocate, unexpected_relocate]
  exact relocate_ite (fun _ => rfl) (fun _ => rfl)

/-- Whether anything is left over does not depend on places; the error points to what is left. -/
theorem finish_relocate (w : Window) (what : Expected) :
    (relocate f w).finish what = relocate f (w.finish what) := by
  simp only [finish, isEmpty_relocate, first_relocate, unexpected_relocate]
  exact relocate_ite (fun _ => rfl) (fun _ => rfl)

/-- A window with a single word, or the token at which it turns out to be something else. -/
theorem singleWord_relocate (w : Window) (what : Expected) :
    (relocate f w).singleWord what = relocate f (w.singleWord what) := by
  refine relocate_bind (w.expect_relocate f .word what) ?_
  rintro ⟨token, rest⟩ -
  exact relocate_bind (rest.finish_relocate f what) fun _ _ => rfl

end Window

end WafRules
