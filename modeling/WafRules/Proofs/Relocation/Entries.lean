import WafRules.Proofs.Entry
import WafRules.Proofs.Relocation.Actions

/-!
# Relocation of entries

A directive is read from its name and its arguments, and moves as their tokens do.  So the items of
entries, and the error that ends them, move with the tokens of the entries.

This is where the lemmas about readers come together: a moved text has the entries of the text with
their tokens moved, and `readEntries_relocate` says that nothing but the places in the items
changes.

## Main Statements

* `Directive.Body.read?_relocate` — what a keyword says with moved arguments.
* `EntryTokens.read_relocate` — the item of a moved entry.
* `readEntries_relocate` — the items of moved entries.
-/

namespace WafRules

variable (f : Position → Position)

instance : Relocatable Argument := ⟨fun f a => ⟨f a.start, relocate f a.window⟩⟩

@[simp]
theorem Argument.window_relocate (a : Argument) :
    (relocate f a).window = relocate f a.window := rfl

@[simp]
theorem Argument.start_relocate (a : Argument) : (relocate f a).start = relocate f a.start := rfl

/-- A free text, which may not be empty where the directive does not allow it. -/
theorem Argument.text_relocate (a : Argument) (what : FreeText) :
    (relocate f a).text what = relocate f (a.text what) := by
  unfold Argument.text
  rw [Argument.window_relocate, Window.text_relocate]
  exact relocate_ite (fun _ => rfl) (fun _ => rfl)

namespace Directive

/-- The error about the number of arguments is at the name of the directive, or at the first
argument too many. -/
theorem argumentCount_relocate (keyword : Keyword) (position : Position)
    (arguments : List Argument) :
    argumentCount keyword (f position) (relocate f arguments) =
      relocate f (argumentCount keyword position arguments) := by
  have length : (relocate f arguments).length = arguments.length := List.length_map _
  have place : (((relocate f arguments)[keyword.most]?).map Argument.start).getD (f position) =
      f ((arguments[keyword.most]?.map Argument.start).getD position) := by
    have found : (relocate f arguments)[keyword.most]? =
        arguments[keyword.most]?.map (relocate f) := List.getElem?_map
    rw [found]
    cases arguments[keyword.most]? <;> rfl
  rw [argumentCount, length, place]
  rfl

/-- A rule: its selectors, its operator and its actions, if it has any. -/
theorem readRule_relocate (selectors operator : Argument) (actions : Option Argument) :
    readRule (relocate f selectors) (relocate f operator) (relocate f actions) =
      relocate f (readRule selectors operator actions) := by
  refine relocate_bind (Selector.readList_relocate f selectors.window) fun subjects _ => ?_
  refine relocate_bind (Operator.read_relocate f operator.window) fun condition _ => ?_
  cases actions with
  | none => rfl
  | some actions =>
    exact relocate_bind (Action.readList_relocate f actions.window) fun _ _ => rfl

/-- The **body of a directive moves with its arguments.**  Their number, which decides whether the
keyword says anything, stays. -/
theorem Body.read?_relocate (keyword : Keyword) (arguments : List Argument) :
    Body.read? keyword (relocate f arguments) = relocate f (Body.read? keyword arguments) := by
  -- In each case: the numbers of arguments that the keyword takes, and all others.
  cases keyword with
  | rule =>
    match arguments with
    | [selectors, operator] =>
      exact congrArg some
        (relocate_map (readRule_relocate f selectors operator none) fun _ => rfl)
    | [selectors, operator, actions] =>
      exact congrArg some
        (relocate_map (readRule_relocate f selectors operator (some actions)) fun _ => rfl)
    | [] | [_] | _ :: _ :: _ :: _ :: _ => rfl
  | action =>
    match arguments with
    | [a] => exact congrArg some (relocate_map (Action.readList_relocate f a.window) fun _ => rfl)
    | [] | _ :: _ :: _ => rfl
  | defaultAction =>
    match arguments with
    | [a] => exact congrArg some (relocate_map (Action.readList_relocate f a.window) fun _ => rfl)
    | [] | _ :: _ :: _ => rfl
  | marker =>
    match arguments with
    | [a] => exact congrArg some (relocate_map (a.text_relocate f _) fun _ => rfl)
    | [] | _ :: _ :: _ => rfl
  | componentSignature =>
    match arguments with
    | [a] => exact congrArg some (relocate_map (a.text_relocate f _) fun _ => rfl)
    | [] | _ :: _ :: _ => rfl
  | ruleEngine =>
    match arguments with
    | [a] =>
      exact congrArg some (relocate_map (Setting.readRuleEngine_relocate f a.window) fun _ => rfl)
    | [] | _ :: _ :: _ => rfl
  | auditEngine =>
    match arguments with
    | [a] =>
      exact congrArg some (relocate_map (Setting.readAuditEngine_relocate f a.window) fun _ => rfl)
    | [] | _ :: _ :: _ => rfl
  | auditLogParts =>
    match arguments with
    | [a] =>
      refine congrArg some
        (relocate_map (Setting.readAuditLogParts_relocate f a.window) fun parts => ?_)
      exact congrArg auditLogParts (relocate_list_eq_self (fun _ => rfl) parts)
    | [] | _ :: _ :: _ => rfl
  | requestBodyAccess =>
    match arguments with
    | [a] =>
      exact congrArg some (relocate_map (Setting.readSwitch_relocate f _ a.window) fun _ => rfl)
    | [] | _ :: _ :: _ => rfl
  | responseBodyAccess =>
    match arguments with
    | [a] =>
      exact congrArg some (relocate_map (Setting.readSwitch_relocate f _ a.window) fun _ => rfl)
    | [] | _ :: _ :: _ => rfl

end Directive

/-! ### Tokens of entries

The groups of tokens carry proofs of the kinds of their tokens.  A motion leaves kinds alone, so a
moved group is a group again, of the same sort. -/

instance : Relocatable ArgumentTokens where
  relocate f a :=
    { start := relocate f a.start
      body := relocate f a.body
      stop := relocate f a.stop
      start_kind := a.start_kind
      stop_kind := a.stop_kind
      body_kind := by
        intro t moved
        obtain ⟨original, member, rfl⟩ := List.mem_map.mp moved
        exact a.body_kind original member }

instance : Relocatable CommentTokens where
  relocate f c :=
    { mark := relocate f c.mark
      text := relocate f c.text
      mark_kind := c.mark_kind
      text_kind := by
        intro t moved
        obtain ⟨original, same, rfl⟩ := Option.map_eq_some_iff.mp moved
        exact c.text_kind original same }

instance : Relocatable DirectiveTokens where
  relocate f d :=
    { name := relocate f d.name, arguments := relocate f d.arguments, name_kind := d.name_kind }

instance : Relocatable EntryTokens where
  relocate f
    | .comment c => .comment (relocate f c)
    | .directive d => .directive (relocate f d)

/-- The tokens of an argument, with its marks. -/
theorem ArgumentTokens.toList_relocate (a : ArgumentTokens) :
    (relocate f a).toList = relocate f a.toList :=
  congrArg (relocate f a.start :: ·) (relocate_append a.body [a.stop]).symm

/-- The tokens of a comment. -/
theorem CommentTokens.toList_relocate (c : CommentTokens) :
    (relocate f c).toList = relocate f c.toList := by
  rcases c with ⟨mark, _ | text, _, _⟩ <;> rfl

/-- The tokens of a directive: its name, and those of its arguments. -/
theorem DirectiveTokens.toList_relocate (d : DirectiveTokens) :
    (relocate f d).toList = relocate f d.toList :=
  congrArg (relocate f d.name :: ·)
    (relocate_flatMap (ArgumentTokens.toList_relocate f) d.arguments)

/-- The tokens of an entry. -/
theorem EntryTokens.toList_relocate (entry : EntryTokens) :
    (relocate f entry).toList = relocate f entry.toList := by
  cases entry with
  | comment c => exact c.toList_relocate f
  | directive d => exact d.toList_relocate f

/-- The tokens of moved entries. -/
theorem entryTokens_relocate (entries : List EntryTokens) :
    entryTokens (relocate f entries) = relocate f (entryTokens entries) :=
  relocate_flatMap (EntryTokens.toList_relocate f) entries

/-! ### Reading

Items are read from groups one by one, and each reader has been moved above.  What a document adds
is the order of its items and the first error, and both depend on which groups are read and which
fail, not on where they are. -/

/-- What the readers see of an argument is its window and the place where it begins. -/
theorem ArgumentTokens.argument_relocate (a : ArgumentTokens) :
    (relocate f a).argument = relocate f a.argument := rfl

/-- A comment is at the place of its mark. -/
theorem CommentTokens.read_relocate (c : CommentTokens) :
    (relocate f c).read = relocate f c.read := by
  rcases c with ⟨mark, _ | text, _, _⟩ <;> rfl

/-- A directive is at the place of its name, and its keyword is looked up by the name's letters. -/
theorem DirectiveTokens.read_relocate (d : DirectiveTokens) :
    (relocate f d).read = relocate f d.read := by
  have arguments : (relocate f d).arguments.map ArgumentTokens.argument =
      relocate f (d.arguments.map ArgumentTokens.argument) :=
    relocate_listMap (ArgumentTokens.argument_relocate f) d.arguments
  have name : (relocate f d).name = relocate f d.name := rfl
  unfold DirectiveTokens.read
  rw [arguments, name, Token.value_relocate]
  cases Directive.Keyword.ofName? d.name.value with
  | none => rfl
  | some keyword =>
    have count := Directive.argumentCount_relocate f keyword d.name.position
      (d.arguments.map ArgumentTokens.argument)
    dsimp only
    rw [Directive.Body.read?_relocate]
    cases Directive.Body.read? keyword (d.arguments.map ArgumentTokens.argument) with
    | none => exact congrArg Except.error count
    | some body => exact relocate_map rfl fun _ => rfl

/-- An **entry moves with its tokens.** -/
theorem EntryTokens.read_relocate (entry : EntryTokens) :
    (relocate f entry).read = relocate f entry.read := by
  cases entry with
  | comment c => exact congrArg (Except.ok ∘ Item.comment) (c.read_relocate f)
  | directive d =>
    exact relocate_map (d.read_relocate f) fun _ => rfl

/-- The **items of entries move with their tokens**, and so does the error that ends them. -/
theorem readEntries_relocate (entries : List EntryTokens) :
    readEntries (relocate f entries) = relocate f (readEntries entries) := by
  induction entries with
  | nil => rfl
  | cons entry entries ih =>
    have moved := entry.read_relocate f
    cases read : entry.read with
    | error e =>
      rw [read] at moved
      rw [readEntries_cons_error entries read]
      exact readEntries_cons_error (relocate f entries) moved
    | ok item =>
      rw [read] at moved
      rw [readEntries_cons_ok entries read]
      refine (readEntries_cons_ok (relocate f entries) moved).trans ?_
      rw [ih]
      rfl

end WafRules
