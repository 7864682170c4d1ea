import Mathlib.Data.List.Forall2
import WafRules.Proofs.Closings
import WafRules.Proofs.Relocation.Entries

/-!
# Closing tokens of arguments

A whole argument is a window that its stop mark closes.  Selectors, operators, actions and settings
are read from it part by part, and each part is what it is whatever closes the window, so a
directive is told by the tokens inside its arguments alone.

The place of an operator is the one thing that a closing token can lend to a value: an operator
stands where its window starts, and an empty window starts at the token that closes it.  So the
statements about operators and rules name that place, and a whole directive is compared for closing
tokens that stand at one place.

## Main Definitions

* `Argument.Alike` — arguments that start at one place and whose windows are alike.

## Main Statements

* `Selector.readList_agree`, `Operator.read_agree`, `Action.readList_agree` — the arguments of a
  rule.
* `Directive.Body.read?_agree` — what a keyword says with arguments that are alike.
-/

namespace WafRules

variable {L : Likeness} {w w' : Window}

/-! ### Selectors

A list goes on behind a bar and ends with the window.  That a window is empty and that its first
token is a bar are questions about its tokens, so both lists go on together. -/

namespace Selector

/-- The **rest of a list of selectors**, behind those that are read. -/
theorem readOnto_agree (alike : w.Alike L w') (before : Array Selector) :
    Agree L Eq (readOnto before w) (readOnto before w') := by
  -- every selector makes the window shorter
  induction size : w.tokens.length using Nat.strongRecOn generalizing before w w' with
  | ind n ih =>
    subst size
    rw [readOnto_eq before w, readOnto_eq before w']
    cases read : Selector.read w with
    | error e =>
      obtain ⟨e', read', alikeErrors⟩ := (Selector.read_agree alike).exists_error read
      rw [read']
      exact .error alikeErrors
    | ok result =>
      obtain ⟨selector, rest⟩ := result
      obtain ⟨⟨_, rest'⟩, read', rfl, alikeRest⟩ := (Selector.read_agree alike).exists_ok read
      rw [read']
      refine .ite alikeRest.skipBlanks.isEmpty (fun _ => .ok rfl) fun _ => ?_
      have bar := alikeRest.skipBlanks.expect (.punct .pipe) .variableSeparator
      cases separator : rest.skipBlanks.expect (.punct .pipe) .variableSeparator with
      | error e =>
        obtain ⟨e', separator', alikeErrors⟩ := bar.exists_error separator
        rw [separator']
        exact .error alikeErrors
      | ok result =>
        obtain ⟨mark, after⟩ := result
        obtain ⟨⟨_, after'⟩, separator', rfl, alikeAfter⟩ := bar.exists_ok separator
        rw [separator']
        refine ih _ ?_ alikeAfter.skipBlanks _ rfl
        calc after.skipBlanks.tokens.length
          _ ≤ after.tokens.length := after.skipBlanks_suffix.length_le
          _ < rest.skipBlanks.tokens.length := Window.expect_length separator
          _ ≤ rest.tokens.length := rest.skipBlanks_suffix.length_le
          _ < w.tokens.length := read_length read

/-- The **selectors of a window** are the same whatever closes it. -/
theorem readList_agree (alike : w.Alike L w') : Agree L Eq (readList w) (readList w') :=
  readOnto_agree alike.skipBlanks #[]

end Selector

/-! ### Operators

An operator has an argument whose form is decided by its name.  The forms are taken one by one; the
table of readers then needs one lemma, for whatever reader the name selects. -/

namespace Operand

/-- Whether operands follow one name with the same blanks, in windows that are alike. -/
structure Alike (L : Likeness) (o o' : Operand) : Prop where
  name : o.name = o'.name
  leading : o.leading = o'.leading
  window : o.window.Alike L o'.window

variable {o o' : Operand}

/-- What follows the **name of an operator**: one blank behind it is kept apart, since some
operators take it for text and the others do not. -/
theorem ofWindow_agree (alike : w.Alike L w') (name : Token) :
    Agree L (Alike L) (ofWindow name w) (ofWindow name w') := by
  refine .ite alike.isEmpty (fun _ => .ok ⟨rfl, rfl, alike⟩) fun _ => ?_
  refine .ite (alike.startsWith _) (fun starts => .ok ⟨rfl, ?_, alike.drop 1⟩) fun _ =>
    .error (L.unexpected _ alike.first)
  obtain ⟨t, rest, tokens, -⟩ := Window.tokens_of_startsWith starts
  have tokens' : w'.tokens = t :: rest := alike.tokens.symm.trans tokens
  rw [Window.first, Window.first, tokens, tokens']
  rfl

/-- The error for an argument that is **missing** is put at the operator's name, which is in the
window, so the errors are equal whatever closes it. -/
theorem missing_alike (alike : o.Alike L o') : L.error o.missing o'.missing := by
  rw [missing, missing, alike.name]
  exact L.error_refl _

/-- An argument that **has to be there**, without the blanks at its end. -/
theorem required_agree (alike : o.Alike L o') :
    Agree L (Window.Alike L) o.required o'.required :=
  .ite alike.window.trimEnd.isEmpty (fun _ => .error (missing_alike alike)) fun _ =>
    .ok alike.window.trimEnd

/-- An argument that is taken **as it is written**, with the blank in front. -/
theorem verbatim_agree (alike : o.Alike L o') : Agree L Eq o.verbatim o'.verbatim := by
  have text : o.leading ++ o.window.text = o'.leading ++ o'.window.text := by
    rw [alike.leading, alike.window.text]
  unfold verbatim
  rw [text]
  exact .ite Iff.rfl (fun _ => .error (missing_alike alike)) fun _ => .ok rfl

/-- An argument that is a **text with references**. -/
theorem expandable_agree (alike : o.Alike L o') : Agree L Eq o.expandable o'.expandable := by
  unfold expandable
  rw [alike.leading]
  exact .ite (and_congr_right' alike.window.isEmpty) (fun _ => .error (missing_alike alike))
    fun _ => ExpandableString.readOnto_agree _ alike.window

/-- An argument that is taken **without blanks at its ends**. -/
theorem trimmed_agree (alike : o.Alike L o') : Agree L Eq o.trimmed o'.trimmed :=
  (required_agree alike).bind fun _ _ alike => .ok alike.text

/-- An argument that is a list of **words**. -/
theorem words_agree (alike : o.Alike L o') : Agree L Eq o.words o'.words :=
  (required_agree alike).bind fun _ _ alike => .ok (congrArg wordsOf alike.tokens)

/-- An argument that **must not be there**. -/
theorem absent_agree (alike : o.Alike L o') : Agree L Eq o.absent o'.absent := by
  unfold absent
  rw [alike.name]
  exact .ite alike.window.trimEnd.isEmpty (fun _ => .ok rfl) fun _ =>
    .error (alike.window.trimEnd.place _)

end Operand

/-- Readers of the elements of a list. -/
theorem Agree.mapM {α β : Type} {read read' : α → Except SyntaxError β}
    (agree : ∀ a, Agree L Eq (read a) (read' a)) (elements : List α) :
    Agree L Eq (elements.mapM read) (elements.mapM read') := by
  induction elements with
  | nil => exact .ok rfl
  | cons a elements ih =>
    rw [List.mapM_cons, List.mapM_cons]
    refine (agree a).bind ?_
    rintro b _ rfl
    refine ih.bind ?_
    rintro bs _ rfl
    exact .ok rfl

/-- An argument that is a **list with commas**, whatever reads its items. -/
theorem Operand.items_agree {o o' : Operand} (alike : o.Alike L o') {α : Type} (what : ListItem)
    (read? : List Char → Option α) :
    Agree L Eq (o.items what read?) (o'.items what read?) := by
  refine (required_agree alike).bind fun w w' alikeWindows => ?_
  rw [alikeWindows.text, alike.name]
  refine Agree.mapM (fun field => ?_) _
  dsimp only
  cases read? (Text.trimList field) with
  | none => exact .error (alikeWindows.place _)
  | some value => exact .ok rfl

namespace Operator

/-- Each reader in the **table of operators**. -/
theorem Kind.readers_agree {name : String} {read : Kind.Reader}
    (listed : (name, read) ∈ Kind.readers) {o o' : Operand} (alike : o.Alike L o') :
    Agree L Eq (read o) (read o') := by
  simp only [readers, List.mem_append, List.mem_cons, List.mem_map, Prod.mk.injEq,
    List.not_mem_nil, or_false] at listed
  rcases listed with (listed | ⟨how, -, -, rfl⟩) | ⟨what, -, -, rfl⟩
  · rcases listed with ⟨-, rfl⟩ | ⟨-, rfl⟩ | ⟨-, rfl⟩ | ⟨-, rfl⟩ | ⟨-, rfl⟩ | ⟨-, rfl⟩ |
      ⟨-, rfl⟩ | ⟨-, rfl⟩ | ⟨-, rfl⟩
    · exact (Operand.verbatim_agree alike).map_eq
    · exact (Operand.words_agree alike).map_eq
    · exact (Operand.words_agree alike).map_eq
    · exact (Operand.words_agree alike).map_eq
    · exact (Operand.items_agree alike _ _).map_eq
    · exact (Operand.trimmed_agree alike).map_eq
    · exact (Operand.trimmed_agree alike).map_eq
    · exact (Operand.trimmed_agree alike).map_eq
    · exact (Operand.items_agree alike _ _).map_eq
  · exact (Operand.expandable_agree alike).map_eq
  · exact (Operand.absent_agree alike).map_eq

/-- What an operator with a **written name** tests. -/
theorem Kind.read_agree (alike : w.Alike L w') : Agree L Eq (Kind.read w) (Kind.read w') := by
  refine (alike.expect .word .operatorName).bind ?_
  rintro ⟨name, rest⟩ ⟨_, rest'⟩ ⟨rfl, alikeRest⟩
  refine (Operand.ofWindow_agree alikeRest name).bind fun o o' alikeOperands => ?_
  dsimp only
  cases found : Text.lookup? Kind.readers name.value with
  | none => exact .error (L.error_refl _)
  | some read =>
    obtain ⟨spelling, listed⟩ := Text.exists_mem_of_lookup? found
    exact Kind.readers_agree listed alikeOperands

/-- The **operator of a window** is the same whatever closes it, and stands where the window
starts. -/
theorem read_agree (alike : w.Alike L w') :
    Agree L (fun o o' => o.position = w.position ∧ o' = { o with position := w'.position })
      (Operator.read w) (Operator.read w') := by
  -- The mark of a negation is taken off first, so that both windows are alike behind it.
  have negated : w.startsWith (.punct .exclamation) = w'.startsWith (.punct .exclamation) :=
    Bool.eq_iff_iff.mpr (alike.startsWith _)
  have rest : (if w'.startsWith (.punct .exclamation) then w.drop 1 else w).Alike L
      (if w'.startsWith (.punct .exclamation) then w'.drop 1 else w') := by
    split
    · exact alike.drop 1
    · exact alike
  unfold Operator.read
  dsimp only
  rw [negated]
  refine .ite (rest.startsWith _) (fun _ => ?_) fun _ => ?_
  · refine (Kind.read_agree (rest.drop 1)).bind ?_
    rintro kind _ rfl
    exact .ok ⟨rfl, rfl⟩
  · rw [rest.text]
    exact .ok ⟨rfl, rfl⟩

end Operator

/-! ### Actions

The window of a value is cut out of the window of the action.  Inside single quotes it is closed by
the quote, which is a token of the action, and without quotes by what stands behind it; that may be
the closing token of the whole argument. -/

namespace Action

/-- A value **in single quotes** and the window behind it; without a closing quote the error is put
where the quotes open. -/
theorem quotedValue_agree (alike : w.Alike L w') {opening opening' : Position}
    (near : ∀ cause, L.error ⟨cause, opening⟩ ⟨cause, opening'⟩) :
    Agree L (fun read read' => read.1.Alike L read'.1 ∧ read.2.Alike L read'.2)
      (quotedValue opening w) (quotedValue opening' w') := by
  unfold quotedValue
  rw [alike.index?]
  cases w'.index? (.punct .singleQuote) with
  | none => exact .error (near _)
  | some close => exact .ok ⟨alike.front close, (alike.back close).drop 1⟩

/-- A value **without quotes** and the window behind it.  It cannot fail. -/
theorem bareValue_alike (alike : w.Alike L w') (singleWord : Bool) :
    (bareValue singleWord w).1.Alike L (bareValue singleWord w').1 ∧
      (bareValue singleWord w).2.Alike L (bareValue singleWord w').2 := by
  unfold bareValue
  dsimp only
  rw [alike.tokens]
  exact ⟨(alike.front _).trimEnd, alike.back _⟩

/-- The **value of an action**, in either form, or that there is none. -/
theorem splitValue_agree (alike : w.Alike L w') (singleWord : Bool) :
    Agree L (fun read read' => Option.Rel (Window.Alike L) read.1 read'.1 ∧
      read.2.Alike L read'.2) (splitValue singleWord w) (splitValue singleWord w') := by
  have value := (alike.drop 1).skipBlanks
  refine .ite (alike.startsWith _) (fun _ => ?_) fun _ => .ok ⟨.none, alike⟩
  refine .ite (value.startsWith _) (fun _ => ?_) fun _ => ?_
  · refine (quotedValue_agree (value.drop 1) value.place).bind ?_
    rintro ⟨inner, rest⟩ ⟨inner', rest'⟩ ⟨alikeInner, alikeRest⟩
    exact .ok ⟨.some alikeInner, alikeRest⟩
  · obtain ⟨alikeValue, alikeRest⟩ := bareValue_alike value singleWord
    exact .ok ⟨.some alikeValue, alikeRest⟩

/-- An **action** with its value. -/
theorem read_agree (alike : w.Alike L w') :
    Agree L (fun read read' => read.1 = read'.1 ∧ read.2.Alike L read'.2) (Action.read w)
      (Action.read w') := by
  refine (alike.expect .word .actionName).bind ?_
  rintro ⟨name, rest⟩ ⟨_, rest'⟩ ⟨rfl, alikeRest⟩
  refine (splitValue_agree alikeRest _).bind ?_
  rintro ⟨value, after⟩ ⟨value', after'⟩ ⟨alikeValue, alikeAfter⟩
  dsimp only
  cases Keyword.ofName? name.value with
  | none => exact .error (L.error_refl _)
  | some keyword =>
    refine (ofValue_agree alikeValue keyword name).bind ?_
    rintro action _ rfl
    exact .ok ⟨rfl, alikeAfter⟩

/-- The **rest of a list of actions**, behind those that are read. -/
theorem readOnto_agree (alike : w.Alike L w') (before : Array (Positioned Action)) :
    Agree L Eq (readOnto before w) (readOnto before w') := by
  -- every action makes the window shorter
  induction size : w.tokens.length using Nat.strongRecOn generalizing before w w' with
  | ind n ih =>
    subst size
    rw [readOnto_eq before w, readOnto_eq before w']
    refine .ite alike.isEmpty (fun _ => .ok rfl) fun _ => ?_
    cases read : Action.read w with
    | error e =>
      obtain ⟨e', read', alikeErrors⟩ := (Action.read_agree alike).exists_error read
      rw [read']
      exact .error alikeErrors
    | ok result =>
      obtain ⟨action, rest⟩ := result
      obtain ⟨⟨_, rest'⟩, read', rfl, alikeRest⟩ := (Action.read_agree alike).exists_ok read
      rw [read']
      refine .ite ?_ (fun _ => ?_) fun _ => .error (L.unexpected _ alikeRest.first)
      · exact or_congr alikeRest.isEmpty
          (or_congr (alikeRest.startsWith _) (alikeRest.startsWith _))
      · refine ih _ ?_ (alikeRest.dropKinds _) _ rfl
        exact Nat.lt_of_le_of_lt (skipSeparators_suffix rest).length_le (read_length read)

/-- The **actions of a window** are the same whatever closes it. -/
theorem readList_agree (alike : w.Alike L w') : Agree L Eq (readList w) (readList w') :=
  readOnto_agree (alike.dropKinds _) #[]

end Action

/-! ### Directives

What a directive says is read from its arguments, each of which starts at a token and has a window.
A missing text is reported at the start of its argument, so the starts have to be the same. -/

/-- Whether arguments start at one place and have windows that are alike. -/
structure Argument.Alike (L : Likeness) (a a' : Argument) : Prop where
  start : a.start = a'.start
  window : a.window.Alike L a'.window

/-- An argument whose **text** is what the directive keeps. -/
theorem Argument.Alike.text_agree {a a' : Argument} (alike : a.Alike L a') (what : FreeText) :
    Agree L Eq (a.text what) (a'.text what) := by
  unfold Argument.text
  rw [alike.window.text, alike.start]
  exact .refl

namespace Directive

/-- A rule has its operator where the window of the operator starts, which takes closing tokens at
one place when that window is empty. -/
theorem readRule_agree (fixed : ∀ {t t'}, L.closing t t' → t.position = t'.position)
    {selectors selectors' operator operator' : Argument} {actions actions' : Option Argument}
    (alikeSelectors : selectors.Alike L selectors') (alikeOperator : operator.Alike L operator')
    (alikeActions : Option.Rel (Argument.Alike L) actions actions') :
    Agree L Eq (readRule selectors operator actions)
      (readRule selectors' operator' actions') := by
  refine (Selector.readList_agree alikeSelectors.window).bind ?_
  rintro list _ rfl
  refine (Operator.read_agree alikeOperator.window).bind ?_
  rintro o _ ⟨place, rfl⟩
  have samePlace : operator'.window.position = o.position :=
    (fixed alikeOperator.window.first).symm.trans place.symm
  rw [samePlace]
  cases alikeActions with
  | none => exact .ok rfl
  | some alike =>
    refine (Action.readList_agree alike.window).bind ?_
    rintro actions _ rfl
    exact .ok rfl

variable {arguments arguments' : List Argument}

/-- The error for a **wrong number of arguments** is made of their number and of the place of the
first one too many. -/
theorem argumentCount_alike (alike : List.Forall₂ (Argument.Alike L) arguments arguments')
    (keyword : Keyword) (position : Position) :
    argumentCount keyword position arguments = argumentCount keyword position arguments' := by
  have starts : arguments.map Argument.start = arguments'.map Argument.start := by
    induction alike with
    | nil => rfl
    | cons head _ ih => rw [List.map_cons, List.map_cons, head.start, ih]
  rw [argumentCount, argumentCount, ← List.getElem?_map, ← List.getElem?_map, starts,
    alike.length_eq]

/-- What a **keyword says with arguments** does not depend on what closes them.  Two arguments that
differ in their closing tokens alone are given to the same reader, since the keyword and the number
of arguments decide which that is. -/
theorem Body.read?_agree (fixed : ∀ {t t'}, L.closing t t' → t.position = t'.position)
    (alike : List.Forall₂ (Argument.Alike L) arguments arguments') (keyword : Keyword) :
    Option.Rel (Agree L Eq) (Body.read? keyword arguments) (Body.read? keyword arguments') := by
  cases keyword with
  | rule =>
    rcases alike with _ | ⟨selectors, _ | ⟨operator, _ | ⟨actions, _ | _⟩⟩⟩
    · exact .none
    · exact .none
    · exact .some (readRule_agree fixed selectors operator .none).map_eq
    · exact .some (readRule_agree fixed selectors operator (.some actions)).map_eq
    · exact .none
  | action =>
    rcases alike with _ | ⟨first, _ | _⟩
    exacts [.none, .some (Action.readList_agree first.window).map_eq, .none]
  | defaultAction =>
    rcases alike with _ | ⟨first, _ | _⟩
    exacts [.none, .some (Action.readList_agree first.window).map_eq, .none]
  | marker =>
    rcases alike with _ | ⟨first, _ | _⟩
    exacts [.none, .some (first.text_agree _).map_eq, .none]
  | componentSignature =>
    rcases alike with _ | ⟨first, _ | _⟩
    exacts [.none, .some (first.text_agree _).map_eq, .none]
  | ruleEngine =>
    rcases alike with _ | ⟨first, _ | _⟩
    exacts [.none, .some (Setting.readKeyword_agree first.window _ _).map_eq, .none]
  | auditEngine =>
    rcases alike with _ | ⟨first, _ | _⟩
    exacts [.none, .some (Setting.readKeyword_agree first.window _ _).map_eq, .none]
  | auditLogParts =>
    rcases alike with _ | ⟨first, _ | _⟩
    exacts [.none, .some (Setting.readAuditLogParts_agree first.window).map_eq, .none]
  | requestBodyAccess =>
    rcases alike with _ | ⟨first, _ | _⟩
    exacts [.none, .some (Setting.readKeyword_agree first.window _ _).map_eq, .none]
  | responseBodyAccess =>
    rcases alike with _ | ⟨first, _ | _⟩
    exacts [.none, .some (Setting.readKeyword_agree first.window _ _).map_eq, .none]

end Directive

end WafRules
