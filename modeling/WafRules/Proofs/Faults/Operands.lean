import WafRules.Proofs.Faults
import WafRules.Selector.Reader

/-!
# Faults of strings, selectors and operators

The readers of strings, of selectors and of operators report faults of the windows they are given,
and what they leave is made of the same tokens.

A reader may report a fault behind the window it has come to: a brace, a slash or a quote that is
never closed is reported where it opens.  The readers of such forms are given that place, and the
statements about them ask for it to be the place of one of the tokens.

## Main Statements

* `ExpandableString.readOnto_reports`, `ExpandableString.readValue_reports`.
* `Selector.readList_reports`.
* `Operator.read_reports`.
-/

namespace WafRules

variable {tokens : List Token}

/-! ### Strings

A string fails only in one of its references, since whatever is no reference is literal text. -/

/-- The key of a reference: what is wrong with it is found in its own tokens. -/
theorem MacroRef.readKey_answers {opening : Position} (opened : opening ∈ tokens.map Token.position)
    (collection : String) {body : Window} (among : body.Among tokens) :
    Answers tokens (fun result => result.2.Among tokens)
      (MacroRef.readKey opening collection body) := by
  unfold MacroRef.readKey
  cases body.index? (.punct .curlyClose) with
  | none => exact .error ⟨opened, trivial⟩
  | some close =>
    refine .ite (fun _ => .error ⟨(among.front close).position, trivial⟩) fun _ => ?_
    split
    · next t invalid =>
      have inKey := (among.front close).inside (List.mem_of_find?_eq_some invalid)
      exact .error ⟨List.mem_map_of_mem inKey, trivial⟩
    · exact .ok ((among.back close).drop 1)

/-- A **macro reference**: an unclosed one is reported where the window starts. -/
theorem MacroRef.read_answers {w : Window} (among : w.Among tokens) :
    Answers tokens (fun result => result.2.Among tokens) (MacroRef.read w) := by
  refine ((among.drop 2).expect .word .macroName trivial).bind ?_
  rintro ⟨name, rest⟩ ⟨-, amongRest⟩
  refine .ite (fun _ => readKey_answers among.position name.value (amongRest.drop 1)) fun _ => ?_
  refine (amongRest.expect (.punct .curlyClose) .macroEnd trivial).bind ?_
  rintro ⟨close, after⟩ ⟨-, amongAfter⟩
  exact .ok amongAfter

namespace ExpandableString

/-- Only the **references of a string** can be at fault. -/
theorem readOnto_reports (s : ExpandableString) {w : Window} (among : w.Among tokens) :
    Reports tokens (readOnto s w) := by
  -- the induction is on the window, which stays made of the same tokens as it gets shorter
  fun_induction readOnto s w with
  | case1 s w starts m rest read ih => exact ih ((MacroRef.read_answers among).gives _ read)
  | case2 s w starts e read => exact .error ((MacroRef.read_answers among).reports _ read)
  | case3 s w plain nothing => exact .ok trivial
  | case4 s w plain t rest own ih =>
    refine ih (among.of_subset ?_)
    rw [own]
    exact List.subset_cons_self t rest

/-- The **string in the value of an action**; unescaping it cannot fail. -/
theorem readValue_reports {w : Window} (among : w.Among tokens) :
    Reports tokens (readValue w) :=
  (readOnto_reports empty among).bind fun _ _ => .ok trivial

end ExpandableString

/-! ### Selectors

The name of a variable is one of a table, and the complaint that a variable is no collection takes
its name from there.  All other faults are about a token that is there or about one that is
missing. -/

namespace MemberPattern

/-- A **key** that is missing is reported where it should be. -/
theorem readKey_reports {w : Window} (among : w.Among tokens) :
    Reports tokens (readKey w) :=
  .ite (fun _ => .error (among.unexpected trivial)) fun _ => .ok trivial

/-- A key **without quotes**, and the window behind it. -/
theorem readBareKey_answers {w : Window} (among : w.Among tokens) :
    Answers tokens (fun result => result.2.Among tokens) (readBareKey w) :=
  (readKey_reports (among.front _)).bind fun _ _ => .ok (among.back _)

/-- A **regular expression** that is empty or has no closing slash is reported where it opens. -/
theorem readRegex_answers {opening : Position} (opened : opening ∈ tokens.map Token.position)
    {body : Window} (among : body.Among tokens) :
    Answers tokens (fun result => result.2.Among tokens) (readRegex opening body) := by
  unfold readRegex
  cases closingSlash? body.tokens with
  | none => exact .error ⟨opened, trivial⟩
  | some close =>
    refine .ite (fun _ => .error ⟨opened, trivial⟩) fun _ => ?_
    exact .ok ((among.back close).drop 1)

/-- What stands **inside quotes**, with nothing behind it. -/
theorem readInner_reports {inner : Window} (among : inner.Among tokens) :
    Reports tokens (readInner inner) := by
  refine .ite (fun _ => ?_) fun _ => readKey_reports among
  refine (readRegex_answers among.position (among.drop 1)).bind ?_
  rintro ⟨pattern, rest⟩ amongRest
  exact (amongRest.finish .quotedRegex trivial).bind fun _ _ => .ok trivial

/-- A member **in quotes** that are closed. -/
theorem readQuoted_answers {opening : Position} (opened : opening ∈ tokens.map Token.position)
    {body : Window} (among : body.Among tokens) :
    Answers tokens (fun result => result.2.Among tokens) (readQuoted opening body) := by
  unfold readQuoted
  cases body.index? (.punct .singleQuote) with
  | none => exact .error ⟨opened, trivial⟩
  | some close =>
    refine (readInner_reports (among.front close)).bind fun _ _ => ?_
    exact .ok ((among.back close).drop 1)

/-- The **member of a collection**, in any of its forms. -/
theorem read_answers (subject : Variable) {w : Window} (among : w.Among tokens) :
    Answers tokens (fun result => result.2.Among tokens) (MemberPattern.read subject w) := by
  refine .ite (fun _ => readQuoted_answers among.position (among.drop 1)) fun _ => ?_
  refine .ite (fun _ => readRegex_answers among.position (among.drop 1)) fun _ => ?_
  exact readBareKey_answers among

end MemberPattern

/-- A variable of the user's own is a collection, so only a built-in one takes no selector. -/
theorem Variable.exists_builtIn {subject : Variable} (plain : ¬ subject.isCollection = true) :
    ∃ builtIn : BuiltIn, subject.name = builtIn.name := by
  cases subject with
  | builtIn builtIn => exact ⟨builtIn, rfl⟩
  | user name => exact absurd rfl plain

namespace Selector

/-- A **second sign** in front of a selector is reported. -/
theorem readMode_answers {w : Window} (among : w.Among tokens) :
    Answers tokens (fun result => result.2.Among tokens) (readMode w) := by
  have amongRest := among.drop 1
  have signed (mode : SelectorMode) :
      Answers tokens (fun result => result.2.Among tokens) (onlySign mode (w.drop 1)) :=
    .ite (fun _ => .error ⟨amongRest.position, trivial⟩) fun _ => .ok amongRest
  refine .ite (fun _ => signed .remove) fun _ => ?_
  exact .ite (fun _ => signed .count) fun _ => .ok among

/-- A **selector**.  A member of what is no collection is reported with the name of a built-in
variable, which is how the message begins. -/
theorem read_answers {w : Window} (among : w.Among tokens) :
    Answers tokens (fun result => result.2.Among tokens) (Selector.read w) := by
  refine (readMode_answers among).bind ?_
  rintro ⟨mode, afterMode⟩ amongMode
  refine (Window.Among.expect amongMode .word .variableName trivial).bind ?_
  rintro ⟨name, afterName⟩ ⟨-, amongName⟩
  refine .ite (fun _ => ?_) fun _ => .ok amongName
  refine .ite (fun _ => ?_) fun plain => ?_
  · refine (MemberPattern.read_answers _ (amongName.drop 1)).bind ?_
    rintro ⟨pattern, rest⟩ amongRest
    exact .ok amongRest
  · exact .error ⟨amongName.position, Variable.exists_builtIn plain⟩

/-- The selectors **behind those that are there**. -/
theorem readOnto_reports (before : Array Selector) {w : Window} (among : w.Among tokens) :
    Reports tokens (readOnto before w) := by
  -- the faults of one selector are among the tokens, and so is what it leaves to the next
  fun_induction readOnto before w with
  | case1 before w e read => exact .error ((read_answers among).reports _ read)
  | case2 before w selector rest read selectors ended => exact .ok trivial
  | case3 before w selector rest read goesOn e bar =>
    have amongRest := (read_answers among).gives _ read
    exact .error ((amongRest.skipBlanks.expect _ .variableSeparator trivial).reports _ bar)
  | case4 before w selector rest read selectors goesOn separator after bar ih =>
    have amongRest := (read_answers among).gives _ read
    have separated := (amongRest.skipBlanks.expect _ .variableSeparator trivial).gives _ bar
    exact ih separated.2.skipBlanks

/-- The **selectors of a rule.** -/
theorem readList_reports {w : Window} (among : w.Among tokens) :
    Reports tokens (readList w) :=
  readOnto_reports #[] among.skipBlanks

end Selector

/-! ### Operators

The argument of an operator is a window together with the name in front of it, since an argument
that is missing is reported at the name. -/

namespace Operand

/-- Whether the argument of an operator and its name are among tokens. -/
structure Among (tokens : List Token) (o : Operand) : Prop where
  name : o.name ∈ tokens
  window : o.window.Among tokens

variable {o : Operand}

/-- What follows the **name of an operator**. -/
theorem ofWindow_answers {name : Token} (named : name ∈ tokens) {w : Window}
    (among : w.Among tokens) : Answers tokens (Operand.Among tokens) (ofWindow name w) := by
  refine .ite (fun _ => .ok ⟨named, among⟩) fun _ => ?_
  exact .ite (fun _ => .ok ⟨named, among.drop 1⟩) fun _ => .error (among.unexpected trivial)

/-- A missing argument is reported at the name. -/
theorem Among.missing (among : o.Among tokens) : o.missing.FaultAmong tokens :=
  ⟨List.mem_map_of_mem among.name, trivial⟩

/-- An argument that **has to be there**. -/
theorem required_answers (among : o.Among tokens) :
    Answers tokens (Window.Among tokens) o.required :=
  .ite (fun _ => .error among.missing) fun _ => .ok among.window.trimEnd

/-- An argument that is taken **as it is written**. -/
theorem verbatim_reports (among : o.Among tokens) :
    Reports tokens o.verbatim :=
  .ite (fun _ => .error among.missing) fun _ => .ok trivial

/-- An argument that is a **text with references**. -/
theorem expandable_reports (among : o.Among tokens) :
    Reports tokens o.expandable :=
  .ite (fun _ => .error among.missing) fun _ =>
    ExpandableString.readOnto_reports _ among.window

/-- An argument **without blanks at its ends**. -/
theorem trimmed_reports (among : o.Among tokens) : Reports tokens o.trimmed :=
  (required_answers among).bind fun _ _ => .ok trivial

/-- An argument that is a list of **words**. -/
theorem words_reports (among : o.Among tokens) : Reports tokens o.words :=
  (required_answers among).bind fun _ _ => .ok trivial

/-- An **item that is no value** is reported at the start of the list. -/
theorem items_reports {α : Type} (among : o.Among tokens) (what : ListItem)
    (read? : List Char → Option α) : Reports tokens (o.items what read?) := by
  refine (required_answers among).bind fun w amongWindow => ?_
  refine (Answers.mapM (P := fun _ => True) (fun field => ?_) _).mono fun _ _ => trivial
  cases found : read? (Text.trimList field) with
  | none =>
    simp only [found]
    exact .error ⟨amongWindow.position, trivial⟩
  | some value =>
    simp only [found]
    exact .ok trivial

/-- An argument that **must not be there** is reported where it starts. -/
theorem absent_reports (among : o.Among tokens) : Reports tokens o.absent :=
  .ite (fun _ => .ok trivial) fun _ => .error ⟨among.window.trimEnd.position, trivial⟩

end Operand

namespace Operator

/-- Every reader of an argument reports faults of the argument or of the name. -/
theorem Kind.readers_reports {name : String} {read : Kind.Reader}
    (listed : (name, read) ∈ Kind.readers) {o : Operand} (among : o.Among tokens) :
    Reports tokens (read o) := by
  simp only [readers, List.mem_append, List.mem_cons, List.mem_map, Prod.mk.injEq,
    List.not_mem_nil, or_false] at listed
  rcases listed with (listed | ⟨how, -, -, rfl⟩) | ⟨what, -, -, rfl⟩
  · rcases listed with ⟨-, rfl⟩ | ⟨-, rfl⟩ | ⟨-, rfl⟩ | ⟨-, rfl⟩ | ⟨-, rfl⟩ | ⟨-, rfl⟩ |
      ⟨-, rfl⟩ | ⟨-, rfl⟩ | ⟨-, rfl⟩
    · exact (Operand.verbatim_reports among).map
    · exact (Operand.words_reports among).map
    · exact (Operand.words_reports among).map
    · exact (Operand.words_reports among).map
    · exact (Operand.items_reports among .address _).map
    · exact (Operand.trimmed_reports among).map
    · exact (Operand.trimmed_reports among).map
    · exact (Operand.trimmed_reports among).map
    · exact (Operand.items_reports among .byteRange _).map
  · exact (Operand.expandable_reports among).map
  · exact (Operand.absent_reports among).map

/-- An operator with a **written name**; a name that is not known is reported at its token. -/
theorem Kind.read_reports {w : Window} (among : w.Among tokens) :
    Reports tokens (Kind.read w) := by
  refine (among.expect .word .operatorName trivial).bind ?_
  rintro ⟨name, rest⟩ ⟨named, amongRest⟩
  refine (Operand.ofWindow_answers named amongRest).bind fun operand amongOperand => ?_
  cases found : Text.lookup? Kind.readers name.value with
  | none => exact .error ⟨List.mem_map_of_mem named, trivial⟩
  | some read =>
    obtain ⟨spelling, listed⟩ := Text.exists_mem_of_lookup? found
    exact Kind.readers_reports listed amongOperand

/-- The **operator of a rule.** -/
theorem read_reports {w : Window} (among : w.Among tokens) :
    Reports tokens (Operator.read w) := by
  have amongRest := among.ite_drop (w.startsWith (.punct .exclamation)) 1
  refine .ite (fun _ => ?_) fun _ => .ok trivial
  exact (Kind.read_reports (amongRest.drop 1)).bind fun _ _ => .ok trivial

end Operator

end WafRules
