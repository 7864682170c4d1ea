import WafRules.Operator.Reader
import WafRules.Proofs.Relocation
import WafRules.Selector.Reader

/-!
# Relocation of strings, selectors and operators

The readers of expandable strings, of selectors and of operators move what they read, or the error
they end with, as the tokens of their window are moved.

Each lemma here opens one reader, takes the motion through the tests it makes, which see kinds and
values only, and hands the rest to the lemmas of the readers it calls.  A reader that calls itself
on a shorter window is first put into an equation without its termination argument, and the motion
then follows by induction on the length of the window, which a motion keeps.

## Main Statements

* `ExpandableString.read_relocate`, `ExpandableString.readValue_relocate`.
* `Selector.readList_relocate`.
* `Operator.read_relocate`.
-/

namespace WafRules

variable (f : Position → Position)

/-! ### Expandable strings

A string has no places in it, so what is moved are the windows behind its references and the errors.
The place where a reference opens is handed on to the reader of its key, and is moved on the way. -/

/-- The token that is wrong in a key is found by its kind, so it is the moved one. -/
theorem invalidKeyToken?_relocate (tokens : List Token) :
    invalidKeyToken? (tokens.map (relocate f)) = (invalidKeyToken? tokens).map (relocate f) := by
  rw [invalidKeyToken?, List.find?_map]
  rfl

namespace MacroRef

/-- The key of a reference, or the error at its first wrong token.  The place of the opening brace
is handed in, because that is where a missing brace is reported. -/
theorem readKey_relocate (opening : Position) (collection : String) (body : Window) :
    readKey (f opening) collection (relocate f body) =
      relocate f (readKey opening collection body) := by
  unfold readKey
  rw [Window.index?_relocate]
  cases body.index? (.punct .curlyClose) with
  | none => rfl
  | some close =>
    simp only [Window.splitAt_relocate]
    rcases body.splitAt close with ⟨key, rest⟩
    simp only [relocate_pair, Window.isEmpty_relocate, Window.position_relocate,
      Window.text_relocate, Window.tokens_relocate, Window.drop_relocate,
      invalidKeyToken?_relocate]
    refine relocate_ite (fun _ => rfl) (fun _ => ?_)
    cases invalidKeyToken? key.tokens with
    | none => rfl
    | some t => rfl

/-- A **reference,** from its percent sign to its closing brace, and the window behind it. -/
theorem read_relocate (w : Window) :
    MacroRef.read (relocate f w) = relocate f (MacroRef.read w) := by
  unfold MacroRef.read
  rw [Window.drop_relocate]
  refine relocate_bind (Window.expect_relocate f _ _ _) ?_
  rintro ⟨name, rest⟩ -
  simp only [relocate_pair, Window.startsWith_relocate, Window.position_relocate,
    Window.drop_relocate]
  refine relocate_ite (fun _ => readKey_relocate f _ _ _) (fun _ => ?_)
  exact relocate_bind (Window.expect_relocate f _ _ _) fun _ _ => rfl

end MacroRef

namespace ExpandableString

/-- Whether a reference begins is a matter of two kinds. -/
theorem startsMacro_relocate (w : Window) : startsMacro (relocate f w) = startsMacro w := by
  rcases w with ⟨_ | ⟨t, _ | ⟨u, rest⟩⟩, closing⟩ <;> rfl

/-- The recursion of `readOnto`, without its termination argument. -/
theorem readOnto_eq (s : ExpandableString) (w : Window) :
    readOnto s w =
      if startsMacro w then do
        let (m, rest) ← MacroRef.read w
        readOnto (s.pushMacro m) rest
      else
        match w.tokens with
        | [] => .ok s
        | t :: rest => readOnto (s.pushLiteral t.value) { w with tokens := rest } := by
  rw [readOnto]
  split
  · cases MacroRef.read w <;> rfl
  · rcases w with ⟨_ | ⟨t, rest⟩, closing⟩ <;> rfl

/-- What stands behind the string read so far.  By the recursion of the reader, through
`readOnto_eq`. -/
theorem readOnto_relocate (s : ExpandableString) (w : Window) :
    readOnto s (relocate f w) = relocate f (readOnto s w) := by
  fun_induction readOnto s w with
  | case1 s w starts m rest read ih =>
    rw [readOnto_eq, startsMacro_relocate, if_pos starts, MacroRef.read_relocate, read]
    exact ih
  | case2 s w starts e read =>
    rw [readOnto_eq, startsMacro_relocate, if_pos starts, MacroRef.read_relocate, read]
    rfl
  | case3 s w plain nothing =>
    rw [readOnto_eq, startsMacro_relocate, if_neg plain, Window.tokens_relocate, nothing]
    rfl
  | case4 s w plain t rest tokens ih =>
    rw [readOnto_eq, startsMacro_relocate, if_neg plain, Window.tokens_relocate, tokens]
    exact ih

/-- An **expandable string.**  It holds no places, so only the error of a broken reference moves. -/
theorem read_relocate (w : Window) :
    ExpandableString.read (relocate f w) = relocate f (ExpandableString.read w) :=
  readOnto_relocate f empty w

/-- The value of an action, whose escaped quotes are replaced in its text. -/
theorem readValue_relocate (w : Window) : readValue (relocate f w) = relocate f (readValue w) :=
  relocate_bind (read_relocate f w) fun _ _ => rfl

end ExpandableString

/-! ### Selectors

The tests here are for kinds of tokens and for lengths, and neither is changed by a motion.  The
selector itself stands at the place of its first token, which is why a list of selectors is moved
and is not the same list. -/

namespace MemberPattern

/-- A member that is written as a key. -/
theorem readKey_relocate (w : Window) : readKey (relocate f w) = relocate f (readKey w) := by
  unfold readKey
  rw [Window.isEmpty_relocate, Window.first_relocate, Window.text_relocate]
  exact relocate_ite (fun _ => rfl) (fun _ => rfl)

/-- A key without quotes, and the window behind it, which begins where the key ends. -/
theorem readBareKey_relocate (w : Window) :
    readBareKey (relocate f w) = relocate f (readBareKey w) := by
  unfold readBareKey
  rw [Window.tokens_relocate, Window.map_relocate_takeWhile f fun _ => rfl, List.length_map]
  simp only [Window.splitAt_relocate]
  exact relocate_bind (readKey_relocate f _) fun _ _ => rfl

/-- The slash that closes a regular expression is looked for among kinds, and stands where it
stood. -/
theorem closingSlash?_relocate (tokens : List Token) :
    closingSlash? (tokens.map (relocate f)) = closingSlash? tokens := by
  fun_induction closingSlash? tokens with
  | case1 => rfl
  | case2 t slash => exact if_pos slash
  | case3 t other => exact if_neg other
  | case4 t u rest closes => exact if_pos closes
  | case5 t u rest inside ih =>
    rw [← ih]
    exact if_neg inside

/-- A regular expression between slashes, or the error that there is no second one. -/
theorem readRegex_relocate (opening : Position) (body : Window) :
    readRegex (f opening) (relocate f body) = relocate f (readRegex opening body) := by
  unfold readRegex
  rw [Window.tokens_relocate, closingSlash?_relocate]
  cases closingSlash? body.tokens with
  | none => rfl
  | some close =>
    simp only [Window.splitAt_relocate]
    rcases body.splitAt close with ⟨pattern, rest⟩
    simp only [relocate_pair, Window.isEmpty_relocate, Window.text_relocate,
      Window.drop_relocate]
    exact relocate_ite (fun _ => rfl) (fun _ => rfl)

/-- What stands between quotes: a regular expression with nothing behind it, or a key. -/
theorem readInner_relocate (inner : Window) :
    readInner (relocate f inner) = relocate f (readInner inner) := by
  unfold readInner
  rw [Window.startsWith_relocate]
  refine relocate_ite (fun _ => ?_) (fun _ => readKey_relocate f inner)
  rw [Window.position_relocate, Window.drop_relocate]
  refine relocate_bind (readRegex_relocate f _ _) ?_
  rintro ⟨pattern, rest⟩ -
  exact relocate_bind (Window.finish_relocate f rest _) fun _ _ => rfl

/-- A member in single quotes, or the error that they are not closed. -/
theorem readQuoted_relocate (opening : Position) (body : Window) :
    readQuoted (f opening) (relocate f body) = relocate f (readQuoted opening body) := by
  unfold readQuoted
  rw [Window.index?_relocate]
  cases body.index? (.punct .singleQuote) with
  | none => rfl
  | some close =>
    simp only [Window.splitAt_relocate]
    rcases body.splitAt close with ⟨inner, rest⟩
    simp only [relocate_pair, Window.drop_relocate]
    exact relocate_bind (readInner_relocate f inner) fun _ _ => rfl

/-- A **member of a collection,** in whichever of its spellings. -/
theorem read_relocate (subject : Variable) (w : Window) :
    MemberPattern.read subject (relocate f w) = relocate f (MemberPattern.read subject w) := by
  unfold MemberPattern.read
  simp only [Window.startsWith_relocate, Window.position_relocate, Window.drop_relocate]
  refine relocate_ite (fun _ => readQuoted_relocate f _ _) (fun _ => ?_)
  exact relocate_ite (fun _ => readRegex_relocate f _ _) (fun _ => readBareKey_relocate f w)

end MemberPattern

namespace Selector

/-- Behind a sign there must be another token than a sign. -/
theorem onlySign_relocate (mode : SelectorMode) (rest : Window) :
    onlySign mode (relocate f rest) = relocate f (onlySign mode rest) := by
  unfold onlySign
  simp only [Window.startsWith_relocate, Window.position_relocate]
  exact relocate_ite (fun _ => rfl) (fun _ => rfl)

/-- The sign in front of a selector, and the window behind it. -/
theorem readMode_relocate (w : Window) : readMode (relocate f w) = relocate f (readMode w) := by
  unfold readMode
  simp only [Window.startsWith_relocate, Window.drop_relocate]
  refine relocate_ite (fun _ => onlySign_relocate f _ _) (fun _ => ?_)
  exact relocate_ite (fun _ => onlySign_relocate f _ _) (fun _ => rfl)

/-- A **selector.**  Its place is that of its variable and moves with the token. -/
theorem read_relocate (w : Window) :
    Selector.read (relocate f w) = relocate f (Selector.read w) := by
  unfold Selector.read
  refine relocate_bind (readMode_relocate f w) ?_
  rintro ⟨mode, rest⟩ -
  refine relocate_bind (rest.expect_relocate f _ _) ?_
  rintro ⟨name, rest⟩ -
  simp only [relocate_pair, Window.startsWith_relocate, Window.position_relocate,
    Window.drop_relocate]
  refine relocate_ite (fun _ => ?_) (fun _ => rfl)
  refine relocate_ite (fun _ => ?_) (fun _ => rfl)
  exact relocate_bind (MemberPattern.read_relocate f _ _) fun _ _ => rfl

/-- The recursion of `readOnto`, without its termination argument. -/
theorem readOnto_eq (before : Array Selector) (w : Window) :
    readOnto before w =
      (Selector.read w >>= fun (selector, rest) =>
        if rest.skipBlanks.isEmpty then .ok (before.push selector).toList
        else
          rest.skipBlanks.expect (.punct .pipe) .variableSeparator >>= fun (_, after) =>
            readOnto (before.push selector) after.skipBlanks) := by
  rw [readOnto]
  cases Selector.read w with
  | error e => rfl
  | ok result =>
    dsimp only [bind, Except.bind]
    split
    · rfl
    · cases result.2.skipBlanks.expect (.punct .pipe) .variableSeparator <;> rfl

/-- The selectors behind those read so far, whose places are moved already. -/
theorem readOnto_relocate (before : Array Selector) (w : Window) :
    readOnto (relocate f before) (relocate f w) = relocate f (readOnto before w) := by
  -- every selector makes the window shorter, and a move keeps its length
  induction size : w.tokens.length using Nat.strongRecOn generalizing before w with
  | ind n ih =>
    subst size
    rw [readOnto_eq, readOnto_eq before w]
    refine relocate_bind (read_relocate f w) ?_
    rintro ⟨selector, rest⟩ read
    simp only [relocate_pair, Window.skipBlanks_relocate, Window.isEmpty_relocate,
      ← relocate_push]
    refine relocate_ite (fun _ => congrArg Except.ok (relocate_toList _).symm) (fun _ => ?_)
    refine relocate_bind (Window.expect_relocate f _ _ _) ?_
    rintro ⟨bar, after⟩ separator
    simp only [relocate_pair, Window.skipBlanks_relocate]
    refine ih _ ?_ _ _ rfl
    calc after.skipBlanks.tokens.length
      _ ≤ after.tokens.length := after.skipBlanks_suffix.length_le
      _ < rest.skipBlanks.tokens.length := Window.expect_length separator
      _ ≤ rest.tokens.length := rest.skipBlanks_suffix.length_le
      _ < w.tokens.length := read_length read

/-- A **list of selectors.** -/
theorem readList_relocate (w : Window) : readList (relocate f w) = relocate f (readList w) := by
  unfold readList
  rw [Window.skipBlanks_relocate, ← readOnto_relocate, relocate_empty]

end Selector

/-! ### Operators

What stands behind the name of an operator is its operand, the window of its argument together with
the name, at whose place a missing argument is reported.  Which of the readers below takes the
operand is looked up by name, and names do not move. -/

instance : Relocatable Operand :=
  ⟨fun f o => { o with name := relocate f o.name, window := relocate f o.window }⟩

namespace Operand

@[simp]
theorem name_relocate (o : Operand) : (relocate f o).name = relocate f o.name := rfl

@[simp]
theorem leading_relocate (o : Operand) : (relocate f o).leading = o.leading := rfl

@[simp]
theorem window_relocate (o : Operand) : (relocate f o).window = relocate f o.window := rfl

@[simp]
theorem missing_relocate (o : Operand) : (relocate f o).missing = relocate f o.missing := rfl

/-- The operand behind a name, or the error that nothing separates the two. -/
theorem ofWindow_relocate (name : Token) (w : Window) :
    ofWindow (relocate f name) (relocate f w) = relocate f (ofWindow name w) := by
  unfold ofWindow
  simp only [Window.isEmpty_relocate, Window.startsWith_relocate, Window.first_relocate,
    Window.drop_relocate, Token.value_relocate, unexpected_relocate]
  refine relocate_ite (fun _ => rfl) (fun _ => ?_)
  exact relocate_ite (fun _ => rfl) (fun _ => rfl)

/-- An argument that must not be empty, without the blanks at its end. -/
theorem required_relocate (o : Operand) :
    (relocate f o).required = relocate f o.required := by
  simp only [required, window_relocate, Window.trimEnd_relocate, Window.isEmpty_relocate,
    missing_relocate]
  exact relocate_ite (fun _ => rfl) (fun _ => rfl)

/-- An argument that is taken as it is written. -/
theorem verbatim_relocate (o : Operand) :
    (relocate f o).verbatim = relocate f o.verbatim := by
  simp only [verbatim, leading_relocate, window_relocate, Window.text_relocate,
    missing_relocate]
  exact relocate_ite (fun _ => rfl) (fun _ => rfl)

/-- An argument that may hold references. -/
theorem expandable_relocate (o : Operand) :
    (relocate f o).expandable = relocate f o.expandable := by
  simp only [expandable, leading_relocate, window_relocate, Window.isEmpty_relocate,
    missing_relocate]
  exact relocate_ite (fun _ => rfl) (fun _ => ExpandableString.readOnto_relocate f _ _)

/-- An argument that is taken without the blanks at its end. -/
theorem trimmed_relocate (o : Operand) : (relocate f o).trimmed = relocate f o.trimmed := by
  refine relocate_bind (required_relocate f o) fun w _ => ?_
  exact congrArg Except.ok (Window.text_relocate f w)

/-- The words between blanks are texts.  By the recursion of `wordsOf`, which takes a word and the
blanks behind it off the front. -/
theorem wordsOf_relocate (tokens : List Token) :
    wordsOf (tokens.map (relocate f)) = wordsOf tokens := by
  fun_induction wordsOf tokens with
  | case1 => rw [List.map_nil, wordsOf]
  | case2 t rest isWord word after ih =>
    have movedWord : ((relocate f t :: rest.map (relocate f)).takeWhile isWord).flatMap
        (fun t => t.value.toList) = word.flatMap fun t => t.value.toList := by
      rw [← List.map_cons, Window.map_relocate_takeWhile f fun _ => rfl, List.flatMap_map]
      rfl
    have movedAfter : ((relocate f t :: rest.map (relocate f)).dropWhile isWord).dropWhile
        (fun t => t.isKind .blanks) = after.map (relocate f) := by
      rw [← List.map_cons, Window.map_relocate_dropWhile f fun _ => rfl,
        Window.map_relocate_dropWhile f fun _ => rfl]
    rw [List.map_cons, wordsOf, movedWord, movedAfter, ih]

/-- An argument that is a list of words. -/
theorem words_relocate (o : Operand) : (relocate f o).words = relocate f o.words := by
  refine relocate_bind (required_relocate f o) fun w _ => congrArg Except.ok ?_
  rw [relocate_list_eq_self fun _ => rfl]
  exact wordsOf_relocate f w.tokens

/-- An argument that is a list of items between commas.  All items are reported at the place where
the argument begins. -/
theorem items_relocate {α : Type} [Relocatable α] (o : Operand) (what : ListItem)
    (read? : List Char → Option α) (fixed : ∀ a : α, relocate f a = a) :
    (relocate f o).items what read? = relocate f (o.items what read?) := by
  refine relocate_bind (required_relocate f o) fun w _ => ?_
  rw [Window.text_relocate, Window.position_relocate]
  refine relocate_mapM (fun field => ?_) _
  dsimp only
  cases read? (Text.trimList field) with
  | none => rfl
  | some value => exact congrArg Except.ok (fixed value).symm

/-- An argument that must be missing. -/
theorem absent_relocate (o : Operand) : (relocate f o).absent = relocate f o.absent := by
  simp only [absent, window_relocate, Window.trimEnd_relocate, Window.isEmpty_relocate,
    name_relocate, Window.position_relocate]
  exact relocate_ite (fun _ => rfl) (fun _ => rfl)

end Operand

namespace Operator

/-- The readers of words, of items and of a text, whatever is made of what they read. -/
theorem Kind.listReader_relocate {α : Type} [Relocatable α] (fixed : ∀ a : α, relocate f a = a)
    {read read' : Except SyntaxError (List α)} (moved : read' = relocate f read)
    (make : List α → Kind) : make <$> read' = relocate f (make <$> read) :=
  relocate_map moved fun values => congrArg make (relocate_list_eq_self fixed values)

/-- Every reader of an argument moves what it reads. -/
theorem Kind.readers_relocate {name : String} {read : Kind.Reader}
    (listed : (name, read) ∈ Kind.readers) (o : Operand) :
    read (relocate f o) = relocate f (read o) := by
  simp only [readers, List.mem_append, List.mem_cons, List.mem_map, Prod.mk.injEq,
    List.not_mem_nil, or_false] at listed
  rcases listed with (listed | ⟨how, -, -, rfl⟩) | ⟨what, -, -, rfl⟩
  · rcases listed with ⟨-, rfl⟩ | ⟨-, rfl⟩ | ⟨-, rfl⟩ | ⟨-, rfl⟩ | ⟨-, rfl⟩ | ⟨-, rfl⟩ |
      ⟨-, rfl⟩ | ⟨-, rfl⟩ | ⟨-, rfl⟩
    · exact relocate_map (o.verbatim_relocate f) fun _ => rfl
    · exact listReader_relocate f (fun _ => rfl) (o.words_relocate f) phrases
    · exact listReader_relocate f (fun _ => rfl) (o.words_relocate f) phraseFiles
    · exact listReader_relocate f (fun _ => rfl) (o.words_relocate f) phraseFiles
    · exact listReader_relocate f (fun _ => rfl) (o.items_relocate f _ _ fun _ => rfl) addresses
    · exact relocate_map (o.trimmed_relocate f) fun _ => rfl
    · exact relocate_map (o.trimmed_relocate f) fun _ => rfl
    · exact relocate_map (o.trimmed_relocate f) fun _ => rfl
    · exact listReader_relocate f (fun _ => rfl) (o.items_relocate f _ _ fun _ => rfl) byteRanges
  · exact relocate_map (o.expandable_relocate f) fun _ => rfl
  · exact relocate_map (o.absent_relocate f) fun _ => rfl

/-- What an operator looks for, with its name or, without an at sign, as a regular expression. -/
theorem Kind.read_relocate (w : Window) :
    Kind.read (relocate f w) = relocate f (Kind.read w) := by
  unfold Kind.read
  refine relocate_bind (w.expect_relocate f _ _) ?_
  rintro ⟨name, rest⟩ -
  refine relocate_bind (Operand.ofWindow_relocate f name rest) fun operand _ => ?_
  simp only [Token.value_relocate]
  cases found : Text.lookup? Kind.readers name.value with
  | none => rfl
  | some read =>
    obtain ⟨spelling, listed⟩ := Text.exists_mem_of_lookup? found
    exact Kind.readers_relocate f listed operand

/-- An **operator,** with the exclamation mark that negates it if there is one. -/
theorem read_relocate (w : Window) :
    Operator.read (relocate f w) = relocate f (Operator.read w) := by
  have rest : (if w.startsWith (.punct .exclamation) then relocate f (w.drop 1)
      else relocate f w) =
      relocate f (if w.startsWith (.punct .exclamation) then w.drop 1 else w) :=
    relocate_ite (fun _ => rfl) (fun _ => rfl)
  unfold Operator.read
  simp only [Window.startsWith_relocate, Window.position_relocate, Window.drop_relocate, rest,
    Window.text_relocate]
  refine relocate_ite (fun _ => ?_) (fun _ => rfl)
  exact relocate_bind (Kind.read_relocate f _) fun kind _ => rfl

end Operator

end WafRules
