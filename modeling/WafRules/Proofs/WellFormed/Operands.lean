import WafRules.Operator.Reader
import WafRules.Proofs.WellFormed
import WafRules.Selector.Reader

/-!
# Sound strings, selectors and operators

A reader checks its window where the kinds of tokens leave it a choice, and for the rest relies on
one fact about them: no token between the marks of an argument has an empty text.  From windows of
such tokens the readers of strings, of selectors and of operators give sound values only.

A reader hands the tokens it does not need to the next one, so what is proved of a reader is a pair
of facts: its value is sound, and the window it leaves is solid again.  The second one is what makes
the readers fit together, and every way to cut a window keeps it, since a part of a window has no
tokens but those of the window.

## Main Definitions

* `Yields` — a property of what a reader gives, if it gives anything.
* `Window.Solid` — windows without empty tokens.

## Main Statements

* `ExpandableString.readOnto_yields`, `ExpandableString.readValue_yields`.
* `Selector.readList_yields`.
* `Operator.read_yields`.
-/

namespace WafRules

/-! ### What readers give

`Yields` is the partial-correctness reading of a reader: nothing is said when it fails.  Failing is
the subject of other modules, and keeping it out of this one makes every lemma about sequences a
single line. -/

/-- Whether what a reader gives, if it gives anything, has a property. -/
def Yields {α : Type} (P : α → Prop) (result : Except SyntaxError α) : Prop :=
  ∀ a, result = .ok a → P a

namespace Yields

variable {α β : Type} {P : α → Prop} {Q : β → Prop}

/-- A reader that **gives a value** at once. -/
theorem ok {a : α} (holds : P a) : Yields P (.ok a) := by
  intro b same
  cases same
  exact holds

/-- A reader that **fails** gives nothing, so anything may be said of what it gives. -/
theorem error (e : SyntaxError) : Yields P (.error e) := by
  intro a impossible
  cases impossible

/-- A property of what a reader gives may be **weakened**. -/
theorem mono {R : α → Prop} {result : Except SyntaxError α} (yields : Yields P result)
    (implies : ∀ a, P a → R a) : Yields R result :=
  fun a read => implies a (yields a read)

/-- Two readers in sequence: the second may rely on what the first gives. -/
theorem bind {first : Except SyntaxError α} {second : α → Except SyntaxError β}
    (yields : Yields P first) (next : ∀ a, P a → Yields Q (second a)) :
    Yields Q (first >>= second) := by
  intro b read
  obtain ⟨a, readFirst, readSecond⟩ := bind_eq_ok_iff.mp read
  exact next a (yields a readFirst) b readSecond

/-- Two readers in sequence, where the second needs nothing of what the first gives. -/
theorem bind_of_forall {first : Except SyntaxError α} {second : α → Except SyntaxError β}
    (next : ∀ a, Yields Q (second a)) : Yields Q (first >>= second) :=
  bind (P := fun _ => True) (fun _ _ => trivial) fun a _ => next a

/-- A constructor behind a reader. -/
theorem map {result : Except SyntaxError α} {make : α → β} (yields : Yields P result)
    (implies : ∀ a, P a → Q (make a)) : Yields Q (make <$> result) := by
  cases result with
  | error e => exact error e
  | ok a => exact ok (implies a (yields a rfl))

/-- A constructor that asks nothing of what it is given. -/
theorem map_of_forall {result : Except SyntaxError α} {make : α → β}
    (sound : ∀ a, Q (make a)) : Yields Q (make <$> result) :=
  map (P := fun _ => True) (fun _ _ => trivial) fun a _ => sound a

/-- A choice between two readers. -/
theorem ite {condition : Prop} [Decidable condition] {first second : Except SyntaxError α}
    (yieldsFirst : condition → Yields P first) (yieldsSecond : ¬ condition → Yields P second) :
    Yields P (if condition then first else second) := by
  split
  · next holds => exact yieldsFirst holds
  · next fails => exact yieldsSecond fails

/-- A reader of each element of a list gives as many values as there are elements. -/
theorem mapM {γ : Type} {read : γ → Except SyntaxError α} (yields : ∀ c, Yields P (read c))
    (cs : List γ) :
    Yields (fun as => as.length = cs.length ∧ ∀ a ∈ as, P a) (cs.mapM read) := by
  induction cs with
  | nil => exact ok ⟨rfl, by simp⟩
  | cons c cs ih =>
    rw [List.mapM_cons]
    refine (yields c).bind fun a holds => ih.bind ?_
    rintro as ⟨sameLength, others⟩
    exact ok ⟨congrArg (· + 1) sameLength, List.forall_mem_cons.mpr ⟨holds, others⟩⟩

end Yields

/-! ### Windows

A window is solid when none of its tokens is empty.  That is all the lexer has to promise: it holds
of the words, blanks and marks between the marks of an argument, and every window a reader sees is
cut out of one of those. -/

namespace Window

/-- Whether every token of a window has a text. -/
def Solid (w : Window) : Prop := ∀ t ∈ w.tokens, t.value ≠ ""

/-- What is left **behind tokens** that were read. -/
theorem Solid.drop {w : Window} (solid : w.Solid) (n : Nat) : (w.drop n).Solid :=
  fun t member => solid t (List.mem_of_mem_drop member)

/-- A mark in front of a window may be dropped or not. -/
theorem Solid.ite_drop {w : Window} (solid : w.Solid) (condition : Bool) (n : Nat) :
    (if condition then w.drop n else w).Solid := by
  cases condition with
  | false => exact solid
  | true => exact solid.drop n

/-- What is left behind **blanks**. -/
theorem Solid.skipBlanks {w : Window} (solid : w.Solid) : w.skipBlanks.Solid :=
  fun t member => solid t (w.skipBlanks_suffix.subset member)

/-- The part in **front of a cut**.  The closing token is none of its tokens, so nothing is asked
of it. -/
theorem Solid.front {w : Window} (solid : w.Solid) (n : Nat) : (w.splitAt n).1.Solid :=
  fun t member => solid t (List.mem_of_mem_take member)

/-- The part **behind a cut**. -/
theorem Solid.back {w : Window} (solid : w.Solid) (n : Nat) : (w.splitAt n).2.Solid :=
  solid.drop n

/-- A window without the blanks **at its end**. -/
theorem Solid.trimEnd {w : Window} (solid : w.Solid) : w.trimEnd.Solid := solid.front _

/-- A token that has to be there **has a text**, as it is one of the window's. -/
theorem Solid.expect {w : Window} (solid : w.Solid) (kind : Token.Kind) (what : Expected) :
    Yields (fun result => result.1.value ≠ "" ∧ result.2.Solid) (w.expect kind what) := by
  rintro ⟨t, rest⟩ read
  obtain ⟨tokens, -, -⟩ := expect_eq_ok read
  have others : ∀ u ∈ t :: rest.tokens, u.value ≠ "" := by
    rw [← tokens]
    exact solid
  exact List.forall_mem_cons.mp others

/-- A **single word** has a text. -/
theorem Solid.singleWord {w : Window} (solid : w.Solid) (what : Expected) :
    Yields (fun t => t.value ≠ "") (w.singleWord what) := by
  refine (solid.expect .word what).bind ?_
  rintro ⟨t, rest⟩ ⟨value, -⟩
  intro found read
  obtain ⟨-, -, same⟩ := bind_eq_ok_iff.mp read
  cases same
  exact value

/-- A solid window that is not empty says something. -/
theorem Solid.text_ne_empty {w : Window} (solid : w.Solid) (nonempty : ¬ w.isEmpty = true) :
    w.text ≠ "" := by
  rcases w with ⟨_ | ⟨t, rest⟩, closing⟩
  · exact absurd rfl nonempty
  · intro empty
    have characters : t.value.toList ++ rest.flatMap (fun u => u.value.toList) = [] := by
      have none := congrArg String.toList empty
      simpa [text] using none
    exact solid t (by simp) (String.toList_eq_nil_iff.mp (List.append_eq_nil_iff.mp characters).1)

end Window

/-! ### Strings

Two things are to be kept while a string is read piece by piece: no literal part is empty, and no
two of them touch.  Text is only ever added at the end, so the last part is what both depend on. -/

namespace StringPart

/-- In a string of no parts none stand side by side. -/
theorem separated_nil : Separated [] := by
  intro first second inside
  cases List.infix_nil.mp inside

/-- One more piece at the end is next to the last one. -/
theorem separated_concat_iff {parts : List StringPart} {part : StringPart} :
    Separated (parts ++ [part]) ↔
      Separated parts ∧
        ∀ last, parts.getLast? = some last → ¬ (last.IsLiteral ∧ part.IsLiteral) := by
  constructor
  · intro separated
    refine ⟨fun first second inside => separated first second ?_, fun last isLast => ?_⟩
    · exact List.infix_concat_iff.mpr (.inr inside)
    · refine separated last part (List.infix_concat_iff.mpr (.inl ?_))
      refine List.suffix_concat_iff.mpr (.inr ⟨[last], rfl, ?_⟩)
      exact List.singleton_suffix_iff_getLast?_eq_some.mpr isLast
  · rintro ⟨separated, joint⟩ first second inside
    rcases List.infix_concat_iff.mp inside with atEnd | earlier
    · rcases List.suffix_concat_iff.mp atEnd with nothing | ⟨front, same, atEnd⟩
      · cases nothing
      · obtain ⟨rfl, last⟩ : [first] = front ∧ second = part := by
          simpa using List.append_inj' (show [first] ++ [second] = front ++ [part] from same) rfl
        rw [last]
        exact joint first (List.singleton_suffix_iff_getLast?_eq_some.mp atEnd)
    · exact separated first second earlier

end StringPart

namespace ExpandableString

/-- A text is put **behind the last part**, so the parts before it stay as they are. -/
theorem appendText_cons_of_ne_nil (text : String) (first : StringPart) {rest : List StringPart}
    (nonempty : rest ≠ []) : appendText text (first :: rest) = first :: appendText text rest := by
  cases rest with
  | nil => exact absurd rfl nonempty
  | cons second rest => cases first <;> rfl

/-- Only the last part counts for where a text goes. -/
theorem appendText_concat (text : String) (parts : List StringPart) (last : StringPart) :
    appendText text (parts ++ [last]) = parts ++ appendText text [last] := by
  induction parts with
  | nil => rfl
  | cons first parts ih =>
    have nonempty : parts ++ [last] ≠ [] := List.append_ne_nil_of_right_ne_nil parts (by simp)
    rw [List.cons_append, appendText_cons_of_ne_nil text first nonempty, ih]
    rfl

/-- Text joins a literal part at the end. -/
theorem appendText_literal (text last : String) (parts : List StringPart) :
    appendText text (parts ++ [.literal last]) = parts ++ [.literal (last ++ text)] :=
  appendText_concat text parts (.literal last)

/-- Text behind a reference is a part of its own. -/
theorem appendText_reference (text : String) (m : MacroRef) (parts : List StringPart) :
    appendText text (parts ++ [.reference m]) = parts ++ [.reference m, .literal text] :=
  appendText_concat text parts (.reference m)

/-- The **empty string** is sound: it has no part that could fail to be. -/
theorem wellFormed_empty : empty.WellFormed where
  parts := by
    intro part member
    cases member
  separated := StringPart.separated_nil

/-- A string **says something** once a text has been put behind it. -/
theorem pushLiteral_parts_ne_nil (s : ExpandableString) {text : String} (nonempty : text ≠ "") :
    (s.pushLiteral text).parts ≠ [] := by
  have filled : ¬ text.isEmpty = true := fun empty => nonempty (String.isEmpty_iff.mp empty)
  unfold pushLiteral
  rw [if_neg filled]
  fun_cases appendText text s.parts <;> exact List.cons_ne_nil _ _

/-- A reference may stand behind anything. -/
theorem WellFormed.pushMacro {s : ExpandableString} (sound : s.WellFormed) {m : MacroRef}
    (named : m.WellFormed) : (s.pushMacro m).WellFormed where
  parts := by
    intro part member
    rcases List.mem_append.mp member with before | last
    · exact sound.parts part before
    · rw [List.mem_singleton.mp last]
      exact named
  separated := by
    refine StringPart.separated_concat_iff.mpr ⟨sound.separated, ?_⟩
    rintro last - ⟨-, literal⟩
    exact literal

/-- Text is joined to a literal part and stands alone behind a reference.  The cases are those of
the last part, because that is where `appendText` makes its choice. -/
theorem WellFormed.pushLiteral {s : ExpandableString} (sound : s.WellFormed) (text : String) :
    (s.pushLiteral text).WellFormed := by
  unfold ExpandableString.pushLiteral
  split
  · exact sound
  · next filled =>
    have nonempty : text ≠ "" := fun empty => filled (String.isEmpty_iff.mpr empty)
    obtain ⟨parts⟩ := s
    obtain ⟨holds, separated⟩ := sound
    dsimp only at holds separated ⊢
    rcases List.eq_nil_or_concat parts with rfl | ⟨before, last, rfl⟩
    · refine ⟨?_, ?_⟩
      · intro part member
        rw [List.mem_singleton.mp member]
        exact nonempty
      · refine StringPart.separated_concat_iff.mpr ⟨StringPart.separated_nil, ?_⟩
        rintro last ⟨⟩
    · rw [List.concat_eq_append] at holds separated ⊢
      obtain ⟨apart, joint⟩ := StringPart.separated_concat_iff.mp separated
      obtain ⟨holdsBefore, holdsLast⟩ := List.forall_mem_append.mp holds
      cases last with
      | literal found =>
        -- the longer literal has the neighbour of the one it replaces
        rw [appendText_literal]
        constructor
        · refine List.forall_mem_append.mpr ⟨holdsBefore, ?_⟩
          intro part member
          rw [List.mem_singleton.mp member]
          intro empty
          exact nonempty (String.append_eq_empty_iff.mp empty).2
        · exact StringPart.separated_concat_iff.mpr ⟨apart, joint⟩
      | reference m =>
        rw [appendText_reference]
        constructor
        · refine List.forall_mem_append.mpr ⟨holdsBefore, List.forall_mem_cons.mpr ⟨?_, ?_⟩⟩
          · exact holdsLast _ (by simp)
          · intro part member
            rw [List.mem_singleton.mp member]
            exact nonempty
        · rw [List.append_cons]
          refine StringPart.separated_concat_iff.mpr ⟨separated, ?_⟩
          rintro last isLast ⟨literal, -⟩
          obtain rfl : StringPart.reference m = last := by simpa using isLast
          exact literal

end ExpandableString

/-- The key of a reference: a window that is not empty. -/
theorem MacroRef.readKey_yields {opening : Position} {collection : String} {body : Window}
    (named : collection ≠ "") (solid : body.Solid) :
    Yields (fun result => result.1.WellFormed ∧ result.2.Solid)
      (MacroRef.readKey opening collection body) := by
  unfold MacroRef.readKey
  cases body.index? (.punct .curlyClose) with
  | none => exact .error _
  | some close =>
    refine .ite (fun _ => .error _) fun nonempty => ?_
    split
    · exact .error _
    · refine .ok ⟨⟨(solid.front close).text_ne_empty nonempty, ?_⟩, (solid.back close).drop 1⟩
      exact fun same => named (Option.some.inj same)

/-- A **macro reference** has its names, and what follows it is solid. -/
theorem MacroRef.read_yields {w : Window} (solid : w.Solid) :
    Yields (fun result => result.1.WellFormed ∧ result.2.Solid) (MacroRef.read w) := by
  refine ((solid.drop 2).expect .word .macroName).bind ?_
  rintro ⟨name, rest⟩ ⟨named, solidRest⟩
  refine .ite (fun _ => readKey_yields named (solidRest.drop 1)) fun _ => ?_
  refine (solidRest.expect (.punct .curlyClose) .macroEnd).bind ?_
  rintro ⟨close, after⟩ ⟨-, solidAfter⟩
  exact .ok ⟨⟨named, by simp⟩, solidAfter⟩

namespace ExpandableString

/-- A **string read from a window** behind another one.  It says something if the other one does or
the window is not empty. -/
theorem readOnto_yields {s : ExpandableString} {w : Window} (sound : s.WellFormed)
    (solid : w.Solid) :
    Yields (fun read => read.WellFormed ∧ (s.parts ≠ [] ∨ ¬ w.isEmpty = true → read.parts ≠ []))
      (readOnto s w) := by
  -- once a part is read the string so far says something, and keeps doing so to the end
  fun_induction readOnto s w with
  | case1 s w starts m rest read ih =>
    obtain ⟨named, solidRest⟩ := MacroRef.read_yields solid _ read
    refine (ih (sound.pushMacro named) solidRest).mono ?_
    rintro found ⟨foundSound, filled⟩
    exact ⟨foundSound, fun _ => filled (.inl (by simp [pushMacro]))⟩
  | case2 s w starts e read => exact .error e
  | case3 s w plain nothing =>
    refine .ok ⟨sound, ?_⟩
    rintro (filled | nonempty)
    · exact filled
    · exact absurd (by simp [Window.isEmpty, nothing]) nonempty
  | case4 s w plain t rest tokens ih =>
    have solidTokens : ∀ u ∈ t :: rest, u.value ≠ "" := by
      rw [← tokens]
      exact solid
    obtain ⟨value, others⟩ := List.forall_mem_cons.mp solidTokens
    refine (ih (sound.pushLiteral t.value) others).mono ?_
    rintro found ⟨foundSound, filled⟩
    exact ⟨foundSound, fun _ => filled (.inl (pushLiteral_parts_ne_nil s value))⟩

/-- A **string read from a window** by itself. -/
theorem read_yields {w : Window} (solid : w.Solid) :
    Yields (fun read => read.WellFormed ∧ (¬ w.isEmpty = true → read.parts ≠ []))
      (ExpandableString.read w) := by
  refine (readOnto_yields wellFormed_empty solid).mono ?_
  rintro read ⟨sound, filled⟩
  exact ⟨sound, fun nonempty => filled (.inr nonempty)⟩

/-- Dropping backslashes before quotes leaves the quotes. -/
theorem unescapeQuotes_ne_nil {cs : List Char} (nonempty : cs ≠ []) : unescapeQuotes cs ≠ [] := by
  fun_cases unescapeQuotes cs with
  | case1 | case2 => exact List.cons_ne_nil _ _
  | case3 => exact absurd rfl nonempty

/-- A part is **sound when unescaped**: a backslash is only dropped where a quote follows it. -/
theorem unescapePart_wellFormed {part : StringPart} (sound : part.WellFormed) :
    (unescapePart part).WellFormed := by
  cases part with
  | reference m => exact sound
  | literal text =>
    intro empty
    have none : unescapeQuotes text.toList = [] := String.ofList_eq_empty_iff.mp empty
    exact unescapeQuotes_ne_nil (fun nil => sound (String.toList_eq_nil_iff.mp nil)) none

/-- Unescaping a part leaves it **of its kind**, so parts that do not touch still do not. -/
theorem isLiteral_unescapePart (part : StringPart) :
    (unescapePart part).IsLiteral ↔ part.IsLiteral := by
  cases part <;> exact Iff.rfl

/-- The **string in the value of an action.**  Quotes are unescaped piece by piece, so no piece is
emptied and none is joined to another. -/
theorem readValue_yields {w : Window} (solid : w.Solid) :
    Yields (fun read => read.WellFormed ∧ (¬ w.isEmpty = true → read.parts ≠ []))
      (readValue w) := by
  refine (read_yields solid).bind ?_
  rintro ⟨parts⟩ ⟨⟨sound, separated⟩, filled⟩
  refine .ok ⟨⟨?_, ?_⟩, fun nonempty => by simpa using filled nonempty⟩
  · intro part member
    obtain ⟨original, before, rfl⟩ := List.mem_map.mp member
    exact unescapePart_wellFormed (sound original before)
  · intro first second inside
    obtain ⟨pair, original, same⟩ := List.infix_map_iff.mp inside
    rcases pair with _ | ⟨first', _ | ⟨second', _ | ⟨third, rest⟩⟩⟩
    case cons.cons.nil =>
      obtain ⟨rfl, rfl⟩ : first = unescapePart first' ∧ second = unescapePart second' := by
        simpa using same
      rw [isLiteral_unescapePart, isLiteral_unescapePart]
      exact separated first' second' original
    all_goals cases same

/-- A window that is not empty holds a string that says something. -/
theorem readValue_filled {w : Window} (solid : w.Solid) (nonempty : ¬ w.isEmpty = true) :
    Yields ExpandableString.Filled (readValue w) := by
  refine (readValue_yields solid).mono ?_
  rintro read ⟨sound, filled⟩
  exact ⟨sound, filled nonempty⟩

end ExpandableString

/-! ### Selectors

The checks of these readers are about what a selector may not be, so most of the proofs pass a check
on to the property it was made for. -/

/-- A **variable by its name** is the built-in one where there is one of that name, so a user's
collection is never called like one. -/
theorem Variable.ofName_wellFormed {name : String} (named : name ≠ "") :
    (Variable.ofName name).WellFormed := by
  cases found : Variable.ofName name with
  | builtIn v => trivial
  | user collection =>
    obtain ⟨rfl, unknown⟩ := (Variable.ofName_eq_user_iff name collection).mp found
    exact ⟨named, unknown⟩

namespace MemberPattern

/-- A **key** has a text, as it takes all tokens of a window that is not empty. -/
theorem readKey_yields {w : Window} (solid : w.Solid) :
    Yields MemberPattern.WellFormed (readKey w) := by
  refine .ite (fun _ => .error _) fun nonempty => .ok ?_
  exact solid.text_ne_empty nonempty

/-- A key **without quotes**. -/
theorem readBareKey_yields {w : Window} (solid : w.Solid) :
    Yields (fun result => result.1.WellFormed ∧ result.2.Solid) (readBareKey w) := by
  refine (readKey_yields (solid.front _)).bind fun pattern sound => .ok ⟨sound, ?_⟩
  exact solid.back _

/-- A **regular expression** has a text: the reader refuses one that has none. -/
theorem readRegex_yields {opening : Position} {body : Window} (solid : body.Solid) :
    Yields (fun result => result.1.WellFormed ∧ result.2.Solid) (readRegex opening body) := by
  unfold readRegex
  cases closingSlash? body.tokens with
  | none => exact .error _
  | some close =>
    refine .ite (fun _ => .error _) fun nonempty => .ok ⟨?_, (solid.back close).drop 1⟩
    exact (solid.front close).text_ne_empty nonempty

/-- What stands **inside quotes**. -/
theorem readInner_yields {inner : Window} (solid : inner.Solid) :
    Yields MemberPattern.WellFormed (readInner inner) := by
  refine .ite (fun _ => ?_) fun _ => readKey_yields solid
  refine (readRegex_yields (solid.drop 1)).bind ?_
  rintro ⟨pattern, rest⟩ ⟨sound, -⟩
  intro found read
  obtain ⟨-, -, same⟩ := bind_eq_ok_iff.mp read
  cases same
  exact sound

/-- A member **in quotes**. -/
theorem readQuoted_yields {opening : Position} {body : Window} (solid : body.Solid) :
    Yields (fun result => result.1.WellFormed ∧ result.2.Solid) (readQuoted opening body) := by
  unfold readQuoted
  cases body.index? (.punct .singleQuote) with
  | none => exact .error _
  | some close =>
    refine (readInner_yields (solid.front close)).bind fun pattern sound => .ok ⟨sound, ?_⟩
    exact (solid.back close).drop 1

/-- The **member of a collection**, in any of its forms. -/
theorem read_yields {subject : Variable} {w : Window} (solid : w.Solid) :
    Yields (fun result => result.1.WellFormed ∧ result.2.Solid)
      (MemberPattern.read subject w) := by
  refine .ite (fun _ => readQuoted_yields (solid.drop 1)) fun _ => ?_
  exact .ite (fun _ => readRegex_yields (solid.drop 1)) fun _ => readBareKey_yields solid

end MemberPattern

namespace Selector

/-- The **sign** in front of a selector asks for nothing, and leaves a solid window. -/
theorem readMode_yields {w : Window} (solid : w.Solid) :
    Yields (fun result => result.2.Solid) (readMode w) := by
  have signed (mode : SelectorMode) :
      Yields (fun result => result.2.Solid) (onlySign mode (w.drop 1)) :=
    .ite (fun _ => .error _) fun _ => .ok (solid.drop 1)
  refine .ite (fun _ => signed .remove) fun _ => ?_
  exact .ite (fun _ => signed .count) fun _ => .ok solid

/-- A **selector** picks members of collections only. -/
theorem read_yields {w : Window} (solid : w.Solid) :
    Yields (fun result => result.1.WellFormed ∧ result.2.Solid) (Selector.read w) := by
  refine (readMode_yields solid).bind ?_
  rintro ⟨mode, afterMode⟩ solidMode
  refine (Window.Solid.expect solidMode .word .variableName).bind ?_
  rintro ⟨name, afterName⟩ ⟨named, solidName⟩
  have subject := Variable.ofName_wellFormed named
  refine .ite (fun _ => ?_) fun _ => .ok ⟨⟨subject, by simp⟩, solidName⟩
  refine .ite (fun collection => ?_) fun _ => .error _
  refine (MemberPattern.read_yields (solidName.drop 1)).bind ?_
  rintro ⟨pattern, rest⟩ ⟨sound, solidRest⟩
  refine .ok ⟨⟨subject, ?_⟩, solidRest⟩
  intro other same
  obtain rfl : pattern = other := Option.some.inj same
  exact ⟨collection, sound⟩

/-- The selectors that are read **behind those that are there**.  A list of selectors is never
empty, as the reader reads one before it looks for the end. -/
theorem readOnto_yields {before : Array Selector} {w : Window}
    (sound : ∀ s ∈ before, s.WellFormed) (solid : w.Solid) :
    Yields (fun selectors => selectors ≠ [] ∧ ∀ s ∈ selectors, s.WellFormed)
      (readOnto before w) := by
  fun_induction readOnto before w with
  | case1 before w e read => exact .error e
  | case2 before w selector rest read selectors ended =>
    have all := Array.forall_mem_push.mpr ⟨(read_yields solid _ read).1, sound⟩
    refine .ok ⟨by simp [selectors], fun s member => all s ?_⟩
    exact Array.mem_toList_iff.mp member
  | case3 before w selector rest read goesOn e bar => exact .error e
  | case4 before w selector rest read selectors goesOn separator after bar ih =>
    obtain ⟨selectorSound, solidRest⟩ := read_yields solid _ read
    obtain ⟨-, solidAfter⟩ := solidRest.skipBlanks.expect _ _ _ bar
    exact ih (Array.forall_mem_push.mpr ⟨selectorSound, sound⟩) solidAfter.skipBlanks

/-- The **selectors of a rule.** -/
theorem readList_yields {w : Window} (solid : w.Solid) :
    Yields (fun selectors => selectors ≠ [] ∧ ∀ s ∈ selectors, s.WellFormed) (readList w) :=
  readOnto_yields (by simp) solid.skipBlanks

end Selector

/-! ### Operators

Some operators ask for more than a text: the argument of a comparison says something, and the
items of a list are at least one.  The bounds of a range of bytes are compared by the reader. -/

/-- A single byte value, or one up to another that is not smaller. -/
theorem ByteRange.read?_wellFormed {cs : List Char} {r : ByteRange}
    (read : ByteRange.read? cs = some r) : r.WellFormed := by
  obtain ⟨first, -, read⟩ := Option.bind_eq_some_iff.mp read
  obtain ⟨last, readLast, read⟩ := Option.bind_eq_some_iff.mp read
  have bounded : last ≤ 255 := by
    simpa using (Option.filter_eq_some_iff.mp readLast).2
  split at read
  · next ordered =>
    cases read
    exact ⟨ordered, bounded⟩
  · cases read

namespace Operand

/-- What follows the **name of an operator** is solid. -/
theorem ofWindow_yields (name : Token) {w : Window} (solid : w.Solid) :
    Yields (fun operand => operand.window.Solid) (ofWindow name w) := by
  refine .ite (fun _ => .ok solid) fun _ => ?_
  exact .ite (fun _ => .ok (solid.drop 1)) fun _ => .error _

/-- Something is left of an **expandable argument** even where it is blanks alone, because the
blanks after the first one are its text. -/
theorem expandable_yields {o : Operand} (solid : o.window.Solid) :
    Yields ExpandableString.Filled o.expandable := by
  refine .ite (fun _ => .error _) fun present => ?_
  have sound : (ExpandableString.ofText o.leading).WellFormed :=
    ExpandableString.wellFormed_empty.pushLiteral o.leading
  refine (ExpandableString.readOnto_yields sound solid).mono ?_
  rintro read ⟨readSound, filled⟩
  refine ⟨readSound, filled ?_⟩
  -- what the reader refuses is an argument with neither leading blanks nor tokens
  by_cases leading : o.leading = ""
  · refine .inr fun empty => present ⟨by simp [leading], empty⟩
  · exact .inl (ExpandableString.pushLiteral_parts_ne_nil _ leading)

/-- A list of **items** has one at least, as a text has one field at least. -/
theorem items_yields {α : Type} {P : α → Prop} (o : Operand) (what : ListItem)
    {read? : List Char → Option α} (sound : ∀ cs a, read? cs = some a → P a) :
    Yields (fun values => values ≠ [] ∧ ∀ a ∈ values, P a) (o.items what read?) := by
  refine Yields.bind_of_forall fun w => ?_
  refine (Yields.mapM (P := P) (fun field => ?_) (Text.fields ',' w.text.toList)).mono ?_
  · cases found : read? (Text.trimList field) with
    | none => simpa [found] using Yields.error _
    | some value => simpa [found] using Yields.ok (sound _ value found)
  · rintro values ⟨sameLength, holds⟩
    refine ⟨fun nil => ?_, holds⟩
    rw [nil] at sameLength
    exact Text.fields_ne_nil _ _ (List.length_eq_zero_iff.mp sameLength.symm)

end Operand

namespace Operator

/-- Every reader of an argument gives a sound operator. -/
theorem Kind.readers_yields {name : String} {read : Kind.Reader}
    (listed : (name, read) ∈ Kind.readers) {o : Operand} (solid : o.window.Solid) :
    Yields Kind.WellFormed (read o) := by
  simp only [readers, List.mem_append, List.mem_cons, List.mem_map, Prod.mk.injEq,
    List.not_mem_nil, or_false] at listed
  rcases listed with (listed | ⟨how, -, -, rfl⟩) | ⟨what, -, -, rfl⟩
  · rcases listed with ⟨-, rfl⟩ | ⟨-, rfl⟩ | ⟨-, rfl⟩ | ⟨-, rfl⟩ | ⟨-, rfl⟩ | ⟨-, rfl⟩ |
      ⟨-, rfl⟩ | ⟨-, rfl⟩ | ⟨-, rfl⟩
    · exact .map_of_forall fun _ => trivial
    · exact .map_of_forall fun _ => trivial
    · exact .map_of_forall fun _ => trivial
    · exact .map_of_forall fun _ => trivial
    · exact (o.items_yields (P := fun _ => True) .address fun _ _ _ => trivial).map
        fun networks holds => holds.1
    · exact .map_of_forall fun _ => trivial
    · exact .map_of_forall fun _ => trivial
    · exact .map_of_forall fun _ => trivial
    · exact (o.items_yields .byteRange fun _ _ => ByteRange.read?_wellFormed).map
        fun ranges holds => holds
  · exact (Operand.expandable_yields solid).map fun argument filled => filled
  · exact .map_of_forall fun _ => trivial

/-- What an operator with a **written name** tests is sound. -/
theorem Kind.read_yields {w : Window} (solid : w.Solid) :
    Yields Kind.WellFormed (Kind.read w) := by
  refine (solid.expect .word .operatorName).bind ?_
  rintro ⟨name, rest⟩ ⟨-, solidRest⟩
  refine (Operand.ofWindow_yields name solidRest).bind fun operand solidOperand => ?_
  cases found : Text.lookup? Kind.readers name.value with
  | none => exact .error _
  | some read =>
    obtain ⟨spelling, listed⟩ := Text.exists_mem_of_lookup? found
    exact Kind.readers_yields listed solidOperand

/-- The **operator of a rule.** -/
theorem read_yields {w : Window} (solid : w.Solid) :
    Yields (fun operator => operator.kind.WellFormed) (Operator.read w) := by
  have solidRest := solid.ite_drop (w.startsWith (.punct .exclamation)) 1
  refine .ite (fun _ => ?_) fun _ => .ok trivial
  exact (Kind.read_yields (solidRest.drop 1)).bind fun kind sound => .ok sound

end Operator

end WafRules
