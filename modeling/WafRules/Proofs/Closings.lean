import WafRules.Action.Reader
import WafRules.Proofs.Relocation.Operands

/-!
# Closing tokens

A window is closed by the token behind it, and a reader that looks for one more token finds the
closing one.  It is there for diagnostics: which value a window holds, and whether it holds one, is
a matter of its own tokens.  The parts into which a window is cut are closed by tokens of their
own, so this is shown for two windows with the same tokens and their own closing tokens, for one
reader after the other, up to the values of actions.

What the closing tokens have in common decides what the errors have in common, since a reader puts
nothing of a closing token into an error but the lexeme it found and the place.  So the readers are
compared for any `Likeness` of closing tokens and errors that allows for that.  Three uses share
the lemmas in this way: any closing tokens at all (`Likeness.any`), marks of an argument whose texts
differ, and one closing token in the place of another.

Each lemma below is about one reader and follows its definition: a test of the first token has the
same outcome on both sides, a place to cut at is looked for by kind and is found at the same index,
the two parts are alike again, and an error is made of the first token or of a place.  A reader
that leaves tokens over returns its value and the rest; the values are equal and the rests are
alike, which is what the relation in the statement says.

## Main Definitions

* `Likeness` — which closing tokens, and which errors, are taken to be alike.
* `Window.Alike` — windows with the same tokens and closing tokens that are alike.
* `Agree` — results that are both values, and related, or both errors, and alike.

## Main Statements

* `ExpandableString.readValue_agree`, `Selector.read_agree`, `CtlOption.read_agree` — strings,
  selectors and control options.
* `Action.ofValue_agree` — the values of actions.
-/

namespace WafRules

/-! ### Results

`Agree` is what is proved of every reader.  It is kept by sequencing and by case distinctions, so a
proof about a reader repeats the shape of its definition, with `Agree.bind` where the reader has a
`do` step and `Agree.ite` where it has a condition. -/

/-- Which closing tokens, and which errors, are taken to be **alike** when windows are compared.
An error takes a lexeme or a place from the token that a reader finds. -/
structure Likeness where
  closing : Token → Token → Prop
  error : SyntaxError → SyntaxError → Prop
  closing_refl : ∀ t, closing t t
  error_refl : ∀ e, error e e
  unexpected : ∀ (what : Expected) {t t' : Token}, closing t t' →
    error (WafRules.unexpected what t) (WafRules.unexpected what t')
  place : ∀ (cause : SyntaxCause) {t t' : Token}, closing t t' →
    error ⟨cause, t.position⟩ ⟨cause, t'.position⟩

/-- Any closing tokens are alike, and any errors. -/
def Likeness.any : Likeness where
  closing _ _ := True
  error _ _ := True
  closing_refl _ := trivial
  error_refl _ := trivial
  unexpected _ _ _ _ := trivial
  place _ _ _ _ := trivial

/-- Whether two results **agree**: both are values, which are related, or both are errors, which are
alike. -/
inductive Agree (L : Likeness) {α β : Type} (R : α → β → Prop) :
    Except SyntaxError α → Except SyntaxError β → Prop
  | ok {a : α} {b : β} (related : R a b) : Agree L R (.ok a) (.ok b)
  | error {e e' : SyntaxError} (alike : L.error e e') : Agree L R (.error e) (.error e')

variable {L : Likeness}

namespace Agree

variable {α β γ δ : Type} {R : α → β → Prop} {S : γ → δ → Prop}

/-- A result **agrees with itself**.  That the likeness of errors is reflexive is there for this. -/
theorem refl {result : Except SyntaxError α} : Agree L Eq result result := by
  cases result with
  | ok a => exact .ok rfl
  | error e => exact .error (L.error_refl e)

/-- Readers in sequence. -/
theorem bind {first : Except SyntaxError α} {first' : Except SyntaxError β}
    {second : α → Except SyntaxError γ} {second' : β → Except SyntaxError δ}
    (agree : Agree L R first first') (next : ∀ a b, R a b → Agree L S (second a) (second' b)) :
    Agree L S (first >>= second) (first' >>= second') := by
  cases agree with
  | ok related => exact next _ _ related
  | error alike => exact .error alike

/-- Values **made of related ones**, when the two ways to make them keep the relation. -/
theorem map {make : α → γ} {make' : β → δ} {result : Except SyntaxError α}
    {result' : Except SyntaxError β} (agree : Agree L R result result')
    (made : ∀ a b, R a b → S (make a) (make' b)) :
    Agree L S (make <$> result) (make' <$> result') := by
  cases agree with
  | ok related => exact .ok (made _ _ related)
  | error alike => exact .error alike

/-- A reader whose value is made of another's is told apart by no more than that. -/
theorem map_eq {make : α → γ} {result result' : Except SyntaxError α}
    (agree : Agree L Eq result result') : Agree L Eq (make <$> result) (make <$> result') :=
  agree.map fun _ _ same => congrArg make same

/-- A **case distinction** that comes out the same on both sides, and each of its branches. -/
theorem ite {condition condition' : Prop} [Decidable condition] [Decidable condition']
    {first second : Except SyntaxError α} {first' second' : Except SyntaxError β}
    (same : condition ↔ condition') (yes : condition → Agree L R first first')
    (no : ¬ condition → Agree L R second second') :
    Agree L R (if condition then first else second) (if condition' then first' else second') := by
  by_cases holds : condition
  · rw [if_pos holds, if_pos (same.mp holds)]
    exact yes holds
  · rw [if_neg holds, if_neg (mt same.mpr holds)]
    exact no holds

/-- A value on one side is one on the other. -/
theorem exists_ok {result : Except SyntaxError α} {result' : Except SyntaxError β} {a : α}
    (agree : Agree L R result result') (read : result = .ok a) :
    ∃ b, result' = .ok b ∧ R a b := by
  subst read
  cases agree with
  | ok related => exact ⟨_, rfl, related⟩

/-- An error on one side is one on the other. -/
theorem exists_error {result : Except SyntaxError α} {result' : Except SyntaxError β}
    {e : SyntaxError} (agree : Agree L R result result') (failed : result = .error e) :
    ∃ e', result' = .error e' ∧ L.error e e' := by
  subst failed
  cases agree with
  | error alike => exact ⟨_, rfl, alike⟩

end Agree

/-! ### Windows

Everything a reader asks of a window, asked of two windows with the same tokens.  The two elementary
readers stand at the end, because all errors about a missing token come from them. -/

namespace Window

/-- Whether windows have the same tokens and are closed by tokens that are alike. -/
structure Alike (L : Likeness) (w w' : Window) : Prop where
  tokens : w.tokens = w'.tokens
  closing : L.closing w.closing w'.closing

namespace Alike

variable {w w' : Window}

/-- Whether the **first token** has a kind is a matter of the tokens. -/
theorem startsWith (alike : w.Alike L w') (kind : Token.Kind) :
    w.startsWith kind = true ↔ w'.startsWith kind = true := by
  rw [Window.startsWith, Window.startsWith, alike.tokens]

/-- Whether a window is **empty** is a matter of the tokens. -/
theorem isEmpty (alike : w.Alike L w') : w.isEmpty = true ↔ w'.isEmpty = true := by
  rw [Window.isEmpty, Window.isEmpty, alike.tokens]

/-- The **text** of a window is that of its tokens; the closing token is no part of it. -/
theorem text (alike : w.Alike L w') : w.text = w'.text := by
  rw [Window.text, Window.text, alike.tokens]

/-- The first token of a kind is at the **same index**. -/
theorem index? (alike : w.Alike L w') (kind : Token.Kind) : w.index? kind = w'.index? kind :=
  congrArg (List.findIdx? _) alike.tokens

/-- The same for the first token of a kind that is no part of a macro reference. -/
theorem indexOutsideMacros? (alike : w.Alike L w') (kind : Token.Kind) :
    w.indexOutsideMacros? kind = w'.indexOutsideMacros? kind :=
  congrArg (indexAtDepth? kind 0) alike.tokens

/-- What is **left behind** tokens that were read is closed as before. -/
theorem drop (alike : w.Alike L w') (n : Nat) : (w.drop n).Alike L (w'.drop n) :=
  ⟨congrArg (List.drop n) alike.tokens, alike.closing⟩

theorem dropKinds (alike : w.Alike L w') (kinds : List Token.Kind) :
    (w.dropKinds kinds).Alike L (w'.dropKinds kinds) :=
  ⟨congrArg (List.dropWhile _) alike.tokens, alike.closing⟩

/-- The window behind the **blanks at its start**. -/
theorem skipBlanks (alike : w.Alike L w') : w.skipBlanks.Alike L w'.skipBlanks :=
  alike.dropKinds [.blanks]

/-- The first token of a window, or else the closing one. -/
theorem first (alike : w.Alike L w') : L.closing w.first w'.first := by
  rw [Window.first, Window.first, alike.tokens]
  cases w'.tokens with
  | nil => exact alike.closing
  | cons t tokens => exact L.closing_refl t

/-- An error where the window starts. -/
theorem place (alike : w.Alike L w') (cause : SyntaxCause) :
    L.error ⟨cause, w.position⟩ ⟨cause, w'.position⟩ := L.place cause alike.first

/-- A part of a window is closed by a token of the window, or else by the closing one. -/
theorem front (alike : w.Alike L w') (n : Nat) : (w.splitAt n).1.Alike L (w'.splitAt n).1 :=
  ⟨congrArg (List.take n) alike.tokens, (alike.drop n).first⟩

/-- The part behind a cut is closed as the whole is. -/
theorem back (alike : w.Alike L w') (n : Nat) : (w.splitAt n).2.Alike L (w'.splitAt n).2 :=
  alike.drop n

/-- The window without the **blanks at its end**, which is closed by the first of them. -/
theorem trimEnd (alike : w.Alike L w') : w.trimEnd.Alike L w'.trimEnd := by
  rw [Window.trimEnd, Window.trimEnd, alike.tokens]
  exact alike.front _

/-- A window with a token begins where that token is. -/
theorem position (alike : w.Alike L w') (nonempty : ¬ w.isEmpty = true) :
    w.position = w'.position := by
  obtain ⟨tokens, closing⟩ := w
  obtain ⟨tokens', closing'⟩ := w'
  obtain rfl : tokens = tokens' := alike.tokens
  cases tokens with
  | nil => exact absurd rfl nonempty
  | cons t tokens => rfl

/-- A token of a **kind that has to be there**, and the window behind it.  The tokens are equal and
not only alike: one that was read is a token of the window and never the closing one. -/
theorem expect (alike : w.Alike L w') (kind : Token.Kind) (what : Expected) :
    Agree L (fun read read' => read.1 = read'.1 ∧ read.2.Alike L read'.2) (w.expect kind what)
      (w'.expect kind what) := by
  refine .ite (alike.startsWith _) (fun starts => .ok ⟨?_, alike.drop 1⟩)
    fun _ => .error (L.unexpected what alike.first)
  obtain ⟨t, rest, tokens, -⟩ := tokens_of_startsWith starts
  have tokens' : w'.tokens = t :: rest := alike.tokens.symm.trans tokens
  rw [Window.first, Window.first, tokens, tokens']
  rfl

/-- A window that has to be **at its end**: the error names the token that is left over. -/
theorem finish (alike : w.Alike L w') (what : Expected) :
    Agree L Eq (w.finish what) (w'.finish what) :=
  .ite alike.isEmpty (fun _ => .ok rfl) fun _ => .error (L.unexpected _ alike.first)

/-- A window that has to be a **single word**. -/
theorem singleWord (alike : w.Alike L w') (what : Expected) :
    Agree L Eq (w.singleWord what) (w'.singleWord what) := by
  refine (alike.expect .word what).bind ?_
  rintro ⟨t, rest⟩ ⟨t', rest'⟩ ⟨rfl, alikeRest⟩
  exact (alikeRest.finish what).bind fun _ _ _ => .ok rfl

end Alike

end Window

variable {w w' : Window}

/-! ### Strings

References are the only part of a string that can be refused.  A brace that is missing is reported
where the reference opens, which is a place in both windows and is handed from one reader to the
next. -/

/-- The **key of a reference**.  An error about its end is put where the reference opens, a place
that the caller hands in, so the two places are given with errors that are alike. -/
theorem MacroRef.readKey_agree (alike : w.Alike L w') {opening opening' : Position}
    (near : ∀ cause, L.error ⟨cause, opening⟩ ⟨cause, opening'⟩) (collection : String) :
    Agree L (fun read read' => read.1 = read'.1 ∧ read.2.Alike L read'.2)
      (MacroRef.readKey opening collection w) (MacroRef.readKey opening' collection w') := by
  unfold MacroRef.readKey
  rw [alike.index?]
  cases w'.index? (.punct .curlyClose) with
  | none => exact .error (near _)
  | some close =>
    have key := alike.front close
    refine .ite key.isEmpty (fun _ => .error (key.place _)) fun _ => ?_
    have tokens : w.tokens.take close = w'.tokens.take close := key.tokens
    dsimp only
    rw [tokens]
    cases invalidKeyToken? (w'.tokens.take close) with
    | some t => exact .error (L.error_refl _)
    | none => exact .ok ⟨rfl, (alike.back close).drop 1⟩

/-- A **macro reference** is read from the tokens up to its closing brace. -/
theorem MacroRef.read_agree (alike : w.Alike L w') :
    Agree L (fun read read' => read.1 = read'.1 ∧ read.2.Alike L read'.2) (MacroRef.read w)
      (MacroRef.read w') := by
  refine ((alike.drop 2).expect .word .macroName).bind ?_
  rintro ⟨name, rest⟩ ⟨name', rest'⟩ ⟨rfl, alikeRest⟩
  refine .ite (alikeRest.startsWith _) (fun _ => readKey_agree (alikeRest.drop 1) alike.place _)
    fun _ => ?_
  refine (alikeRest.expect (.punct .curlyClose) .macroEnd).bind ?_
  rintro ⟨close, last⟩ ⟨close', last'⟩ ⟨-, alikeLast⟩
  exact .ok ⟨rfl, alikeLast⟩

namespace ExpandableString

/-- Whether a reference starts here is decided by two tokens of the window. -/
theorem startsMacro_alike (alike : w.Alike L w') : startsMacro w = startsMacro w' := by
  rw [startsMacro, startsMacro, alike.tokens]

/-- A text with references, **read onto** one that is already there.  The induction is on the
reader's own recursion: a reference or a token is taken off both windows at once. -/
theorem readOnto_agree (s : ExpandableString) (alike : w.Alike L w') :
    Agree L Eq (readOnto s w) (readOnto s w') := by
  fun_induction readOnto s w generalizing w' with
  | case1 s w starts m rest read ih =>
    rw [readOnto_eq s w', ← startsMacro_alike alike, if_pos starts]
    obtain ⟨⟨m', rest'⟩, read', rfl, alikeRest⟩ := (MacroRef.read_agree alike).exists_ok read
    rw [read']
    exact ih alikeRest
  | case2 s w starts e read =>
    rw [readOnto_eq s w', ← startsMacro_alike alike, if_pos starts]
    have agree := MacroRef.read_agree alike
    rw [read] at agree
    obtain ⟨e', read', alikeErrors⟩ := agree.exists_error rfl
    rw [read']
    exact .error alikeErrors
  | case3 s w plain empty =>
    have empty' : w'.tokens = [] := alike.tokens.symm.trans empty
    rw [readOnto_eq s w', ← startsMacro_alike alike, if_neg plain, empty']
    exact .ok rfl
  | case4 s w plain t rest tokens ih =>
    have tokens' : w'.tokens = t :: rest := alike.tokens.symm.trans tokens
    rw [readOnto_eq s w', ← startsMacro_alike alike, if_neg plain, tokens']
    exact ih ⟨rfl, alike.closing⟩

/-- The **value of an action**, a text with references. -/
theorem readValue_agree (alike : w.Alike L w') : Agree L Eq (readValue w) (readValue w') := by
  refine (readOnto_agree empty alike).bind ?_
  rintro s _ rfl
  exact .ok rfl

end ExpandableString

/-! ### Selectors

A selector leaves the rest of its window to the bar behind it, so these readers return a window
beside their value.  Its place is the one thing in it that comes from a token directly. -/

namespace MemberPattern

/-- A **key** takes all tokens of its window as text. -/
theorem readKey_agree (alike : w.Alike L w') : Agree L Eq (readKey w) (readKey w') :=
  .ite alike.isEmpty (fun _ => .error (L.unexpected _ alike.first)) fun _ =>
    .ok (congrArg key alike.text)

/-- A key **without quotes** reaches to the first token that cannot be part of it. -/
theorem readBareKey_agree (alike : w.Alike L w') :
    Agree L (fun read read' => read.1 = read'.1 ∧ read.2.Alike L read'.2) (readBareKey w)
      (readBareKey w') := by
  unfold readBareKey
  rw [alike.tokens]
  refine (readKey_agree (alike.front _)).bind ?_
  rintro m _ rfl
  exact .ok ⟨rfl, alike.back _⟩

/-- A **regular expression** reaches to its closing slash; without one, the error is put where it
opens, as it is for a reference that is not closed. -/
theorem readRegex_agree (alike : w.Alike L w') {opening opening' : Position}
    (near : ∀ cause, L.error ⟨cause, opening⟩ ⟨cause, opening'⟩) :
    Agree L (fun read read' => read.1 = read'.1 ∧ read.2.Alike L read'.2) (readRegex opening w)
      (readRegex opening' w') := by
  unfold readRegex
  rw [alike.tokens]
  cases closingSlash? w'.tokens with
  | none => exact .error (near _)
  | some close =>
    have pattern := alike.front close
    exact .ite pattern.isEmpty (fun _ => .error (near _)) fun _ =>
      .ok ⟨congrArg regex pattern.text, (alike.back close).drop 1⟩

/-- What stands **inside single quotes**: a regular expression that fills them, or a key. -/
theorem readInner_agree (alike : w.Alike L w') : Agree L Eq (readInner w) (readInner w') := by
  refine .ite (alike.startsWith _) (fun _ => ?_) fun _ => readKey_agree alike
  refine (readRegex_agree (alike.drop 1) alike.place).bind ?_
  rintro ⟨pattern, rest⟩ ⟨pattern', rest'⟩ ⟨rfl, alikeRest⟩
  exact (alikeRest.finish .quotedRegex).bind fun _ _ _ => .ok rfl

/-- A member **in single quotes**, whose window is cut at the closing quote. -/
theorem readQuoted_agree (alike : w.Alike L w') {opening opening' : Position}
    (near : ∀ cause, L.error ⟨cause, opening⟩ ⟨cause, opening'⟩) :
    Agree L (fun read read' => read.1 = read'.1 ∧ read.2.Alike L read'.2) (readQuoted opening w)
      (readQuoted opening' w') := by
  unfold readQuoted
  rw [alike.index?]
  cases w'.index? (.punct .singleQuote) with
  | none => exact .error (near _)
  | some close =>
    refine (readInner_agree (alike.front close)).bind ?_
    rintro m _ rfl
    exact .ok ⟨rfl, (alike.back close).drop 1⟩

/-- The **member of a collection**, in quotes, as a regular expression or as a key. -/
theorem read_agree (alike : w.Alike L w') (subject : Variable) :
    Agree L (fun read read' => read.1 = read'.1 ∧ read.2.Alike L read'.2)
      (MemberPattern.read subject w) (MemberPattern.read subject w') := by
  refine .ite (alike.startsWith _) (fun _ => readQuoted_agree (alike.drop 1) alike.place)
    fun _ => ?_
  exact .ite (and_congr_left' (alike.startsWith _))
    (fun _ => readRegex_agree (alike.drop 1) alike.place) fun _ => readBareKey_agree alike

end MemberPattern

namespace Selector

/-- The **sign in front** of a selector, for counting or leaving out.  Only one is allowed, so the
token behind it is looked at as well. -/
theorem readMode_agree (alike : w.Alike L w') :
    Agree L (fun read read' => read.1 = read'.1 ∧ read.2.Alike L read'.2) (readMode w)
      (readMode w') := by
  have sign (mode : SelectorMode) :
      Agree L (fun read read' => read.1 = read'.1 ∧ read.2.Alike L read'.2)
        (onlySign mode (w.drop 1)) (onlySign mode (w'.drop 1)) := by
    have rest := alike.drop 1
    exact .ite (or_congr (rest.startsWith _) (rest.startsWith _))
      (fun _ => .error (rest.place _)) fun _ => .ok ⟨rfl, rest⟩
  exact .ite (alike.startsWith _) (fun _ => sign .remove) fun _ =>
    .ite (alike.startsWith _) (fun _ => sign .count) fun _ => .ok ⟨rfl, alike⟩

/-- A **selector** is the same whatever closes its window; it stands where its first token does. -/
theorem read_agree (alike : w.Alike L w') :
    Agree L (fun read read' => read.1 = read'.1 ∧ read.2.Alike L read'.2) (Selector.read w)
      (Selector.read w') := by
  by_cases empty : w.isEmpty = true
  · obtain ⟨tokens, closing⟩ := w
  -- An empty window is the one case in which the selector's place is that of the closing token; the
  -- reader fails there anyway, so in the other case the places are equal and not only alike.
    obtain ⟨tokens', closing'⟩ := w'
    obtain rfl : tokens = tokens' := alike.tokens
    obtain rfl : tokens = [] := List.isEmpty_iff.mp empty
    exact .error (L.unexpected _ alike.closing)
  · have position := alike.position empty
    refine (readMode_agree alike).bind ?_
    rintro ⟨mode, rest⟩ ⟨mode', rest'⟩ ⟨rfl, alikeRest⟩
    refine (alikeRest.expect .word .variableName).bind ?_
    rintro ⟨name, after⟩ ⟨name', after'⟩ ⟨rfl, alikeAfter⟩
    dsimp only
    refine .ite (alikeAfter.startsWith _) (fun _ => ?_) fun _ => ?_
    · refine .ite Iff.rfl (fun _ => ?_) fun _ => .error (alikeAfter.place _)
      refine (MemberPattern.read_agree (alikeAfter.drop 1) _).bind ?_
      rintro ⟨member, last⟩ ⟨member', last'⟩ ⟨rfl, alikeLast⟩
      rw [position]
      exact .ok ⟨rfl, alikeLast⟩
    · rw [position]
      exact .ok ⟨rfl, alikeAfter⟩

end Selector

/-! ### Settings and control options

Most values of control options are a single word from a table, and one lemma about tables covers
them.  The others divide their window, or read a selector or a range of ids from it. -/

namespace Setting

/-- A **word of a setting**, with blanks around it left out. -/
theorem readWord_agree (alike : w.Alike L w') (what : Expected) :
    Agree L Eq (readWord what w) (readWord what w') :=
  alike.skipBlanks.trimEnd.singleWord what

/-- A setting that is **one of a few words**, for any table of them. -/
theorem readKeyword_agree {α : Type} (alike : w.Alike L w') (what : Expected)
    (ofName? : String → Option α) :
    Agree L Eq (readKeyword what ofName? w) (readKeyword what ofName? w') := by
  refine (readWord_agree alike what).bind ?_
  rintro t _ rfl
  exact .refl

/-- The **letters of the audit log parts**. -/
theorem readAuditLogParts_agree (alike : w.Alike L w') :
    Agree L Eq (readAuditLogParts w) (readAuditLogParts w') := by
  refine (readWord_agree alike .auditLogParts).bind ?_
  rintro t _ rfl
  exact .refl

end Setting

/-- A **range of ids**, which is read from the text of the window. -/
theorem IdRange.read_agree (alike : w.Alike L w') :
    Agree L Eq (IdRange.read w) (IdRange.read w') := by
  unfold IdRange.read
  rw [alike.text]
  cases IdRange.read? w'.text.toList with
  | none => exact .error (alike.place _)
  | some r => exact .ok rfl

namespace CtlOption

/-- A **tag** is any text that is not empty. -/
theorem readTag_agree (alike : w.Alike L w') : Agree L Eq (readTag w) (readTag w') :=
  .ite alike.isEmpty (fun _ => .error (L.unexpected _ alike.first)) fun _ => .ok alike.text

/-- A value that is **divided at a semicolon** into two windows. -/
theorem splitTarget_agree (alike : w.Alike L w') :
    Agree L (fun parts parts' => parts.1.Alike L parts'.1 ∧ parts.2.Alike L parts'.2)
      (splitTarget w) (splitTarget w') := by
  unfold splitTarget
  rw [alike.index?]
  cases w'.index? (.punct .semicolon) with
  | none => exact .error (alike.place _)
  | some semicolon => exact .ok ⟨alike.front semicolon, (alike.back semicolon).drop 1⟩

/-- The **target** of an option is one selector that fills its window. -/
theorem readTarget_agree (alike : w.Alike L w') : Agree L Eq (readTarget w) (readTarget w') := by
  refine (Selector.read_agree alike).bind ?_
  rintro ⟨target, rest⟩ ⟨target', rest'⟩ ⟨rfl, alikeRest⟩
  exact (alikeRest.finish .ctlTarget).bind fun _ _ _ => .ok rfl

/-- The **parts** an option sets, adds or removes.  The sign in front is looked at twice over, once
for each of the two signs, and what is behind it is read in the same way. -/
theorem readParts_agree (alike : w.Alike L w') : Agree L Eq (readParts w) (readParts w') := by
  have letters (change : PartsChange) {rest rest' : Window} (alikeRest : rest.Alike L rest') :
      Agree L Eq (do return auditLogParts change (← Setting.readAuditLogParts rest))
        (do return auditLogParts change (← Setting.readAuditLogParts rest')) := by
    refine (Setting.readAuditLogParts_agree alikeRest).bind ?_
    rintro parts _ rfl
    exact .ok rfl
  have plus := alike.startsWith (.punct .plus)
  have minus := alike.startsWith (.punct .minus)
  unfold readParts
  by_cases adds : w.startsWith (.punct .plus) = true
  · simp only [adds, plus.mp adds, if_true]
    exact letters .add (alike.drop 1)
  · by_cases removes : w.startsWith (.punct .minus) = true
    · simp only [adds, mt plus.mpr adds, removes, minus.mp removes, if_true]
      exact letters .remove (alike.drop 1)
    · simp only [adds, mt plus.mpr adds, removes, mt minus.mpr removes]
      exact letters .set alike

/-- The **body processor** is a single word. -/
theorem readProcessor_agree (alike : w.Alike L w') :
    Agree L Eq (readProcessor w) (readProcessor w') := by
  refine (alike.singleWord .bodyProcessor).bind ?_
  rintro t _ rfl
  exact .refl

/-- Ids and the target that is removed for them. -/
theorem readTargetById_agree (alike : w.Alike L w') :
    Agree L Eq (readTargetById w) (readTargetById w') := by
  refine (splitTarget_agree alike).bind ?_
  rintro ⟨ids, target⟩ ⟨ids', target'⟩ ⟨alikeIds, alikeTarget⟩
  refine (IdRange.read_agree alikeIds).bind ?_
  rintro r _ rfl
  refine (readTarget_agree alikeTarget).bind ?_
  rintro t _ rfl
  exact .ok rfl

/-- A tag and the target that is removed for it. -/
theorem readTargetByTag_agree (alike : w.Alike L w') :
    Agree L Eq (readTargetByTag w) (readTargetByTag w') := by
  refine (splitTarget_agree alike).bind ?_
  rintro ⟨tag, target⟩ ⟨tag', target'⟩ ⟨alikeTag, alikeTarget⟩
  refine (readTag_agree alikeTag).bind ?_
  rintro r _ rfl
  refine (readTarget_agree alikeTarget).bind ?_
  rintro t _ rfl
  exact .ok rfl

/-- Each reader in the **table of control options**. -/
theorem readers_agree {name : String} {read : Window → Except SyntaxError CtlOption}
    (listed : (name, read) ∈ readers) (alike : w.Alike L w') : Agree L Eq (read w) (read w') := by
  simp only [readers, List.mem_cons, Prod.mk.injEq, List.not_mem_nil, or_false] at listed
  rcases listed with ⟨-, rfl⟩ | ⟨-, rfl⟩ | ⟨-, rfl⟩ | ⟨-, rfl⟩ | ⟨-, rfl⟩ | ⟨-, rfl⟩ | ⟨-, rfl⟩ |
    ⟨-, rfl⟩ | ⟨-, rfl⟩ | ⟨-, rfl⟩
  · exact (Setting.readKeyword_agree alike _ _).map_eq
  · exact readParts_agree alike
  · exact (Setting.readKeyword_agree alike _ _).map_eq
  · exact (Setting.readKeyword_agree alike _ _).map_eq
  · exact readProcessor_agree alike
  · exact (Setting.readKeyword_agree alike _ _).map_eq
  · exact (IdRange.read_agree alike).map_eq
  · exact (readTag_agree alike).map_eq
  · exact readTargetById_agree alike
  · exact readTargetByTag_agree alike

/-- A **control option** is the same whatever closes its window. -/
theorem read_agree (alike : w.Alike L w') : Agree L Eq (CtlOption.read w) (CtlOption.read w') := by
  refine (alike.expect .word .ctlOption).bind ?_
  rintro ⟨name, rest⟩ ⟨name', rest'⟩ ⟨rfl, alikeRest⟩
  refine (alikeRest.expect (.punct .equals) .ctlValue).bind ?_
  rintro ⟨equals, value⟩ ⟨equals', value'⟩ ⟨-, alikeValue⟩
  dsimp only
  cases found : Text.lookup? readers name.value with
  | none => exact .error (L.error_refl _)
  | some read =>
    obtain ⟨spelling, listed⟩ := Text.exists_mem_of_lookup? found
    exact readers_agree listed alikeValue

end CtlOption

/-! ### Values of actions

The value of an action may be absent, so the relation between windows is lifted to values that may
be absent.  Which reader is used depends on the keyword alone, and that is the same on both
sides. -/

/-- A **member** of a collection as actions write it, with the collection and the name divided at
the first dot that stands outside a reference. -/
theorem Member.read_agree (alike : w.Alike L w') (action : VariableAction) :
    Agree L Eq (Member.read action w) (Member.read action w') := by
  unfold Member.read
  rw [alike.indexOutsideMacros?]
  cases w'.indexOutsideMacros? (.punct .dot) with
  | none => exact .error (alike.place _)
  | some dot =>
    have collection := alike.front dot
    have name := (alike.back dot).drop 1
    refine .ite collection.isEmpty (fun _ => .error (L.unexpected _ collection.first)) fun _ => ?_
    refine .ite name.isEmpty (fun _ => .error (L.unexpected _ name.first)) fun _ => ?_
    refine (ExpandableString.readValue_agree collection).bind ?_
    rintro c _ rfl
    refine (ExpandableString.readValue_agree name).bind ?_
    rintro n _ rfl
    exact .ok rfl

namespace VarChange

/-- An **amount** is a text with references that is not empty. -/
theorem readAmount_agree (alike : w.Alike L w') : Agree L Eq (readAmount w) (readAmount w') :=
  .ite alike.isEmpty (fun _ => .error (L.unexpected _ alike.first)) fun _ =>
    ExpandableString.readValue_agree alike

/-- How a variable **changes**: by an amount behind a sign, or to a text. -/
theorem read_agree (alike : w.Alike L w') : Agree L Eq (VarChange.read w) (VarChange.read w') :=
  .ite (alike.startsWith _) (fun _ => (readAmount_agree (alike.drop 1)).map_eq) fun _ =>
    .ite (alike.startsWith _) (fun _ => (readAmount_agree (alike.drop 1)).map_eq) fun _ =>
      (ExpandableString.readValue_agree alike).map_eq

end VarChange

/-- The **parts of an assignment**, divided at the first equals sign that stands outside a
reference.  Without one there is no second part, on either side. -/
theorem SetVar.splitAssignment_agree (alike : w.Alike L w') :
    (splitAssignment w).1.Alike L (splitAssignment w').1 ∧
      Option.Rel (Window.Alike L) (splitAssignment w).2 (splitAssignment w').2 := by
  unfold splitAssignment
  rw [alike.indexOutsideMacros?]
  cases w'.indexOutsideMacros? (.punct .equals) with
  | none => exact ⟨alike, .none⟩
  | some equals => exact ⟨alike.front equals, .some (alike.back equals)⟩

/-- A **`setvar`** value.  The reader takes a mark in front off before it divides what is left, so
both windows are brought to the same side of the mark first. -/
theorem SetVar.read_agree (alike : w.Alike L w') : Agree L Eq (SetVar.read w) (SetVar.read w') := by
  have deleted : w.startsWith (.punct .exclamation) = w'.startsWith (.punct .exclamation) :=
    Bool.eq_iff_iff.mpr (alike.startsWith _)
  have rest : (if w'.startsWith (.punct .exclamation) then w.drop 1 else w).Alike L
      (if w'.startsWith (.punct .exclamation) then w'.drop 1 else w') := by
    split
    · exact alike.drop 1
    · exact alike
  have parts := splitAssignment_agree rest
  unfold SetVar.read
  dsimp only
  rw [deleted]
  revert parts
  rcases splitAssignment _ with ⟨target, assignment⟩
  rcases splitAssignment _ with ⟨target', assignment'⟩
  rintro ⟨alikeTarget, alikeAssignment⟩
  refine (Member.read_agree alikeTarget .setVar).bind ?_
  rintro member _ rfl
  dsimp only at alikeAssignment ⊢
  cases alikeAssignment with
  | none => exact .ok rfl
  | some assigned =>
    refine .ite Iff.rfl (fun _ => .error (assigned.place _)) fun _ => ?_
    refine (VarChange.read_agree (assigned.drop 1)).bind ?_
    rintro change _ rfl
    exact .ok rfl

/-- An **`expirevar`** value: a member and the text for its seconds. -/
theorem ExpireVar.read_agree (alike : w.Alike L w') :
    Agree L Eq (ExpireVar.read w) (ExpireVar.read w') := by
  unfold ExpireVar.read
  rw [alike.indexOutsideMacros?]
  cases w'.indexOutsideMacros? (.punct .equals) with
  | none => exact .error (alike.place _)
  | some equals =>
    have seconds := (alike.back equals).drop 1
    refine (Member.read_agree (alike.front equals) .expireVar).bind ?_
    rintro member _ rfl
    refine .ite seconds.isEmpty (fun _ => .error (L.unexpected _ seconds.first)) fun _ => ?_
    refine (ExpandableString.readValue_agree seconds).bind ?_
    rintro time _ rfl
    exact .ok rfl

/-- An **`initcol`** value: the name of a collection and the text for its key. -/
theorem InitCol.read_agree (alike : w.Alike L w') :
    Agree L Eq (InitCol.read w) (InitCol.read w') := by
  unfold InitCol.read
  rw [alike.index?]
  cases w'.index? (.punct .equals) with
  | none => exact .error (alike.place _)
  | some equals =>
    have key := (alike.back equals).drop 1
    refine ((alike.front equals).singleWord .collectionName).bind ?_
    rintro collection _ rfl
    refine .ite key.isEmpty (fun _ => .error (L.unexpected _ key.first)) fun _ => ?_
    refine (ExpandableString.readValue_agree key).bind ?_
    rintro text _ rfl
    exact .ok rfl

namespace ActionValue

/-- A **number** in its bounds, read from the text of the window. -/
theorem readNumeral_agree (alike : w.Alike L w') (name : String) (least most : Nat) :
    Agree L Eq (readNumeral name least most w) (readNumeral name least most w') := by
  unfold readNumeral
  rw [alike.text]
  cases Text.Decimal.read? w'.text.toList with
  | none => exact .error (alike.place _)
  | some n => exact .ite Iff.rfl (fun _ => .ok rfl) fun _ => .error (alike.place _)

variable {value value' : Option Window}

/-- A value that **has to be there**.  The likeness is for values that may be absent, and asks for
both to be absent or both to be there. -/
theorem required_agree (alike : Option.Rel (Window.Alike L) value value') (name : Token) :
    Agree L (Window.Alike L) (required ⟨name, value⟩) (required ⟨name, value'⟩) := by
  cases alike with
  | none => exact .error (L.error_refl _)
  | some alike => exact .ok alike

/-- A value that **must not be there**; the error is put at the value. -/
theorem absent_agree (alike : Option.Rel (Window.Alike L) value value') (name : Token) :
    Agree L Eq (absent ⟨name, value⟩) (absent ⟨name, value'⟩) := by
  cases alike with
  | none => exact .ok rfl
  | some alike => exact .error (alike.place _)

/-- A **phase**, by name or by number. -/
theorem phase_agree (alike : Option.Rel (Window.Alike L) value value') (name : Token) :
    Agree L Eq (phase ⟨name, value⟩) (phase ⟨name, value'⟩) := by
  refine (required_agree alike name).bind fun w w' alike => ?_
  rw [alike.text]
  cases Text.lookup? phaseNames w'.text with
  | some phase => exact .ok rfl
  | none => exact readNumeral_agree alike _ _ _

/-- A **severity**, by name or by number. -/
theorem severity_agree (alike : Option.Rel (Window.Alike L) value value') (name : Token) :
    Agree L Eq (severity ⟨name, value⟩) (severity ⟨name, value'⟩) := by
  refine (required_agree alike name).bind fun w w' alike => ?_
  rw [alike.text]
  cases Severity.ofName? w'.text with
  | some severity => exact .ok rfl
  | none =>
    refine (readNumeral_agree alike _ _ _).bind ?_
    rintro level _ rfl
    exact .refl

/-- The name of a **transformation**. -/
theorem transform_agree (alike : Option.Rel (Window.Alike L) value value') (name : Token) :
    Agree L Eq (transform ⟨name, value⟩) (transform ⟨name, value'⟩) := by
  refine (required_agree alike name).bind fun w w' alike => ?_
  refine (alike.singleWord .transformName).bind ?_
  rintro token _ rfl
  exact .refl

end ActionValue

/-- The **value of an action** is the same whatever closes its window.  One case for each shape of
value, by the lemma about its reader. -/
theorem Action.ofValue_agree {value value' : Option Window}
    (alike : Option.Rel (Window.Alike L) value value') (keyword : Keyword) (name : Token) :
    Agree L Eq (ofValue keyword ⟨name, value⟩) (ofValue keyword ⟨name, value'⟩) := by
  have required := ActionValue.required_agree alike name
  cases keyword with
  | flag which => exact (ActionValue.absent_agree alike name).map_eq
  | text which =>
    exact Agree.map_eq (required.bind fun _ _ alike => ExpandableString.readValue_agree alike)
  | number which =>
    exact Agree.map_eq (required.bind fun _ _ alike => ActionValue.readNumeral_agree alike _ _ _)
  | label which =>
    refine Agree.map_eq (required.bind fun w w' alike => ?_)
    rw [alike.text]
    exact .refl
  | phase => exact (ActionValue.phase_agree alike name).map_eq
  | severity => exact (ActionValue.severity_agree alike name).map_eq
  | transform => exact (ActionValue.transform_agree alike name).map_eq
  | setVar =>
    exact required.bind fun _ _ alike =>
      (SetVar.read_agree alike).bind fun _ _ same => same ▸ .refl
  | expireVar =>
    exact required.bind fun _ _ alike =>
      (ExpireVar.read_agree alike).bind fun _ _ same => same ▸ .refl
  | initCol =>
    exact required.bind fun _ _ alike =>
      (InitCol.read_agree alike).bind fun _ _ same => same ▸ .refl
  | ctl =>
    exact required.bind fun _ _ alike =>
      (CtlOption.read_agree alike).bind fun _ _ same => same ▸ .refl

end WafRules
