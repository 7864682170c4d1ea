import WafRules.Directive
import WafRules.Proofs.WellFormed.Operands

/-!
# Faults

A reader that gives no value reports a fault.  A fault has a place, which is that of a token in
the window of the reader or of the token that closes it, and it has a cause.  Readers hand parts
of their windows to each other, and every part is made of tokens of the whole; so is the token that
closes a part, because a window is cut at one of its own tokens.

Some causes are there for completeness alone: no text makes a reader report them.  Readers keep
away from them one by one, and the names in the causes they do report are those of the language,
wherever a message begins with such a name.

## Main Definitions

* `Expected.Arises`, `SyntaxCause.Arises` — the causes that readers report.
* `SyntaxError.FaultAmong` — a fault at one of given tokens.
* `Answers` — a reader that gives a value with a property, or else reports a fault.
* `Reports` — a reader whose value does not matter.
* `Window.Among` — windows made of given tokens.

## Main Statements

* `Answers.bind`, `Answers.mapM` — readers in sequence.
* `Window.Among.expect`, `Window.Among.singleWord` — the elementary readers.
-/

namespace WafRules

/-! ### Causes

Which causes arise is decided here once for all readers.  A lemma about a reader has to show that
its causes are among them, so a cause that is left out here by mistake would make a lemma fail. -/

/-- The names of the switches. -/
def switchNames : List String :=
  ["SecRequestBodyAccess", "SecResponseBodyAccess", "forceRequestBodyVariable",
    "requestBodyAccess"]

/-- Whether some reader looks for a thing in vain.  Between the entries of a text nothing else is
left over, and its arguments are closed. -/
def Expected.Arises : Expected → Prop
  | item | argumentEnd => False
  | switchValue name => name ∈ switchNames
  | endOf what => what.Arises
  | _ => True

/-- Whether some reader reports a cause.  The level of a severity is checked before it is looked
up. -/
def SyntaxCause.Arises : SyntaxCause → Prop
  | expected what _ | invalidValue what _ => what.Arises
  | argumentCount name _ _ _ => ∃ keyword : Directive.Keyword, name = keyword.spelling
  | notACollection name => ∃ subject : BuiltIn, name = subject.name
  | actionTakesNothing name | actionNeedsValue name | notANumeral name _ | outOfRange name _ _ _ =>
    ∃ keyword : Action.Keyword, Text.sameKeyword keyword.spelling name = true
  | invalidSeverity _ => False
  | _ => True

/-- A fault at one of given tokens. -/
structure SyntaxError.FaultAmong (tokens : List Token) (e : SyntaxError) : Prop where
  placed : e.position ∈ tokens.map Token.position
  arises : e.cause.Arises

/-! ### What readers answer

A reader that answers gives a value with a property or reports a fault at one of the tokens; both
are carried through sequences together, since the second reader may need the property for its
faults. -/

/-- Whether what a reader gives has a property, and what it reports is a fault at one of given
tokens. -/
structure Answers {α : Type} (tokens : List Token) (P : α → Prop)
    (result : Except SyntaxError α) : Prop where
  gives : Yields P result
  reports : ∀ e, result = .error e → e.FaultAmong tokens

namespace Answers

variable {α β : Type} {tokens : List Token} {P : α → Prop} {Q : β → Prop}

/-- A reader that **gives a value** at once. -/
theorem ok {a : α} (holds : P a) : Answers tokens P (.ok a) := ⟨.ok holds, nofun⟩

/-- A reader that **reports a fault** at one of the tokens. -/
theorem error {e : SyntaxError} (fault : e.FaultAmong tokens) :
    Answers tokens P (.error e : Except SyntaxError α) := by
  refine ⟨.error e, ?_⟩
  intro found same
  cases same
  exact fault

/-- A property of what a reader gives may be **weakened**; its faults stay where they are. -/
theorem mono {R : α → Prop} {result : Except SyntaxError α} (answers : Answers tokens P result)
    (implies : ∀ a, P a → R a) : Answers tokens R result :=
  ⟨answers.gives.mono implies, answers.reports⟩

/-- Two readers in sequence: the second may rely on what the first gives. -/
theorem bind {first : Except SyntaxError α} {second : α → Except SyntaxError β}
    (answers : Answers tokens P first) (next : ∀ a, P a → Answers tokens Q (second a)) :
    Answers tokens Q (first >>= second) := by
  cases first with
  | error e => exact error (answers.reports e rfl)
  | ok a => exact next a (answers.gives a rfl)

/-- A choice between two readers. -/
theorem ite {condition : Prop} [Decidable condition] {first second : Except SyntaxError α}
    (answersFirst : condition → Answers tokens P first)
    (answersSecond : ¬ condition → Answers tokens P second) :
    Answers tokens P (if condition then first else second) := by
  split
  · next holds => exact answersFirst holds
  · next fails => exact answersSecond fails

/-- A reader of each element of a list. -/
theorem mapM {γ : Type} {read : γ → Except SyntaxError α}
    (answers : ∀ c, Answers tokens P (read c)) (cs : List γ) :
    Answers tokens (fun as => ∀ a ∈ as, P a) (cs.mapM read) := by
  induction cs with
  | nil => exact ok (by simp)
  | cons c cs ih =>
    rw [List.mapM_cons]
    refine (answers c).bind fun a holds => ih.bind fun as others => ok ?_
    exact List.forall_mem_cons.mpr ⟨holds, others⟩

end Answers

/-- Whether all that a reader reports are faults at one of given tokens, whatever it gives. -/
abbrev Reports {α : Type} (tokens : List Token) (result : Except SyntaxError α) : Prop :=
  Answers tokens (fun _ => True) result

/-- A constructor behind a reader. -/
theorem Reports.map {α β : Type} {tokens : List Token} {result : Except SyntaxError α}
    (reports : Reports tokens result) {make : α → β} : Reports tokens (make <$> result) := by
  cases result with
  | error e => exact .error (reports.reports e rfl)
  | ok a => exact .ok trivial

/-! ### Windows

Every window that readers hand to each other is made of tokens of the first one, the closing token
included.  Its own start is then at one of the tokens as well, which is where most faults are
put. -/

namespace Window

/-- Whether the tokens of a window, and the one that closes it, are among given ones. -/
structure Among (tokens : List Token) (w : Window) : Prop where
  inside : w.tokens ⊆ tokens
  closing : w.closing ∈ tokens

variable {tokens : List Token} {w : Window}

/-- A window may lose tokens and keep the one that closes it. -/
theorem Among.of_subset (among : w.Among tokens) {fewer : List Token} (part : fewer ⊆ w.tokens) :
    Among tokens ⟨fewer, w.closing⟩ :=
  ⟨List.Subset.trans part among.inside, among.closing⟩

/-- What is left **behind tokens** that were read. -/
theorem Among.drop (among : w.Among tokens) (n : Nat) : (w.drop n).Among tokens :=
  among.of_subset (w.drop_suffix n).subset

/-- A mark in front of a window may be dropped or not. -/
theorem Among.ite_drop (among : w.Among tokens) (condition : Bool) (n : Nat) :
    (if condition then w.drop n else w).Among tokens := by
  cases condition with
  | false => exact among
  | true => exact among.drop n

/-- What is left behind tokens of **given kinds**. -/
theorem Among.dropKinds (among : w.Among tokens) (kinds : List Token.Kind) :
    (w.dropKinds kinds).Among tokens :=
  among.of_subset (List.dropWhile_suffix _).subset

/-- What is left behind **blanks**. -/
theorem Among.skipBlanks (among : w.Among tokens) : w.skipBlanks.Among tokens :=
  among.dropKinds _

/-- A reader is at a token of its window, or at the one that closes it. -/
theorem Among.first (among : w.Among tokens) : w.first ∈ tokens := by
  obtain ⟨own, closing⟩ := w
  cases own with
  | nil => exact among.closing
  | cons t rest => exact among.inside List.mem_cons_self

/-- What stands before an index is closed by the token at that index. -/
theorem Among.front (among : w.Among tokens) (n : Nat) : (w.splitAt n).1.Among tokens :=
  ⟨List.Subset.trans (List.take_subset n w.tokens) among.inside, (among.drop n).first⟩

/-- What stands **behind an index** is closed as the whole is. -/
theorem Among.back (among : w.Among tokens) (n : Nat) : (w.splitAt n).2.Among tokens :=
  among.drop n

/-- A window without the **blanks at its end**, closed by the first of them. -/
theorem Among.trimEnd (among : w.Among tokens) : w.trimEnd.Among tokens := among.front _

/-- A fault **where a reader is** is at one of the tokens. -/
theorem Among.position (among : w.Among tokens) : w.position ∈ tokens.map Token.position :=
  List.mem_map_of_mem among.first

/-- A thing that is missing is reported where the reader is. -/
theorem Among.unexpected (among : w.Among tokens) {what : Expected} (arises : what.Arises) :
    (unexpected what w.first).FaultAmong tokens :=
  ⟨among.position, arises⟩

/-- A token that **has to be there**, or a fault that names what was found in its place. -/
theorem Among.expect (among : w.Among tokens) (kind : Token.Kind) (what : Expected)
    (arises : what.Arises) :
    Answers tokens (fun result => result.1 ∈ tokens ∧ result.2.Among tokens)
      (w.expect kind what) :=
  .ite (fun _ => .ok ⟨among.first, among.drop 1⟩) fun _ => .error (among.unexpected arises)

/-- A window that has to be **at its end**. -/
theorem Among.finish (among : w.Among tokens) (what : Expected) (arises : what.Arises) :
    Reports tokens (w.finish what) :=
  .ite (fun _ => .ok trivial) fun _ => .error (among.unexpected arises)

/-- A window that has to be a **single word**. -/
theorem Among.singleWord (among : w.Among tokens) (what : Expected) (arises : what.Arises) :
    Answers tokens (fun t => t ∈ tokens) (w.singleWord what) := by
  refine (among.expect .word what arises).bind ?_
  rintro ⟨t, rest⟩ ⟨member, amongRest⟩
  exact (amongRest.finish what arises).bind fun _ _ => .ok member

end Window

end WafRules
