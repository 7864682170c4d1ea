import WafRules.Proofs.Closings.Arguments

/-!
# The ends of windows

A reader that looks past the tokens of its window finds the closing token.  Two readers need not ask
whether there is a token before they look at its kind: the one of the sign before a variable and the
one of the sign before audit log parts.  In an empty window they would take the closing token for a
sign.  That has no consequence, because a window is no shorter without the token that closes it, and
what has to follow the sign is missing with it as it is without it (`Selector.peek_eq_read`,
`CtlOption.peekParts_eq_readParts`).

So a closing token has one place to show up in, which is an error at the end of the window.  This
is the likeness of closing tokens that `Likeness.exchange` describes, and the readers of arguments
agree for it as they do for every other.

## Main Definitions

* `Selector.peek`, `CtlOption.peekParts` — readers that take a closing token for a sign.
* `Likeness.exchange` — errors that differ by one closing token in the place of another.

## Main Statements

* `Window.read_agree_of_tokens` — which token closes a window is not told by what is read from it.
-/

namespace WafRules

/-! ### Closing tokens that are taken for signs -/

namespace Selector

/-- The sign before a variable, which the closing token may be **taken for**. -/
def peekMode (w : Window) : Except SyntaxError (SelectorMode × Window) :=
  if w.first.isKind (.punct .exclamation) then onlySign .remove (w.drop 1)
  else if w.first.isKind (.punct .ampersand) then onlySign .count (w.drop 1)
  else .ok (.add, w)

/-- What follows the sign of a selector that starts at a place. -/
def readSigned (position : Position) :
    SelectorMode × Window → Except SyntaxError (Selector × Window)
  | (mode, w) => do
    let (name, rest) ← w.expect .word .variableName
    let subject := Variable.ofName name.value
    if rest.startsWith (.punct .colon) then
      if subject.isCollection then
        let (member, rest) ← MemberPattern.read subject (rest.drop 1)
        return (⟨mode, subject, some member, position⟩, rest)
      else
        throw ⟨.notACollection subject.name, rest.position⟩
    else
      return (⟨mode, subject, none, position⟩, rest)

/-- One selector, whose sign the closing token may be taken for. -/
def peek (w : Window) : Except SyntaxError (Selector × Window) :=
  peekMode w >>= readSigned w.position

theorem read_eq_bind (w : Window) : Selector.read w = readMode w >>= readSigned w.position := rfl

/-- An empty window has no variable, whatever its sign is taken to be. -/
theorem readSigned_empty (position : Position) (mode : SelectorMode) (e : Token) :
    readSigned position (mode, ⟨[], e⟩) = .error (unexpected .variableName e) := rfl

/-- A sign in an empty window leaves it empty. -/
theorem peekMode_empty (e : Token) : ∃ mode, peekMode ⟨[], e⟩ = .ok (mode, ⟨[], e⟩) := by
  by_cases removes : e.isKind (.punct .exclamation) = true
  · exact ⟨.remove, if_pos removes⟩
  · by_cases counts : e.isKind (.punct .ampersand) = true
    · exact ⟨.count, (if_neg removes).trans (if_pos counts)⟩
    · exact ⟨.add, (if_neg removes).trans (if_neg counts)⟩

/-- A **closing token that is taken for a sign** changes nothing. -/
theorem peek_eq_read (w : Window) : peek w = Selector.read w := by
  rw [read_eq_bind]
  obtain ⟨tokens, e⟩ := w
  cases tokens with
  | nil =>
    obtain ⟨mode, peeked⟩ := peekMode_empty e
    rw [peek, peeked]
    exact readSigned_empty e.position mode e
  | cons t tokens => rfl

end Selector

namespace CtlOption

/-- The sign before audit log parts, which the closing token may be **taken for**. -/
def peekChange (w : Window) : PartsChange × Window :=
  if w.first.isKind (.punct .plus) then (.add, w.drop 1)
  else if w.first.isKind (.punct .minus) then (.remove, w.drop 1)
  else (.set, w)

/-- Audit log parts, whose sign the closing token may be taken for. -/
def peekParts (w : Window) : Except SyntaxError CtlOption :=
  auditLogParts (peekChange w).1 <$> Setting.readAuditLogParts (peekChange w).2

/-- A sign in an empty window leaves it empty. -/
theorem peekChange_empty (e : Token) : (peekChange ⟨[], e⟩).2 = ⟨[], e⟩ := by
  unfold peekChange
  split_ifs
  · rfl
  · rfl
  · rfl

/-- An empty window has no audit log parts, whatever its sign is taken to be. -/
theorem peekParts_empty (e : Token) :
    peekParts ⟨[], e⟩ = .error (unexpected .auditLogParts e) := by
  rw [peekParts, peekChange_empty]
  rfl

/-- A **closing token that is taken for a sign** changes nothing. -/
theorem peekParts_eq_readParts (w : Window) : peekParts w = readParts w := by
  obtain ⟨tokens, e⟩ := w
  cases tokens with
  | nil => exact peekParts_empty e
  | cons t tokens => rfl

end CtlOption

/-! ### One closing token in the place of another -/

/-- Closing tokens are **exchanged**: errors are the same, or else one has what the other has with
one closing token in the place of the other, as the lexeme that was found or for its place alone. -/
def Likeness.exchange (e e' : Token) : Likeness where
  closing t t' := t = t' ∨ t = e ∧ t' = e'
  error x x' := x = x' ∨
    (∃ what, x = WafRules.unexpected what e ∧ x' = WafRules.unexpected what e') ∨
    ∃ cause, x = ⟨cause, e.position⟩ ∧ x' = ⟨cause, e'.position⟩
  closing_refl _ := .inl rfl
  error_refl _ := .inl rfl
  unexpected what t t' := by
    rintro (rfl | ⟨rfl, rfl⟩)
    · exact .inl rfl
    · exact .inr (.inl ⟨what, rfl, rfl⟩)
  place cause t t' := by
    rintro (rfl | ⟨rfl, rfl⟩)
    · exact .inl rfl
    · exact .inr (.inr ⟨cause, rfl, rfl⟩)

/-- **Which token closes a window** is not told by what is read from it.  Selectors and actions are
the same, an operator is too but for its place when there are no tokens, and what has no reading has
none with the other token either; errors have the closing token in them only where they report it.
That holds as well for readers that take a closing token for a sign. -/
theorem Window.read_agree_of_tokens (tokens : List Token) (e e' : Token) :
    Agree (.exchange e e') Eq (Selector.readList ⟨tokens, e⟩) (Selector.readList ⟨tokens, e'⟩) ∧
    Agree (.exchange e e')
      (fun o o' => (tokens ≠ [] → o = o') ∧ o' = { o with position := o'.position })
      (Operator.read ⟨tokens, e⟩) (Operator.read ⟨tokens, e'⟩) ∧
    Agree (.exchange e e') Eq (Action.readList ⟨tokens, e⟩) (Action.readList ⟨tokens, e'⟩) ∧
    ∀ w, Selector.peek w = Selector.read w ∧ CtlOption.peekParts w = CtlOption.readParts w := by
  have alike : Window.Alike (.exchange e e') ⟨tokens, e⟩ ⟨tokens, e'⟩ := ⟨rfl, .inr ⟨rfl, rfl⟩⟩
  refine ⟨Selector.readList_agree alike, ?_, Action.readList_agree alike,
    fun w => ⟨Selector.peek_eq_read w, CtlOption.peekParts_eq_readParts w⟩⟩
  have operator := Operator.read_agree alike
  revert operator
  generalize Operator.read ⟨tokens, e⟩ = read
  generalize Operator.read ⟨tokens, e'⟩ = read'
  rintro (⟨position, rfl⟩ | alikeErrors)
  · refine .ok ⟨fun nonempty => ?_, rfl⟩
    have samePlace := alike.position (mt List.isEmpty_iff.mp nonempty)
    rw [← samePlace, ← position]
  · exact .error alikeErrors

end WafRules
