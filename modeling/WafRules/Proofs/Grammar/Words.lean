import WafRules.Proofs.Entry
import WafRules.Proofs.Grammar
import WafRules.Proofs.Scan

/-!
# The words of an argument

The units of an argument have tokens of their own, computed by recursion on them.  The lexer, which
goes through the text by characters and has to keep half of an escape in its state, gives exactly
these tokens on the source of units that fit.

The text of an argument that is read and not yet a token is a `Pending`: nothing, a word or a run
of blanks.  Units act on it one at a time, so the state in which the lexer is between two units
is known, but for one place: after a backslash and a carriage return it waits for the next
character.  The text behind the pair is then no line feed, and reading it from the waiting state
is the same as reading it after the pair (`scanFrom_escapeReturn`).

## Main Definitions

* `Pending` — text of an argument that is not yet a token.
* `Atom.read`, `readBody`, `bodyTokens` — the words of an argument.

## Main Statements

* `scanFrom_atomSource`, `scanFrom_bodySource` — what the lexer makes of the source of units in
  front of more text.
-/

namespace WafRules

namespace Grammar

open Lexer (Run Quoting token scanFrom)

/-! ### The words of an argument

The recursion on units.  Each unit may complete what is pending and may give a token of its own; at
the end of the argument what is pending is completed. -/

/-- Text of an argument that is read and not yet a token. -/
inductive Pending
  | nothing
  | word (run : Run)
  | blanks (run : Run)
  deriving DecidableEq, Repr

namespace Pending

/-- The tokens the text becomes when something else follows. -/
def tokens : Pending → List Token
  | nothing => []
  | word run => Lexer.wordTokens (some run)
  | blanks run => Lexer.blankTokens run

/-- More text of a word, which begins at `p` if no word has begun. -/
def extend (p : Position) (text : String) : Pending → List Token × Pending
  | nothing => ([], word ⟨p, text⟩)
  | word run => ([], word { run with text := run.text ++ text })
  | blanks run => (Lexer.blankTokens run, word ⟨p, text⟩)

/-- A blank inside quotes. -/
def pushBlank (p : Position) (c : Char) : Pending → List Token × Pending
  | nothing => ([], blanks ⟨p, c.toString⟩)
  | word run => (Lexer.wordTokens (some run), blanks ⟨p, c.toString⟩)
  | blanks run => ([], blanks (run.push c))

/-- A line continuation, which words go across and runs of blanks do not. -/
def interrupt : Pending → List Token × Pending
  | nothing => ([], nothing)
  | word run => ([], word run)
  | blanks run => (Lexer.blankTokens run, nothing)

/-- The state of the lexer between two units of an argument. -/
def state : Quoting → Pending → Lexer.State
  | quoting, nothing => .reading (.body quoting none)
  | quoting, word run => .reading (.body quoting (some run))
  | .quoted opened, blanks run => .blanks opened run
  | .bare, blanks _ => .reading (.body .bare none)

/-- Whether the text can be pending in an argument: blanks end one without quotes. -/
def Allowed : Quoting → Pending → Prop
  | .bare, blanks _ => False
  | _, _ => True

end Pending

/-- What a unit of an argument adds to the text before it: the tokens it completes, and the text
that is pending after it. -/
def Atom.read (quoting : Quoting) (p : Position) (pending : Pending) :
    Atom → List Token × Pending
  | char c =>
    if Text.isBlank c then pending.pushBlank p c
    else
      match Punct.ofChar? c with
      | some punct => (pending.tokens ++ [token (.punct punct) c.toString p], .nothing)
      | none => pending.extend p c.toString
  | pair c => pending.extend p (Lexer.escapedText quoting c)
  | continuation _ => pending.interrupt

/-- What units one after the other add to the text before them. -/
def readBody (quoting : Quoting) (p : Position) (pending : Pending) :
    List Atom → List Token × Pending
  | [] => ([], pending)
  | atom :: body =>
    let (tokens, pending) := atom.read quoting p pending
    let (others, last) := readBody quoting (p.advance atom.source) pending body
    (tokens ++ others, last)

@[simp]
theorem readBody_nil (quoting : Quoting) (p : Position) (pending : Pending) :
    readBody quoting p pending [] = ([], pending) := rfl

theorem readBody_cons (quoting : Quoting) (p : Position) (pending : Pending) (atom : Atom)
    (body : List Atom) :
    readBody quoting p pending (atom :: body) =
      ((atom.read quoting p pending).1 ++
        (readBody quoting (p.advance atom.source) (atom.read quoting p pending).2 body).1,
      (readBody quoting (p.advance atom.source) (atom.read quoting p pending).2 body).2) := rfl

/-- The tokens of the units between the marks of an argument. -/
def bodyTokens (quoting : Quoting) (p : Position) (body : List Atom) : List Token :=
  (readBody quoting p .nothing body).1 ++ (readBody quoting p .nothing body).2.tokens

/-- The style of an argument that the lexer is reading. -/
def styleOf : Quoting → Style
  | .bare => .bare
  | .quoted _ => .quoted

/-! ### The lexer inside an argument

One unit at a time, the lexer does what the recursion says.  A unit of several characters takes the
lexer through states in between, and only the last one is compared. -/

/-- A character that stands for itself is read in one step. -/
theorem step_char {quoting : Quoting} {pending : Pending} {c : Char} (p : Position)
    (allowed : pending.Allowed quoting) (admitted : (styleOf quoting).Admits c) :
    Lexer.step p (pending.state quoting) c =
      (((Atom.char c).read quoting p pending).1,
        ((Atom.char c).read quoting p pending).2.state quoting) := by
  cases quoting with
  | bare =>
    obtain ⟨notBlank, notLineFeed, notBackslash⟩ := admitted
    cases pending with
    | blanks run => exact allowed.elim
    | nothing | word run =>
      cases punct : Punct.ofChar? c <;>
        simp [Lexer.step, Lexer.stepReading, Lexer.stepBody, Pending.state, Pending.tokens,
          Pending.extend, Atom.read, Lexer.extendWord, Lexer.wordTokens, notBlank, notLineFeed,
          notBackslash, punct]
  | quoted opened =>
    obtain ⟨notLineFeed, notBackslash, notQuote⟩ := admitted
    by_cases blank : Text.isBlank c = true
    · cases pending <;>
        simp [Lexer.step, Lexer.stepReading, Lexer.stepBody, Lexer.stepBlanks, Pending.state,
          Pending.pushBlank, Atom.read, Lexer.wordTokens, notLineFeed, notBackslash, blank]
    · cases pending <;> cases punct : Punct.ofChar? c <;>
        simp [Lexer.step, Lexer.stepReading, Lexer.stepBody, Lexer.stepBlanks, Pending.state,
          Pending.tokens, Pending.extend, Atom.read, Lexer.extendWord, Lexer.wordTokens,
          Lexer.blankTokens, notLineFeed, notBackslash, notQuote, blank, punct]

/-- A backslash ends a run of blanks and leaves a word open. -/
theorem step_backslash {quoting : Quoting} {pending : Pending} (p : Position)
    (allowed : pending.Allowed quoting) :
    ∃ word : Option Run,
      Lexer.step p (pending.state quoting) '\\' =
          (pending.interrupt.1, .escape (.body quoting word) p) ∧
        pending.interrupt.2.state quoting = .reading (.body quoting word) ∧
        ∀ text, pending.extend p text =
          (pending.interrupt.1, (Lexer.extendWord word p text).elim .nothing .word) := by
  cases pending with
  | nothing => exact ⟨none, by simp [Lexer.step, Lexer.stepReading, Lexer.stepBody,
      Pending.state, Pending.interrupt], rfl, fun _ => rfl⟩
  | word run => exact ⟨some run, by simp [Lexer.step, Lexer.stepReading, Lexer.stepBody,
      Pending.state, Pending.interrupt], rfl, fun _ => rfl⟩
  | blanks run =>
    cases quoting with
    | bare => exact allowed.elim
    | quoted opened =>
      refine ⟨none, ?_, rfl, fun _ => rfl⟩
      have notBlank : Text.isBlank '\\' = false := by decide
      simp [Lexer.step, Lexer.stepBlanks, Lexer.stepBody, Pending.state, Pending.interrupt,
        notBlank]

/-- After a backslash and a carriage return, text that does not begin with a line feed is read
as after a pair. -/
theorem scanFrom_escapeReturn (quoting : Quoting) (word : Option Run) (backslash p : Position)
    {after : List Char} (notLineFeed : after.head? ≠ some '\n') :
    scanFrom p (.escapeReturn (.body quoting word) backslash) after =
      scanFrom p
        (.reading (.body quoting
          (Lexer.extendWord word backslash (Lexer.escapedText quoting '\r')))) after := by
  cases after with
  | nil => rfl
  | cons c cs =>
    have different : c ≠ '\n' := by simpa using notLineFeed
    rw [Lexer.scanFrom_cons, Lexer.scanFrom_cons]
    simp [Lexer.step, Lexer.stepEscapeReturn, Lexer.stepReading, different]

/-- A backslash and the character it is read with extend a word.  The carriage return is the one
character that the lexer looks behind before it knows this: a line feed there makes a continuation
of the three. -/
theorem scanFrom_pair {quoting : Quoting} {pending : Pending} {c : Char} (p : Position)
    {after : List Char} (allowed : pending.Allowed quoting) (pairs : ¬ Continues c after) :
    scanFrom p (pending.state quoting) ('\\' :: c :: after) =
      (scanFrom (p.advance ['\\', c])
        ((pending.extend p (Lexer.escapedText quoting c)).2.state quoting) after).prepend
        (pending.extend p (Lexer.escapedText quoting c)).1 := by
  obtain ⟨word, stepped, -, extended⟩ := step_backslash p allowed
  have notLineFeed : c ≠ '\n' := fun h => pairs (.inl h)
  have joined (text : String) :
      ((Lexer.extendWord word p text).elim Pending.nothing Pending.word).state quoting =
        .reading (.body quoting (Lexer.extendWord word p text)) := by
    cases word <;> rfl
  rw [Lexer.scanFrom_step stepped, extended, joined]
  by_cases isReturn : c = '\r'
  · -- the lexer waits to see whether a line feed follows, and none does
    subst isReturn
    have noBreak : after.head? ≠ some '\n' := fun h => pairs (.inr ⟨rfl, h⟩)
    have waits : Lexer.step (p.next '\\') (.escape (.body quoting word) p) '\r' =
        ([], .escapeReturn (.body quoting word) p) := by
      simp [Lexer.step, Lexer.stepEscape]
    rw [Lexer.scanFrom_step waits, scanFrom_escapeReturn _ _ _ _ noBreak]
    rfl
  · have paired : Lexer.step (p.next '\\') (.escape (.body quoting word) p) c =
        ([], .reading (.body quoting
          (Lexer.extendWord word p (Lexer.escapedText quoting c)))) := by
      simp [Lexer.step, Lexer.stepEscape, notLineFeed, isReturn]
    rw [Lexer.scanFrom_step paired]
    rfl

/-- A continuation is read in the place where it stands and leaves nothing. -/
theorem scanFrom_continued {context : Lexer.Context} {p backslash : Position}
    (ending : LineBreak) (after : List Char) :
    scanFrom p (.escape context backslash) (ending.source ++ after) =
      (scanFrom (p.advance ending.source) (Lexer.continued context).2 after).prepend
        (Lexer.continued context).1 := by
  cases ending with
  | lineFeed =>
    have stepped : Lexer.step p (.escape context backslash) '\n' = Lexer.continued context := by
      simp [Lexer.step, Lexer.stepEscape]
    exact Lexer.scanFrom_step stepped after
  | returnLineFeed =>
    have waits : Lexer.step p (.escape context backslash) '\r' =
        ([], .escapeReturn context backslash) := by
      simp [Lexer.step, Lexer.stepEscape]
    have stepped : Lexer.step (p.next '\r') (.escapeReturn context backslash) '\n' =
        Lexer.continued context := by
      simp [Lexer.step, Lexer.stepEscapeReturn]
    have source : LineBreak.returnLineFeed.source ++ after = '\r' :: '\n' :: after := rfl
    rw [source, Lexer.scanFrom_step waits, Lexer.scanFrom_step stepped]
    rfl

/-- The pending text stays possible in its argument. -/
theorem Atom.read_allowed {quoting : Quoting} {pending : Pending} {atom : Atom} (p : Position)
    {after : List Char} (allowed : pending.Allowed quoting)
    (fits : atom.Fits (styleOf quoting) after) :
    (atom.read quoting p pending).2.Allowed quoting := by
  cases quoting with
  | quoted opened => trivial
  | bare =>
    cases pending with
    | blanks run => exact allowed.elim
    | nothing | word run =>
      cases atom with
      | char c =>
        have notBlank : Text.isBlank c = false := fits.1
        cases punct : Punct.ofChar? c <;> simp [Atom.read, Pending.extend, Pending.Allowed,
          notBlank, punct]
      | pair c => trivial
      | continuation ending => trivial

/-- One **unit of an argument.**  The lexer reads it to the tokens it completes and to the
pending text after it. -/
theorem scanFrom_atomSource {quoting : Quoting} {pending : Pending} {atom : Atom} (p : Position)
    {after : List Char} (allowed : pending.Allowed quoting)
    (fits : atom.Fits (styleOf quoting) after) :
    scanFrom p (pending.state quoting) (atom.source ++ after) =
      (scanFrom (p.advance atom.source) ((atom.read quoting p pending).2.state quoting)
        after).prepend (atom.read quoting p pending).1 := by
  cases atom with
  | char c => exact Lexer.scanFrom_step (step_char p allowed fits) after
  | pair c => exact scanFrom_pair p allowed fits
  | continuation ending =>
    obtain ⟨word, stepped, interrupted, -⟩ := step_backslash p allowed
    have source : (Atom.continuation ending).source ++ after =
        '\\' :: (ending.source ++ after) := rfl
    rw [source, Lexer.scanFrom_step stepped, scanFrom_continued, Lexer.Scan.prepend_prepend]
    simp only [Atom.read, interrupted, Lexer.continued, List.append_nil]
    rfl

/-- The **units of an argument.** -/
theorem scanFrom_bodySource (quoting : Quoting) {body : List Atom} {after : List Char}
    (fits : BodyFits (styleOf quoting) after body) (p : Position) (pending : Pending)
    (allowed : pending.Allowed quoting) :
    (readBody quoting p pending body).2.Allowed quoting ∧
      scanFrom p (pending.state quoting) (bodySource body ++ after) =
        (scanFrom (p.advance (bodySource body)) ((readBody quoting p pending body).2.state quoting)
          after).prepend (readBody quoting p pending body).1 := by
  induction body generalizing p pending with
  | nil => exact ⟨allowed, rfl⟩
  | cons atom body ih =>
    obtain ⟨atomFits, bodyFits⟩ := fits
    have allowedAfter := Atom.read_allowed p allowed atomFits
    obtain ⟨allowedLast, scanned⟩ := ih bodyFits (p.advance atom.source) _ allowedAfter
    refine ⟨allowedLast, ?_⟩
    rw [bodySource_cons, List.append_assoc, scanFrom_atomSource p allowed atomFits, scanned,
      Lexer.Scan.prepend_prepend, readBody_cons, Position.advance_append]

/-! ### The kinds of the words

No token inside an argument is a mark or a name, whatever the units. -/

theorem Pending.tokens_kind (pending : Pending) : ∀ t ∈ pending.tokens, t.kind.IsBody := by
  intro t member
  cases pending with
  | nothing => cases member
  | word run | blanks run =>
    rw [List.mem_singleton.mp member]
    trivial

/-- A unit of an argument completes words, runs of blanks and punctuation only. -/
theorem Atom.read_kind (quoting : Quoting) (p : Position) (pending : Pending) (atom : Atom) :
    ∀ t ∈ (atom.read quoting p pending).1, t.kind.IsBody := by
  have flushed := pending.tokens_kind
  intro t member
  cases atom with
  | char c =>
    by_cases blank : Text.isBlank c = true
    · cases pending <;> simp_all [Atom.read, Pending.pushBlank, Pending.tokens]
    · cases punct : Punct.ofChar? c with
      | none => cases pending <;> simp_all [Atom.read, Pending.extend, Pending.tokens]
      | some punctuation =>
        simp only [Atom.read, blank, punct, Bool.false_eq_true, if_false, List.mem_append,
          List.mem_singleton] at member
        rcases member with pendingToken | rfl
        · exact flushed t pendingToken
        · trivial
  | pair c => cases pending <;> simp_all [Atom.read, Pending.extend, Pending.tokens]
  | continuation ending => cases pending <;> simp_all [Atom.read, Pending.interrupt, Pending.tokens]

theorem readBody_kind (quoting : Quoting) (p : Position) (pending : Pending) (body : List Atom) :
    ∀ t ∈ (readBody quoting p pending body).1, t.kind.IsBody := by
  induction body generalizing p pending with
  | nil => intro t member; cases member
  | cons atom body ih =>
    intro t member
    rw [readBody_cons] at member
    rcases List.mem_append.mp member with first | others
    · exact atom.read_kind quoting p pending t first
    · exact ih _ _ t others

theorem bodyTokens_kind (quoting : Quoting) (p : Position) (body : List Atom) :
    ∀ t ∈ bodyTokens quoting p body, t.kind.IsBody := by
  intro t member
  rcases List.mem_append.mp member with complete | pending
  · exact readBody_kind quoting p .nothing body t complete
  · exact Pending.tokens_kind _ t pending

end Grammar

end WafRules
