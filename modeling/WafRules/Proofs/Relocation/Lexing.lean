import WafRules.Proofs.Relocation
import WafRules.Proofs.Scan

/-!
# Relocation of the lexer

The lexer notes places and compares none.  Started from a moved place in a moved state, it gives the
moved tokens and stops with the moved error, whatever characters it reads.

There is one lemma for each step function, by the tests that the function makes.  Only one of them
asks anything of the motion: the text of a comment begins behind the mark, at a place that the lexer
reads on to by itself.

## Main Statements

* `Lexer.step_relocate`, `Lexer.finish_relocate` — one character, and the end of the text.
* `Lexer.scanFrom_relocate` — the rest of a text.
-/

namespace WafRules

namespace Lexer

/-! ### Instances

A state holds the place where a word or a comment begins, the place of an opening quote and that of
a backslash.  A moved state holds the moved places, and is otherwise the same. -/

instance : Relocatable Run := ⟨fun f run => { run with start := f run.start }⟩

instance : Relocatable Quoting where
  relocate f
    | .bare => .bare
    | .quoted opened => .quoted (f opened)

instance : Relocatable Context where
  relocate f
    | .name run => .name (relocate f run)
    | .between => .between
    | .body quoting word => .body (relocate f quoting) (relocate f word)

instance : Relocatable State where
  relocate f
    | .lineStart => .lineStart
    | .comment run => .comment (relocate f run)
    | .reading context => .reading (relocate f context)
    | .blanks opened run => .blanks (f opened) (relocate f run)
    | .escape context backslash => .escape (relocate f context) (f backslash)
    | .escapeReturn context backslash => .escapeReturn (relocate f context) (f backslash)
    | .failed error => .failed (relocate f error)

instance : Relocatable Scan := ⟨fun f scan => ⟨relocate f scan.tokens, relocate f scan.failure⟩⟩

variable (f : Position → Position)

/-! ### Tokens

The tokens that a step gives are made of runs, and whether a run has a text does not depend on its
place. -/

/-- The text of a comment, if it has one. -/
theorem commentTokens_relocate (run : Run) :
    commentTokens (relocate f run) = relocate f (commentTokens run) :=
  relocate_ite (fun _ => rfl) (fun _ => rfl)

/-- A word, if one has begun. -/
theorem wordTokens_relocate (word : Option Run) :
    wordTokens (relocate f word) = relocate f (wordTokens word) := by
  cases word <;> rfl

/-- A word that has begun stays where it began. -/
theorem extendWord_relocate (word : Option Run) (p : Position) (text : String) :
    extendWord (relocate f word) (f p) text = relocate f (extendWord word p text) := by
  cases word <;> rfl

/-- What a pair stands for depends on whether the argument is in quotes, not on where they
opened. -/
theorem escapedText_relocate (quoting : Quoting) (c : Char) :
    escapedText (relocate f quoting) c = escapedText quoting c := by
  cases quoting <;> rfl

/-- A motion opens no quotes and closes none. -/
theorem relocate_eq_bare_iff (quoting : Quoting) :
    relocate f quoting = .bare ↔ quoting = .bare := by
  cases quoting with
  | bare => exact Iff.rfl
  | quoted opened =>
    constructor
    · intro impossible
      cases impossible
    · intro impossible
      cases impossible

/-! ### One character

A step is moved by moving the place it is at and the state it is in.  The steps compare characters
only, so both sides take the same branch, and in each branch the same tokens are built from places
that are moved already. -/

/-- A character inside an argument.  The error of an unclosed argument is at its opening quote, a
place that the state holds. -/
theorem stepBody_relocate (quoting : Quoting) (word : Option Run) (p : Position) (c : Char) :
    stepBody (relocate f quoting) (relocate f word) (f p) c =
      relocate f (stepBody quoting word p c) := by
  have stop (text : String) : wordTokens (relocate f word) ++ [token .argumentStop text (f p)] =
      relocate f (wordTokens word ++ [token .argumentStop text p]) := by
    rw [wordTokens_relocate, relocate_append]
    rfl
  unfold stepBody
  refine relocate_ite (fun _ => rfl) (fun _ => ?_)
  refine relocate_ite (fun _ => ?_) (fun _ => ?_)
  · cases quoting with
    | bare => exact congrArg (·, _) (stop "")
    | quoted opened => rfl
  refine relocate_ite (fun _ => ?_) (fun _ => ?_)
  · cases quoting with
    | bare => exact congrArg (·, _) (stop "")
    | quoted opened => exact congrArg (·, _) (wordTokens_relocate f word)
  simp only [ne_eq, relocate_eq_bare_iff]
  refine relocate_ite (fun _ => congrArg (·, _) (stop "\"")) (fun _ => ?_)
  cases Punct.ofChar? c with
  | none =>
    dsimp only
    rw [extendWord_relocate]
    rfl
  | some punct =>
    dsimp only
    rw [wordTokens_relocate, relocate_pair, relocate_append]
    rfl

/-- A character between arguments, which may be the first one of an argument. -/
theorem stepBetween_relocate (p : Position) (c : Char) :
    stepBetween (f p) c = relocate f (stepBetween p c) := by
  have body : stepBody .bare none (f p) c = relocate f (stepBody .bare none p c) :=
    stepBody_relocate f .bare none p c
  unfold stepBetween
  refine relocate_ite (fun _ => rfl) (fun _ => ?_)
  refine relocate_ite (fun _ => rfl) (fun _ => ?_)
  refine relocate_ite (fun _ => rfl) (fun _ => ?_)
  refine relocate_ite (fun _ => rfl) (fun _ => ?_)
  rw [body]
  rfl

/-- A line that goes on. -/
theorem continued_relocate (context : Context) :
    continued (relocate f context) = relocate f (continued context) := by
  cases context <;> rfl

/-- A character behind a backslash.  The pair is at the backslash. -/
theorem stepEscape_relocate (context : Context) (backslash : Position) (c : Char) :
    stepEscape (relocate f context) (f backslash) c =
      relocate f (stepEscape context backslash c) := by
  unfold stepEscape
  rw [continued_relocate]
  refine relocate_ite (fun _ => rfl) (fun _ => ?_)
  refine relocate_ite (fun _ => rfl) (fun _ => ?_)
  cases context with
  | name run => rfl
  | between => rfl
  | body quoting word =>
    have word' := extendWord_relocate f word backslash (escapedText quoting c)
    show ([], State.reading (.body (relocate f quoting) (extendWord (relocate f word)
      (f backslash) (escapedText (relocate f quoting) c)))) = _
    rw [escapedText_relocate, word']
    rfl

/-- A character behind a backslash and a carriage return. -/
theorem stepEscapeReturn_relocate (context : Context) (backslash p : Position) (c : Char) :
    stepEscapeReturn (relocate f context) (f backslash) (f p) c =
      relocate f (stepEscapeReturn context backslash p c) := by
  unfold stepEscapeReturn
  rw [continued_relocate]
  refine relocate_ite (fun _ => rfl) (fun _ => ?_)
  cases context with
  | name run => rfl
  | between => rfl
  | body quoting word =>
    have word' := extendWord_relocate f word backslash (escapedText quoting '\r')
    show stepBody (relocate f quoting) (extendWord (relocate f word) (f backslash)
      (escapedText (relocate f quoting) '\r')) (f p) c = _
    rw [escapedText_relocate, word']
    exact stepBody_relocate f quoting _ p c

/-- A character behind blanks in quotes. -/
theorem stepBlanks_relocate (opened : Position) (run : Run) (p : Position) (c : Char) :
    stepBlanks (f opened) (relocate f run) (f p) c = relocate f (stepBlanks opened run p c) := by
  have body : stepBody (.quoted (f opened)) none (f p) c =
      relocate f (stepBody (.quoted opened) none p c) :=
    stepBody_relocate f (.quoted opened) none p c
  unfold stepBlanks
  refine relocate_ite (fun _ => rfl) (fun _ => ?_)
  rw [body]
  rcases stepBody (.quoted opened) none p c with ⟨tokens, after⟩
  exact congrArg (·, _) (relocate_append (blankTokens run) tokens).symm

/-- A character behind the start of a name. -/
theorem stepName_relocate (run : Run) (p : Position) (c : Char) :
    stepName (relocate f run) (f p) c = relocate f (stepName run p c) := by
  unfold stepName
  refine relocate_ite (fun _ => rfl) (fun _ => ?_)
  refine relocate_ite (fun _ => rfl) (fun _ => ?_)
  refine relocate_ite (fun _ => rfl) (fun _ => ?_)
  exact relocate_ite (fun _ => rfl) (fun _ => rfl)

/-- A character of a comment. -/
theorem stepComment_relocate (run : Run) (c : Char) :
    stepComment (relocate f run) c = relocate f (stepComment run c) := by
  unfold stepComment
  rw [commentTokens_relocate]
  exact relocate_ite (fun _ => rfl) (fun _ => rfl)

/-- Behind the blanks of a line a step depends on no place that it is not given. -/
theorem step_relocate_of_ne (p : Position) {state : State} (inLine : state ≠ .lineStart)
    (c : Char) : step (f p) (relocate f state) c = relocate f (step p state c) := by
  cases state with
  | lineStart => exact absurd rfl inLine
  | comment run => exact stepComment_relocate f run c
  | reading context =>
    cases context with
    | name run => exact stepName_relocate f run p c
    | between => exact stepBetween_relocate f p c
    | body quoting word => exact stepBody_relocate f quoting word p c
  | blanks opened run => exact stepBlanks_relocate f opened run p c
  | escape context backslash => exact stepEscape_relocate f context backslash c
  | escapeReturn context backslash => exact stepEscapeReturn_relocate f context backslash p c
  | failed error => rfl

variable {f}

/-- A comment begins behind its mark, so here the motion has to agree with reading on. -/
theorem stepLineStart_relocate {p : Position} {c : Char} (follows : f (p.next c) = (f p).next c) :
    stepLineStart (f p) c = relocate f (stepLineStart p c) := by
  unfold stepLineStart
  rw [← follows]
  refine relocate_ite (fun _ => rfl) (fun _ => ?_)
  refine relocate_ite (fun _ => rfl) (fun _ => ?_)
  exact relocate_ite (fun _ => rfl) (fun _ => rfl)

/-- One **character of a text.** -/
theorem step_relocate {p : Position} {c : Char} (follows : f (p.next c) = (f p).next c)
    (state : State) : step (f p) (relocate f state) c = relocate f (step p state c) := by
  by_cases start : state = .lineStart
  · subst start
    exact stepLineStart_relocate follows
  · exact step_relocate_of_ne f p start c

/-! ### The end of the text

At the end every state gives the tokens it still owes and the end mark, or the error of what is left
open.  That error is at a place from the state, and the end mark at the place that is reached. -/

/-- The end mark is at the end of the text. -/
theorem endWith_relocate (tokens : List Token) (p : Position) :
    endWith (relocate f tokens) (f p) = relocate f (endWith tokens p) :=
  congrArg (·, _) (relocate_append tokens [token .endOfInput "" p]).symm

/-- The text ends inside an argument. -/
theorem finishBody_relocate (quoting : Quoting) (word : Option Run) (p : Position) :
    finishBody (relocate f quoting) (relocate f word) (f p) =
      relocate f (finishBody quoting word p) := by
  cases quoting with
  | quoted opened => rfl
  | bare =>
    show endWith (wordTokens (relocate f word) ++ _) (f p) = relocate f (endWith _ p)
    rw [← endWith_relocate, wordTokens_relocate, relocate_append]
    rfl

/-- The **end of the text.** -/
theorem finish_relocate (p : Position) (state : State) :
    finish (f p) (relocate f state) = relocate f (finish p state) := by
  cases state with
  | lineStart => rfl
  | comment run =>
    show endWith (commentTokens (relocate f run)) (f p) = _
    rw [commentTokens_relocate]
    exact endWith_relocate _ p
  | reading context =>
    cases context with
    | name run => rfl
    | between => rfl
    | body quoting word => exact finishBody_relocate quoting word p
  | blanks opened run => rfl
  | escape context backslash => cases context <;> rfl
  | escapeReturn context backslash =>
    cases context with
    | name run => rfl
    | between => rfl
    | body quoting word =>
      show finishBody (relocate f quoting) (extendWord (relocate f word) (f backslash)
        (escapedText (relocate f quoting) '\r')) (f p) = _
      rw [escapedText_relocate, extendWord_relocate]
      exact finishBody_relocate quoting _ p
  | failed error => rfl

/-! ### The rest of a text

Over many characters the places come from reading on, so the motion has to agree with reading on.
The induction asks for that at the places of the text alone, and so it holds as well of a motion
that keeps those and does as it likes with all others. -/

/-- Tokens in front of a scan. -/
theorem Scan.prepend_relocate (tokens : List Token) (scan : Scan) :
    (relocate f scan).prepend (relocate f tokens) = relocate f (scan.prepend tokens) :=
  congrArg (Scan.mk · _) (relocate_append tokens scan.tokens).symm

/-- The **rest of a text,** for a motion that agrees with reading on at the places of that text.
By induction on its characters, one step at a time. -/
theorem scanFrom_relocate_of_follows {p : Position} {cs : List Char}
    (follows : ∀ front c back, cs = front ++ c :: back →
      f ((p.advance front).next c) = (f (p.advance front)).next c) (state : State) :
    scanFrom (f p) (relocate f state) cs = relocate f (scanFrom p state cs) := by
  induction cs generalizing p state with
  | nil =>
    rw [scanFrom_nil, scanFrom_nil, finish_relocate]
    rfl
  | cons c cs ih =>
    have here : f (p.next c) = (f p).next c := follows [] c cs rfl
    have later (front : List Char) (d : Char) (back : List Char) (split : cs = front ++ d :: back) :
        f (((p.next c).advance front).next d) = (f ((p.next c).advance front)).next d :=
      follows (c :: front) d back (congrArg (c :: ·) split)
    rw [scanFrom_cons, scanFrom_cons, step_relocate here, ← here]
    refine Eq.trans ?_ (Scan.prepend_relocate _ _)
    rw [← ih later]
    rfl

/-- The **rest of a text,** for a motion that agrees with reading on everywhere. -/
theorem scanFrom_relocate (follows : Position.FollowsText f) (p : Position) (state : State)
    (cs : List Char) :
    scanFrom (f p) (relocate f state) cs = relocate f (scanFrom p state cs) :=
  scanFrom_relocate_of_follows (fun _ _ _ _ => follows _ _) state

end Lexer

end WafRules
