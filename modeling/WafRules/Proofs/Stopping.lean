import Mathlib.Data.List.Induction
import Mathlib.Data.List.TakeWhile
import WafRules.Proofs.Scan

/-!
# Where the lexer stops

A malformed text is cut at the last place where the lexer was at the start of a line.  Before the
cut everything is complete.  Behind it stands either a character that can begin no line, or a
directive that the lexer does not come out of: it has emitted the name of that directive and no
other, or no token of it at all.

The states of the lexer inside a line form two groups, those in which the name of a directive may
still go on and those behind it, and each group is left in a few ways only.  So two inductions are
enough: behind the name nothing is emitted that could be taken for another name (`GoesOn` says what
one character does there), and in the name nothing is emitted but the name itself (`NameStep`).

## Main Definitions

* `Lexer.StaysInLine` — a text in which the lexer does not come to the start of a line.
* `Lexer.State.InName`, `Lexer.State.InArguments` — the states inside a directive.
* `Lexer.LeavesOver` — the tokens of a directive that the lexer does not come out of.
* `Lexer.StopsBehind` — where in a text an error stops the lexer.

## Main Statements

* `Lexer.scanFrom_inArguments`, `Lexer.scanFrom_inName` — what is emitted inside a directive.
* `Lexer.exists_stop` — the cut of a malformed text.
-/

namespace WafRules

namespace Lexer

/-! ### The last start of a line

The cut is found from the end of the text, where the lexer may be anywhere, by going back to the
last place at which it was at the start of a line. -/

/-- Whether the lexer is not at the start of a line behind any character of a text. -/
def StaysInLine (p : Position) (state : State) (cs : List Char) : Prop :=
  ∀ front back, cs = front ++ back → front ≠ [] → (run p state front).2 ≠ .lineStart

/-- The first character does not lead to the start of a line. -/
theorem StaysInLine.head {p : Position} {state : State} {c : Char} {cs : List Char}
    (stays : StaysInLine p state (c :: cs)) : (step p state c).2 ≠ .lineStart :=
  stays [c] cs rfl (List.cons_ne_nil c [])

/-- Neither does any later one, read from where the first one leads. -/
theorem StaysInLine.tail {p : Position} {state : State} {c : Char} {cs : List Char}
    (stays : StaysInLine p state (c :: cs)) :
    StaysInLine (p.next c) (step p state c).2 cs := by
  intro front back split nonempty
  exact stays (c :: front) back (congrArg (c :: ·) split) (List.cons_ne_nil c front)

/-- The **last start of a line.**  By induction on the text from its end: with one more character
the lexer is at the start of a line, or the last such place is the one before. -/
theorem exists_last_lineStart (p : Position) (cs : List Char) :
    ∃ before rest, cs = before ++ rest ∧ (run p .lineStart before).2 = .lineStart ∧
      StaysInLine (p.advance before) .lineStart rest := by
  induction cs using List.reverseRecOn with
  | nil =>
    refine ⟨[], [], rfl, rfl, ?_⟩
    intro front back split nonempty
    exact absurd (List.append_eq_nil_iff.mp split.symm).1 nonempty
  | append_singleton cs c ih =>
    by_cases atStart : (run p .lineStart (cs ++ [c])).2 = .lineStart
    · refine ⟨cs ++ [c], [], (List.append_nil _).symm, atStart, ?_⟩
      intro front back split nonempty
      exact absurd (List.append_eq_nil_iff.mp split.symm).1 nonempty
    · obtain ⟨before, rest, rfl, start, stays⟩ := ih
      refine ⟨before, rest ++ [c], List.append_assoc _ _ _, start, ?_⟩
      intro front back split nonempty
      -- only the whole of what is behind the old cut contains the new character
      rcases List.eq_nil_or_concat back with rfl | ⟨back, last, rfl⟩
      · rw [List.append_nil] at split
        rw [List.append_assoc, run_append, start, split] at atStart
        exact atStart
      · rw [List.concat_eq_append, ← List.append_assoc] at split
        exact stays front back (List.append_inj' split rfl).1 nonempty

/-! ### Comments -/

/-- Nothing is malformed in a comment. -/
theorem scanFrom_comment_failure (p : Position) (run : Run) {cs : List Char}
    (stays : StaysInLine p (.comment run) cs) : (scanFrom p (.comment run) cs).failure = none := by
  induction cs generalizing p run with
  | nil => rfl
  | cons c cs ih =>
    have outside := stays.head
    have others := stays.tail
    by_cases lineFeed : c = '\n'
    · subst lineFeed
      exact absurd rfl outside
    · have stepped : step p (.comment run) c = ([], .comment (run.push c)) := if_neg lineFeed
      rw [stepped] at others
      rw [scanFrom_step stepped]
      exact ih _ _ others

/-! ### Arguments

Behind the name there is no way to emit another name without coming to the start of a line. -/

/-- Whether a place where a backslash may stand is behind the name of a directive. -/
def Context.InArguments : Context → Prop
  | .name _ => False
  | .between | .body _ _ => True

/-- The states on the line of a directive, behind its name. -/
def State.InArguments : State → Prop
  | .reading context | .escape context _ | .escapeReturn context _ => context.InArguments
  | .blanks _ _ => True
  | .lineStart | .comment _ | .failed _ => False

/-- Whether none of the tokens is the name of a directive. -/
def NoName (tokens : List Token) : Prop := ∀ t ∈ tokens, t.kind ≠ .directive

/-- No tokens, no name. -/
theorem NoName.nil : NoName [] := by
  intro t member
  cases member

/-- One more token that is no name. -/
theorem NoName.cons {t : Token} {tokens : List Token} (first : t.kind ≠ .directive)
    (others : NoName tokens) : NoName (t :: tokens) :=
  List.forall_mem_cons.mpr ⟨first, others⟩

/-- Tokens without a name behind others. -/
theorem NoName.append {tokens others : List Token} (first : NoName tokens)
    (second : NoName others) : NoName (tokens ++ others) :=
  List.forall_mem_append.mpr ⟨first, second⟩

/-- Whether a step behind the name of a directive emits no further name, and stays there, ends
the line or stops. -/
def GoesOn (outcome : Outcome) : Prop :=
  NoName outcome.1 ∧
    (outcome.2.InArguments ∨ outcome.2 = .lineStart ∨
      ∃ e, outcome.2 = .failed e ∧ e.cause.insideDirective = true)

/-- A word is no name. -/
theorem noName_wordTokens (word : Option Run) : NoName (wordTokens word) := by
  cases word with
  | none => exact .nil
  | some run => exact .cons nofun .nil

/-- A **character inside an argument.**  A line that ends inside quotes is the one error here. -/
theorem stepBody_goesOn (quoting : Quoting) (word : Option Run) (p : Position) (c : Char) :
    GoesOn (stepBody quoting word p c) := by
  -- a mark, a blank or punctuation behind the word that it ends
  have ended {t : Token} (other : t.kind ≠ .directive) : NoName (wordTokens word ++ [t]) :=
    (noName_wordTokens word).append (.cons other .nil)
  unfold stepBody
  split
  · exact ⟨.nil, .inl trivial⟩
  · split
    · cases quoting with
      | bare => exact ⟨ended nofun, .inr (.inl rfl)⟩
      | quoted opened => exact ⟨.nil, .inr (.inr ⟨_, rfl, rfl⟩)⟩
    · split
      · cases quoting with
        | bare => exact ⟨ended nofun, .inl trivial⟩
        | quoted opened => exact ⟨noName_wordTokens word, .inl trivial⟩
      · split
        · exact ⟨ended nofun, .inl trivial⟩
        · split
          · exact ⟨ended nofun, .inl trivial⟩
          · exact ⟨.nil, .inl trivial⟩

/-- A **character between arguments**, which may begin the next one. -/
theorem stepBetween_goesOn (p : Position) (c : Char) : GoesOn (stepBetween p c) := by
  unfold stepBetween
  split
  · exact ⟨.nil, .inr (.inl rfl)⟩
  · split
    · exact ⟨.nil, .inl trivial⟩
    · split
      · exact ⟨.cons nofun .nil, .inl trivial⟩
      · split
        · exact ⟨.nil, .inl trivial⟩
        · obtain ⟨noName, after⟩ := stepBody_goesOn .bare none p c
          exact ⟨.cons nofun noName, after⟩

/-- A **character behind blanks** in quotes is read as one of the argument. -/
theorem stepBlanks_goesOn (opened : Position) (run : Run) (p : Position) (c : Char) :
    GoesOn (stepBlanks opened run p c) := by
  unfold stepBlanks
  split
  · exact ⟨.nil, .inl trivial⟩
  · obtain ⟨noName, after⟩ := stepBody_goesOn (.quoted opened) none p c
    exact ⟨.cons nofun noName, after⟩

/-- A **continuation** leads back to where the line was interrupted. -/
theorem continued_goesOn {context : Context} (inside : context.InArguments) :
    GoesOn (continued context) := by
  cases context with
  | name run => exact inside.elim
  | between => exact ⟨.nil, .inl trivial⟩
  | body quoting word => exact ⟨.nil, .inl trivial⟩

/-- One **character behind the name of a directive.**  Either the lexer stays behind the name, or
the line has ended, or there is an error of the kind that is found inside of directives; and no name
is given in any of them. -/
theorem step_goesOn {state : State} (inside : state.InArguments) (p : Position) (c : Char) :
    GoesOn (step p state c) := by
  cases state with
  | lineStart => exact inside.elim
  | comment run => exact inside.elim
  | failed error => exact inside.elim
  | blanks opened run => exact stepBlanks_goesOn opened run p c
  | reading context =>
    cases context with
    | name run => exact inside.elim
    | between => exact stepBetween_goesOn p c
    | body quoting word => exact stepBody_goesOn quoting word p c
  | escape context backslash =>
    show GoesOn (stepEscape context backslash c)
    unfold stepEscape
    split
    · exact continued_goesOn inside
    · split
      · exact ⟨.nil, .inl inside⟩
      -- a backslash between arguments is an error unless a line break follows it
      · cases context with
        | name run => exact inside.elim
        | between => exact ⟨.nil, .inr (.inr ⟨_, rfl, rfl⟩)⟩
        | body quoting word => exact ⟨.nil, .inl trivial⟩
  | escapeReturn context backslash =>
    show GoesOn (stepEscapeReturn context backslash p c)
    unfold stepEscapeReturn
    split
    · exact continued_goesOn inside
    · cases context with
      | name run => exact inside.elim
      | between => exact ⟨.nil, .inr (.inr ⟨_, rfl, rfl⟩)⟩
      | body quoting word => exact stepBody_goesOn quoting _ p c

/-- The end of the text **inside an argument** is an error where the argument is in quotes. -/
theorem finishBody_failure {quoting : Quoting} {word : Option Run} {p : Position} {e : LexError}
    (failed : (finishBody quoting word p).2 = some e) :
    NoName (finishBody quoting word p).1 ∧ e.cause.insideDirective = true := by
  cases quoting with
  | bare => cases failed
  | quoted opened =>
    obtain rfl := Option.some.inj failed
    exact ⟨.nil, rfl⟩

/-- The end of the text behind the name of a directive.  If there is an error, it is one of those
that are found inside of directives, and no name is given with it. -/
theorem finish_inArguments {state : State} (inside : state.InArguments) {p : Position}
    {e : LexError} (failed : (finish p state).2 = some e) :
    NoName (finish p state).1 ∧ e.cause.insideDirective = true := by
  cases state with
  | lineStart => exact inside.elim
  | comment run => exact inside.elim
  | failed error => exact inside.elim
  | blanks opened run =>
    obtain rfl := Option.some.inj failed
    exact ⟨.cons nofun .nil, rfl⟩
  | reading context =>
    cases context with
    | name run => exact inside.elim
    | between => cases failed
    | body quoting word => exact finishBody_failure failed
  | escape context backslash =>
    cases context with
    | name run => exact inside.elim
    | between | body quoting word =>
      obtain rfl := Option.some.inj failed
      exact ⟨.nil, rfl⟩
  | escapeReturn context backslash =>
    cases context with
    | name run => exact inside.elim
    | between =>
      obtain rfl := Option.some.inj failed
      exact ⟨.nil, rfl⟩
    | body quoting word => exact finishBody_failure failed

/-- No name is emitted **behind the name of a directive** before the end of the line, and an error
there is one inside the directive. -/
theorem scanFrom_inArguments {p : Position} {state : State} {cs : List Char} {e : LexError}
    (inside : state.InArguments) (stays : StaysInLine p state cs)
    (failed : (scanFrom p state cs).failure = some e) :
    NoName (scanFrom p state cs).tokens ∧ e.cause.insideDirective = true := by
  induction cs generalizing p state with
  | nil => exact finish_inArguments inside failed
  | cons c cs ih =>
    obtain ⟨noName, after⟩ := step_goesOn inside p c
    rw [scanFrom_cons, Scan.prepend_failure] at failed
    rw [scanFrom_cons, Scan.prepend_tokens]
    rcases after with inside | atStart | ⟨error, stopped, cause⟩
    · obtain ⟨others, cause⟩ := ih inside stays.tail failed
      exact ⟨noName.append others, cause⟩
    · exact absurd atStart stays.head
    · rw [stopped, scanFrom_failed] at failed
      obtain rfl := Option.some.inj failed
      rw [stopped, scanFrom_failed]
      exact ⟨noName.append .nil, cause⟩

/-! ### Names

In the name there are four ways to go on, and each of them leads to a place where what remains is
known: in the name, behind it, at the start of a line, or stopped. -/

/-- Whether a place where a backslash may stand is in the name of a directive. -/
def Context.InName : Context → Prop
  | .name _ => True
  | .between | .body _ _ => False

/-- The states on the line of a directive whose name may still go on. -/
def State.InName : State → Prop
  | .reading context | .escape context _ | .escapeReturn context _ => context.InName
  | .lineStart | .comment _ | .blanks _ _ | .failed _ => False

/-- What a step in the name of a directive does: the name goes on, or it is emitted and the
arguments begin, or the line ends, or a character stops the lexer. -/
inductive NameStep (outcome : Outcome) : Prop
  | goes (silent : outcome.1 = []) (inside : outcome.2.InName)
  | emits (name : Token) (emitted : outcome.1 = [name]) (kind : name.kind = .directive)
      (inside : outcome.2.InArguments)
  | ends (atStart : outcome.2 = .lineStart)
  | stops (silent : outcome.1 = []) (c : Char) (position : Position)
      (stopped : outcome.2 = .failed ⟨.nameCharacter c, position⟩)

/-- One **character in the name of a directive.**  It goes on with the name, completes it, or is
refused with nothing given for it. -/
theorem step_inName {state : State} (inside : state.InName) (p : Position) (c : Char) :
    NameStep (step p state c) := by
  cases state with
  | lineStart => exact inside.elim
  | comment run => exact inside.elim
  | blanks opened run => exact inside.elim
  | failed error => exact inside.elim
  | reading context =>
    cases context with
    | between => exact inside.elim
    | body quoting word => exact inside.elim
    | name run =>
      -- a letter goes on with the name, a blank or a continuation ends it, all else is malformed
      show NameStep (stepName run p c)
      unfold stepName
      split
      · exact .goes rfl trivial
      · split
        · exact .ends rfl
        · split
          · exact .goes rfl trivial
          · split
            · exact .emits _ rfl rfl trivial
            · exact .stops rfl _ _ rfl
  | escape context backslash =>
    cases context with
    | between => exact inside.elim
    | body quoting word => exact inside.elim
    | name run =>
      show NameStep (stepEscape (.name run) backslash c)
      unfold stepEscape
      split
      · exact .emits _ rfl rfl trivial
      · split
        · exact .goes rfl trivial
        · exact .stops rfl _ _ rfl
  | escapeReturn context backslash =>
    cases context with
    | between => exact inside.elim
    | body quoting word => exact inside.elim
    | name run =>
      show NameStep (stepEscapeReturn (.name run) backslash p c)
      unfold stepEscapeReturn
      split
      · exact .emits _ rfl rfl trivial
      · exact .stops rfl _ _ rfl

/-- The end of the text in the name of a directive. -/
theorem finish_inName {state : State} (inside : state.InName) {p : Position} {e : LexError}
    (failed : (finish p state).2 = some e) :
    (finish p state).1 = [] ∧ ∃ c, e.cause = .nameCharacter c := by
  cases state with
  | lineStart => exact inside.elim
  | comment run => exact inside.elim
  | blanks opened run => exact inside.elim
  | failed error => exact inside.elim
  | reading context =>
    cases context with
    | between => exact inside.elim
    | body quoting word => exact inside.elim
    | name run => cases failed
  | escape context backslash | escapeReturn context backslash =>
    cases context with
    | between => exact inside.elim
    | body quoting word => exact inside.elim
    | name run =>
      obtain rfl := Option.some.inj failed
      exact ⟨rfl, _, rfl⟩

/-- What the lexer has given for the malformed end of a text: nothing, or the name of a directive
with no other name behind it. -/
def LeavesOver (tokens : List Token) (e : LexError) : Prop :=
  (tokens = [] ∧ e.cause.insideDirective = false) ∨
    ∃ name others, tokens = name :: others ∧ name.kind = .directive ∧
      NoName others ∧ e.cause.insideDirective = true

/-- A malformed name leaves nothing over. -/
theorem malformedName {tokens : List Token} {e : LexError} {c : Char} (silent : tokens = [])
    (cause : e.cause = .nameCharacter c) :
    LeavesOver tokens e ∧ ∀ d, e.cause ≠ .strayCharacter d := by
  rw [LeavesOver, cause]
  exact ⟨.inl ⟨silent, rfl⟩, nofun⟩

/-- The **scan from inside the name of a directive.**  By induction on the rest of the text: the
name is malformed before it is emitted, or everything behind it is an argument. -/
theorem scanFrom_inName {p : Position} {state : State} {cs : List Char} {e : LexError}
    (inside : state.InName) (stays : StaysInLine p state cs)
    (failed : (scanFrom p state cs).failure = some e) :
    LeavesOver (scanFrom p state cs).tokens e ∧ ∀ c, e.cause ≠ .strayCharacter c := by
  induction cs generalizing p state with
  | nil =>
    obtain ⟨silent, c, cause⟩ := finish_inName inside failed
    exact malformedName silent cause
  | cons c cs ih =>
    rw [scanFrom_cons, Scan.prepend_failure] at failed
    rw [scanFrom_cons, Scan.prepend_tokens]
    cases step_inName inside p c with
    | goes silent inside =>
      rw [silent]
      exact ih inside stays.tail failed
    | emits name emitted kind inside =>
      obtain ⟨noName, cause⟩ := scanFrom_inArguments inside stays.tail failed
      rw [emitted]
      refine ⟨.inr ⟨name, _, rfl, kind, noName, cause⟩, ?_⟩
      intro d stray
      rw [stray] at cause
      cases cause
    | ends atStart => exact absurd atStart stays.head
    | stops silent d position stopped =>
      rw [stopped, scanFrom_failed] at failed
      obtain rfl := Option.some.inj failed
      rw [silent, stopped, scanFrom_failed]
      exact malformedName (List.append_nil []) rfl

/-! ### The cut

What stands behind the cut begins a line.  If that is a comment or a blank, there is no error, or
the cut is further back. -/

/-- Behind the last start of a line there is no later one. -/
theorem cut_unique {p : Position} {before middle rest : List Char}
    (atStart : (run p .lineStart before).2 = .lineStart)
    (stays : StaysInLine (p.advance before) .lineStart (middle ++ rest))
    (later : (run p .lineStart (before ++ middle)).2 = .lineStart) :
    before = before ++ middle := by
  rw [run_append, atStart] at later
  by_contra nonempty
  refine stays middle rest rfl ?_ later
  rintro rfl
  exact nonempty (List.append_nil before).symm

/-- Where in a text an error stops the lexer.  The lexer is at the start of a line, maybe behind
blanks, for the last time behind `before`; there stands the character that can begin no line, or
else the name of the directive that is malformed. -/
def StopsBehind (label : String) (before rest : List Char) (e : LexError) : Prop :=
  (run (.start label) .lineStart before).2 = .lineStart ∧
    StaysInLine ((Position.start label).advance before) .lineStart rest ∧
    match e.cause with
    | .strayCharacter c =>
      rest.head? = some c ∧ e.position = (Position.start label).advance before
    | _ =>
      ∃ name others, rest = name ++ others ∧ name ≠ [] ∧ (∀ c ∈ name, Text.isLetter c = true) ∧
        ∀ c, others.head? = some c → Text.isLetter c = false

/-- There is one cut: a later start of a line is not inside what stands behind an earlier one. -/
theorem StopsBehind.unique {label : String} {before rest before' rest' : List Char} {e : LexError}
    (stops : StopsBehind label before rest e) (stops' : StopsBehind label before' rest' e)
    (same : before ++ rest = before' ++ rest') : before = before' := by
  rcases List.append_eq_append_iff.mp same with ⟨middle, rfl, rfl⟩ | ⟨middle, rfl, rfl⟩
  · exact cut_unique stops.1 stops.2.1 stops'.1
  · exact (cut_unique stops'.1 stops'.2.1 stops.1).symm

/-- The letters at the start of a text that begins with one. -/
theorem exists_name {c : Char} (letter : Text.isLetter c = true) (cs : List Char) :
    ∃ name others, c :: cs = name ++ others ∧ name ≠ [] ∧
      (∀ d ∈ name, Text.isLetter d = true) ∧
      ∀ d, others.head? = some d → Text.isLetter d = false := by
  refine ⟨(c :: cs).takeWhile Text.isLetter, (c :: cs).dropWhile Text.isLetter,
    List.takeWhile_append_dropWhile.symm, ?_, ?_, ?_⟩
  · rw [List.takeWhile_cons_of_pos letter]
    exact List.cons_ne_nil _ _
  · exact fun d member => List.mem_takeWhile_imp member
  · intro d head
    have stopped := List.head?_dropWhile_not Text.isLetter (c :: cs)
    rw [head] at stopped
    exact stopped

/-- A character at the start of a line begins a comment, keeps the lexer there, begins a name or
stops the lexer. -/
theorem stepLineStart_cases (p : Position) (c : Char) :
    (∃ mark run, stepLineStart p c = ([mark], .comment run)) ∨
      stepLineStart p c = ([], .lineStart) ∨
      (Text.isLetter c = true ∧ ∃ run, stepLineStart p c = ([], .reading (.name run))) ∨
      stepLineStart p c = fail (.strayCharacter c) p := by
  unfold stepLineStart
  split
  · exact .inl ⟨_, _, rfl⟩
  · split
    · exact .inr (.inl rfl)
    · split
      · next letter => exact .inr (.inr (.inl ⟨letter, _, rfl⟩))
      · exact .inr (.inr (.inr rfl))

/-- The **cut of a malformed text.**  The tokens before it are those of the text before it, and of
the rest the lexer has given at most the name of one directive with tokens behind it. -/
theorem exists_stop {label : String} {cs : List Char} {e : LexError}
    (failed : (scanFrom (.start label) .lineStart cs).failure = some e) :
    ∃ before rest, cs = before ++ rest ∧ StopsBehind label before rest e ∧
      ∃ others, (scanFrom (.start label) .lineStart cs).tokens =
          (run (.start label) .lineStart before).1 ++ others ∧ LeavesOver others e := by
  obtain ⟨before, rest, rfl, atStart, stays⟩ := exists_last_lineStart (.start label) cs
  rw [scanFrom_append, atStart, Scan.prepend_failure] at failed
  rw [scanFrom_append, atStart]
  refine ⟨before, rest, rfl, ?_⟩
  cases rest with
  | nil => cases failed
  | cons c others =>
    have first : step ((Position.start label).advance before) .lineStart c =
        stepLineStart ((Position.start label).advance before) c := rfl
    rw [scanFrom_cons, Scan.prepend_failure] at failed
    rw [scanFrom_cons]
    have outside := stays.head
    have inLine := stays.tail
    -- a comment cannot fail, and behind a blank the lexer would be at the start of a line again
    rcases stepLineStart_cases ((Position.start label).advance before) c with
      ⟨mark, run, comment⟩ | blank | ⟨letter, run, name⟩ | stray
    · rw [first, comment] at failed inLine
      rw [scanFrom_comment_failure _ _ inLine] at failed
      cases failed
    · rw [first, blank] at outside
      exact absurd rfl outside
    · rw [first, name] at failed inLine
      rw [first, name]
      have inside : (State.reading (.name run)).InName := trivial
      obtain ⟨leftOver, noStray⟩ := scanFrom_inName inside inLine failed
      refine ⟨⟨atStart, stays, ?_⟩, _, rfl, leftOver⟩
      split
      · next stray => exact absurd stray (noStray _)
      · exact exists_name letter others
    · rw [first, stray, fail, scanFrom_failed] at failed
      obtain rfl := Option.some.inj failed
      rw [first, stray, fail, scanFrom_failed]
      exact ⟨⟨atStart, stays, rfl, rfl⟩, _, rfl, .inl ⟨rfl, rfl⟩⟩

end Lexer

end WafRules
