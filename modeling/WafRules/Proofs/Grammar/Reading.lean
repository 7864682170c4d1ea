import WafRules.Proofs.Grammar.Tokens

/-!
# Accepted texts

The lexer accepts a text exactly when the text has a reading by the lexical grammar.  One half
is the work of `scanFrom_layoutSource`.  The other half builds a reading from the run of the
lexer, backwards: for every state of the lexer there is a language of texts that may come next
(`StateRest`), and a step of the lexer that does not fail takes a text of the language after it
to a text of the language before it (`stateRest_of_step`).  In the middle of an escape the
language is that of the state before the backslash, cut behind what has been read of the escape.

## Main Definitions

* `StateRest` — the texts that complete what a state holds.

## Main Statements

* `stateRest_of_scanFrom` — what is scanned without an error completes the state.
* `exists_layout_of_scan` — a text that is scanned without an error has a reading.
* `tokenize_isOk_iff` — the texts that have a token stream.
-/

namespace WafRules

namespace Grammar

open Lexer (Quoting Context State scanFrom)

/-! ### What may come next

A language for each state, made of the trees that may complete what the state holds. -/

/-- The texts that complete a directive behind its name. -/
def DirectiveRest (cs : List Char) : Prop :=
  ∃ pieces lines, PiecesFit (followingSource lines) pieces ∧ FollowingFit lines ∧
    cs = piecesSource pieces ++ followingSource lines

/-- The texts that complete an argument and its directive. -/
def BodyRest : Quoting → List Char → Prop
  | .bare, cs => ∃ body after, DirectiveRest after ∧ EndsArgument after ∧
      BodyFits .bare after body ∧ cs = bodySource body ++ after
  | .quoted _, cs => ∃ body after, DirectiveRest after ∧
      BodyFits .quoted ('\x22' :: after) body ∧ cs = bodySource body ++ '\x22' :: after

/-- The texts that complete the name of a directive and the directive. -/
def NameRest (cs : List Char) : Prop :=
  ∃ name pieces lines, (∀ c ∈ name, Text.isLetter c = true) ∧
    (∀ piece, pieces.head? = some piece → piece.IsGap) ∧
    PiecesFit (followingSource lines) pieces ∧ FollowingFit lines ∧
    cs = name ++ (piecesSource pieces ++ followingSource lines)

/-- The texts that complete what the lexer reads at a place where a backslash may stand. -/
def ContextRest : Context → List Char → Prop
  | .name _, cs => NameRest cs
  | .between, cs => DirectiveRest cs
  | .body quoting _, cs => BodyRest quoting cs

/-- The texts that complete what a state of the lexer holds. -/
def StateRest : State → List Char → Prop
  | .lineStart, cs => ∃ layout : Layout, layout.Fits ∧ cs = layout.source
  | .comment _, cs => ∃ text lines, '\n' ∉ text ∧ FollowingFit lines ∧
      cs = text ++ followingSource lines
  | .reading context, cs => ContextRest context cs
  | .blanks opened _, cs => BodyRest (.quoted opened) cs
  | .escape context _, cs => ContextRest context ('\\' :: cs)
  | .escapeReturn context _, cs => ContextRest context ('\\' :: '\r' :: cs)
  | .failed _, _ => False

/-- The lines of a text, behind a line feed. -/
theorem exists_lines_of_layout {cs : List Char} (rest : StateRest .lineStart cs) :
    ∃ lines, FollowingFit lines ∧ '\n' :: cs = followingSource lines := by
  obtain ⟨layout, fits, rfl⟩ := rest
  exact ⟨layout.first :: layout.following, fits, rfl⟩

/-- The line of a directive may end anywhere between the arguments. -/
theorem directiveRest_lineFeed {cs : List Char} (rest : StateRest .lineStart cs) :
    DirectiveRest ('\n' :: cs) := by
  obtain ⟨lines, fit, same⟩ := exists_lines_of_layout rest
  exact ⟨[], lines, trivial, fit, same⟩

/-- One more piece of a directive's line. -/
theorem directiveRest_piece (piece : Piece) {cs : List Char} (fits : piece.Fits cs)
    (rest : DirectiveRest cs) : DirectiveRest (piece.source ++ cs) := by
  obtain ⟨pieces, lines, piecesFit, fit, rfl⟩ := rest
  refine ⟨piece :: pieces, lines, ⟨fits, piecesFit⟩, fit, ?_⟩
  rw [piecesSource_cons, List.append_assoc]

/-- A gap behind the name of a directive. -/
theorem nameRest_gap (piece : Piece) {cs : List Char} (gap : piece.IsGap) (fits : piece.Fits cs)
    (rest : DirectiveRest cs) : NameRest (piece.source ++ cs) := by
  obtain ⟨pieces, lines, piecesFit, fit, rfl⟩ := rest
  refine ⟨[], piece :: pieces, lines, ?_, ?_, ⟨fits, piecesFit⟩, fit, ?_⟩
  · intro c member
    cases member
  · intro first head
    cases head
    exact gap
  · rw [List.nil_append, piecesSource_cons, List.append_assoc]

/-- One more unit of an argument. -/
theorem bodyRest_atom {quoting : Quoting} (atom : Atom) {cs : List Char}
    (fits : atom.Fits (styleOf quoting) cs) (rest : BodyRest quoting cs) :
    BodyRest quoting (atom.source ++ cs) := by
  cases quoting with
  | bare =>
    obtain ⟨body, after, directive, ends, bodyFits, rfl⟩ := rest
    refine ⟨atom :: body, after, directive, ends, ⟨fits, bodyFits⟩, ?_⟩
    rw [bodySource_cons, List.append_assoc]
  | quoted opened =>
    obtain ⟨body, after, directive, bodyFits, rfl⟩ := rest
    refine ⟨atom :: body, after, directive, ⟨fits, bodyFits⟩, ?_⟩
    rw [bodySource_cons, List.append_assoc]

/-! ### One step back

One lemma for each state: a character and a text that completes the state behind it are a text that
completes the state in front of it.  The unit or piece that the character belongs to is put in front
of a tree, or made longer by a character. -/

/-- An argument is completed from behind one of its characters.  The character is one more unit in
front, a part of the unit behind a backslash, or what ends the argument, and in that case it belongs
to the line of the directive. -/
theorem bodyRest_of_step {quoting : Quoting} {word : Option Lexer.Run} {p : Position} {c : Char}
    {cs : List Char} (rest : StateRest (Lexer.stepBody quoting word p c).2 cs) :
    BodyRest quoting (c :: cs) := by
  by_cases backslash : c = '\\'
  · subst backslash
    have escape : Lexer.stepBody quoting word p '\\' = ([], .escape (.body quoting word) p) := by
      simp [Lexer.stepBody]
    rw [escape] at rest
    exact rest
  by_cases lineFeed : c = '\n'
  · subst lineFeed
    cases quoting with
    | quoted opened =>
      simp [Lexer.stepBody, Lexer.fail, StateRest] at rest
    | bare =>
      have ended : (Lexer.stepBody .bare word p '\n').2 = .lineStart := by
        simp [Lexer.stepBody]
      rw [ended] at rest
      refine ⟨[], '\n' :: cs, directiveRest_lineFeed rest, ?_, trivial, rfl⟩
      intro c head
      exact .inr (by simpa using head.symm)
  by_cases blank : Text.isBlank c = true
  · cases quoting with
    | quoted opened =>
      have collected : (Lexer.stepBody (.quoted opened) word p c).2 =
          .blanks opened ⟨p, c.toString⟩ := by
        simp [Lexer.stepBody, backslash, lineFeed, blank]
      rw [collected] at rest
      exact bodyRest_atom (.char c)
        ⟨lineFeed, backslash, (ne_of_isBlank blank).2.2⟩ rest
    | bare =>
      have ended : (Lexer.stepBody .bare word p c).2 = .reading .between := by
        simp [Lexer.stepBody, backslash, lineFeed, blank]
      rw [ended] at rest
      have gap : DirectiveRest (c :: cs) := directiveRest_piece (.blank c) blank rest
      refine ⟨[], c :: cs, gap, ?_, trivial, rfl⟩
      intro d head
      cases head
      exact .inl blank
  by_cases closing : c = '\x22' ∧ quoting ≠ .bare
  · obtain ⟨rfl, notBare⟩ := closing
    cases quoting with
    | bare => exact absurd rfl notBare
    | quoted opened =>
      have closed : (Lexer.stepBody (.quoted opened) word p '\x22').2 = .reading .between := by
        simp [Lexer.stepBody, blank]
      rw [closed] at rest
      exact ⟨[], cs, rest, trivial, rfl⟩
  · -- A double quote inside a bare argument comes here too: it is a character as any other.
    have stays : ∃ after, (Lexer.stepBody quoting word p c).2 =
        .reading (.body quoting after) := by
      cases punct : Punct.ofChar? c <;>
        simp [Lexer.stepBody, backslash, lineFeed, blank, closing, punct]
    obtain ⟨after, state⟩ := stays
    rw [state] at rest
    refine bodyRest_atom (.char c) ?_ rest
    have notBlank : Text.isBlank c = false := Bool.eq_false_iff.mpr blank
    cases quoting with
    | bare => exact ⟨notBlank, lineFeed, backslash⟩
    | quoted opened =>
      exact ⟨lineFeed, backslash, fun isQuote => closing ⟨isQuote, by simp⟩⟩

/-- A directive is completed from behind a character between its arguments.  Here the character is a
blank, or it begins a continuation or an argument; a line feed ends the line. -/
theorem directiveRest_of_step {p : Position} {c : Char} {cs : List Char}
    (rest : StateRest (Lexer.stepBetween p c).2 cs) : DirectiveRest (c :: cs) := by
  by_cases lineFeed : c = '\n'
  · subst lineFeed
    have ended : (Lexer.stepBetween p '\n').2 = .lineStart := by simp [Lexer.stepBetween]
    rw [ended] at rest
    exact directiveRest_lineFeed rest
  by_cases backslash : c = '\\'
  · subst backslash
    have escape : (Lexer.stepBetween p '\\').2 = .escape .between p := by
      simp [Lexer.stepBetween]
    rw [escape] at rest
    exact rest
  by_cases isQuote : c = '\x22'
  · subst isQuote
    have opened : (Lexer.stepBetween p '\x22').2 = .reading (.body (.quoted p) none) := by
      simp [Lexer.stepBetween]
    rw [opened] at rest
    obtain ⟨body, after, directive, bodyFits, rfl⟩ := rest
    have piece := directiveRest_piece (.quoted body) bodyFits directive
    simpa [Piece.source] using piece
  by_cases blank : Text.isBlank c = true
  · have skipped : (Lexer.stepBetween p c).2 = .reading .between := by
      simp [Lexer.stepBetween, lineFeed, backslash, isQuote, blank]
    rw [skipped] at rest
    exact directiveRest_piece (.blank c) blank rest
  · have opened : (Lexer.stepBetween p c).2 = (Lexer.stepBody .bare none p c).2 := by
      simp [Lexer.stepBetween, lineFeed, backslash, isQuote, blank]
    rw [opened] at rest
    have notBlank : Text.isBlank c = false := Bool.eq_false_iff.mpr blank
    -- The argument is read again from its first character, which its first unit must be.
    obtain ⟨body, after, directive, ends, bodyFits, same⟩ := bodyRest_of_step rest
    cases body with
    | nil =>
      rcases ends c (by rw [← List.nil_append after, ← bodySource_nil, ← same]; rfl) with
        endBlank | endLineFeed
      · exact absurd endBlank blank
      · exact absurd endLineFeed lineFeed
    | cons atom body =>
      cases atom with
      | char d =>
        obtain ⟨rfl, rfl⟩ := List.cons.inj same
        exact directiveRest_piece (.bare c body)
          ⟨⟨notBlank, lineFeed, backslash, isQuote⟩, bodyFits.2, ends⟩ directive
      | pair d => exact absurd (List.cons.inj same).1 backslash
      | continuation ending => exact absurd (List.cons.inj same).1 backslash

/-- A line is completed from behind a character of a directive's name.  A letter makes the name
longer; whatever else may stand here ends it. -/
theorem nameRest_of_step {run : Lexer.Run} {p : Position} {c : Char} {cs : List Char}
    (rest : StateRest (Lexer.stepName run p c).2 cs) : NameRest (c :: cs) := by
  by_cases letter : Text.isLetter c = true
  · have collected : (Lexer.stepName run p c).2 = .reading (.name (run.push c)) := by
      simp [Lexer.stepName, letter]
    rw [collected] at rest
    obtain ⟨name, pieces, lines, letters, gap, piecesFit, fit, rfl⟩ := rest
    refine ⟨c :: name, pieces, lines, ?_, gap, piecesFit, fit, rfl⟩
    exact List.forall_mem_cons.mpr ⟨letter, letters⟩
  by_cases lineFeed : c = '\n'
  · subst lineFeed
    have ended : (Lexer.stepName run p '\n').2 = .lineStart := by
      simp [Lexer.stepName, letter]
    rw [ended] at rest
    obtain ⟨lines, fit, same⟩ := exists_lines_of_layout rest
    exact ⟨[], [], lines, by simp, by simp, trivial, fit, same⟩
  by_cases backslash : c = '\\'
  · subst backslash
    have escape : (Lexer.stepName run p '\\').2 = .escape (.name run) p := by
      simp [Lexer.stepName, letter]
    rw [escape] at rest
    exact rest
  by_cases blank : Text.isBlank c = true
  · have ended : (Lexer.stepName run p c).2 = .reading .between := by
      simp [Lexer.stepName, letter, lineFeed, backslash, blank]
    rw [ended] at rest
    exact nameRest_gap (.blank c) trivial blank rest
  · simp [Lexer.stepName, letter, lineFeed, backslash, blank, Lexer.fail, StateRest] at rest

/-- A line is completed from behind its first character.  The first character that is not blank
decides between a comment, a directive and an empty line. -/
theorem lineRest_of_step {p : Position} {c : Char} {cs : List Char}
    (rest : StateRest (Lexer.stepLineStart p c).2 cs) : StateRest .lineStart (c :: cs) := by
  by_cases mark : c = '#'
  · subst mark
    have opened : (Lexer.stepLineStart p '#').2 = .comment ⟨p.next '#', ""⟩ := by
      simp [Lexer.stepLineStart]
    rw [opened] at rest
    obtain ⟨text, lines, noLineFeed, fit, rfl⟩ := rest
    exact ⟨⟨⟨[], .comment text⟩, lines⟩, ⟨⟨by simp, noLineFeed⟩, fit⟩, rfl⟩
  by_cases lineFeed : c = '\n'
  · subst lineFeed
    have skipped : (Lexer.stepLineStart p '\n').2 = .lineStart := by
      simp [Lexer.stepLineStart]
    rw [skipped] at rest
    obtain ⟨lines, fit, same⟩ := exists_lines_of_layout rest
    exact ⟨⟨⟨[], .nothing⟩, lines⟩, ⟨⟨by simp, trivial⟩, fit⟩, same⟩
  by_cases blank : Text.isBlank c = true
  · have skipped : (Lexer.stepLineStart p c).2 = .lineStart := by
      simp [Lexer.stepLineStart, mark, blank]
    rw [skipped] at rest
    obtain ⟨⟨⟨indent, content⟩, lines⟩, ⟨⟨blanks, contentFits⟩, fit⟩, rfl⟩ := rest
    exact ⟨⟨⟨c :: indent, content⟩, lines⟩,
      ⟨⟨List.forall_mem_cons.mpr ⟨blank, blanks⟩, contentFits⟩, fit⟩, rfl⟩
  by_cases letter : Text.isLetter c = true
  · have begun : (Lexer.stepLineStart p c).2 = .reading (.name ⟨p, c.toString⟩) := by
      simp [Lexer.stepLineStart, mark, lineFeed, blank, letter]
    rw [begun] at rest
    obtain ⟨name, pieces, lines, letters, gap, piecesFit, fit, rfl⟩ := rest
    refine ⟨⟨⟨[], .directive (c :: name) pieces⟩, lines⟩, ⟨⟨by simp, ?_⟩, fit⟩, ?_⟩
    · exact ⟨by simp, List.forall_mem_cons.mpr ⟨letter, letters⟩, gap, piecesFit⟩
    · simp [Layout.source, Line.source, Content.source]
  · simp [Lexer.stepLineStart, mark, lineFeed, blank, letter, Lexer.fail, StateRest] at rest

/-- A continuation completes nothing, and ends a name. -/
theorem contextRest_continuation {context : Context} {cs : List Char} (ending : LineBreak)
    (rest : StateRest (Lexer.continued context).2 cs) :
    ContextRest context (continuation ending ++ cs) := by
  cases context with
  | name run => exact nameRest_gap (.continuation ending) trivial trivial rest
  | between => exact directiveRest_piece (.continuation ending) trivial rest
  | body quoting word => exact bodyRest_atom (.continuation ending) trivial rest

/-- One **step back.**  If the text behind a character completes the state after it, the
character and the text complete the state before it. -/
theorem stateRest_of_step {state : State} {p : Position} {c : Char} {cs : List Char}
    (rest : StateRest (Lexer.step p state c).2 cs) : StateRest state (c :: cs) := by
  cases state with
  | lineStart => exact lineRest_of_step rest
  | comment run =>
    by_cases lineFeed : c = '\n'
    · subst lineFeed
      have ended : (Lexer.step p (.comment run) '\n').2 = .lineStart := by
        simp [Lexer.step, Lexer.stepComment]
      rw [ended] at rest
      obtain ⟨lines, fit, same⟩ := exists_lines_of_layout rest
      exact ⟨[], lines, by simp, fit, same⟩
    · have collected : (Lexer.step p (.comment run) c).2 = .comment (run.push c) := by
        simp [Lexer.step, Lexer.stepComment, lineFeed]
      rw [collected] at rest
      obtain ⟨text, lines, noLineFeed, fit, rfl⟩ := rest
      refine ⟨c :: text, lines, ?_, fit, rfl⟩
      exact List.not_mem_cons_of_ne_of_not_mem (Ne.symm lineFeed) noLineFeed
  | reading context =>
    cases context with
    | name run => exact nameRest_of_step rest
    | between => exact directiveRest_of_step rest
    | body quoting word => exact bodyRest_of_step rest
  | blanks opened run =>
    by_cases blank : Text.isBlank c = true
    · have collected : (Lexer.step p (.blanks opened run) c).2 =
          .blanks opened (run.push c) := by
        simp [Lexer.step, Lexer.stepBlanks, blank]
      rw [collected] at rest
      obtain ⟨notBackslash, notLineFeed, notQuote⟩ := ne_of_isBlank blank
      have fits : (Atom.char c).Fits (styleOf (.quoted opened)) cs :=
        ⟨notLineFeed, notBackslash, notQuote⟩
      exact bodyRest_atom _ fits rest
    · have inBody : (Lexer.step p (.blanks opened run) c).2 =
          (Lexer.stepBody (.quoted opened) none p c).2 := by
        simp [Lexer.step, Lexer.stepBlanks, blank]
      rw [inBody] at rest
      exact bodyRest_of_step rest
  | escape context backslash =>
    -- the backslash has been read, so the text to be completed begins with it
    by_cases lineFeed : c = '\n'
    · subst lineFeed
      have ended : Lexer.step p (.escape context backslash) '\n' = Lexer.continued context := by
        simp [Lexer.step, Lexer.stepEscape]
      rw [ended] at rest
      exact contextRest_continuation .lineFeed rest
    by_cases isReturn : c = '\r'
    · subst isReturn
      have waits : (Lexer.step p (.escape context backslash) '\r').2 =
          .escapeReturn context backslash := by
        simp [Lexer.step, Lexer.stepEscape]
      rw [waits] at rest
      exact rest
    cases context with
    | name run =>
      simp [Lexer.step, Lexer.stepEscape, lineFeed, isReturn, Lexer.fail, StateRest] at rest
    | between =>
      simp [Lexer.step, Lexer.stepEscape, lineFeed, isReturn, Lexer.fail, StateRest] at rest
    | body quoting word =>
      simp only [Lexer.step, Lexer.stepEscape, lineFeed, isReturn, if_false] at rest
      refine bodyRest_atom (.pair c) ?_ rest
      rintro (same | ⟨same, -⟩)
      · exact lineFeed same
      · exact isReturn same
  | escapeReturn context backslash =>
    by_cases lineFeed : c = '\n'
    · subst lineFeed
      have ended : Lexer.step p (.escapeReturn context backslash) '\n' =
          Lexer.continued context := by
        simp [Lexer.step, Lexer.stepEscapeReturn]
      rw [ended] at rest
      exact contextRest_continuation .returnLineFeed rest
    cases context with
    | name run => simp [Lexer.step, Lexer.stepEscapeReturn, lineFeed, Lexer.fail, StateRest] at rest
    | between => simp [Lexer.step, Lexer.stepEscapeReturn, lineFeed, Lexer.fail, StateRest] at rest
    | body quoting word =>
      simp only [Lexer.step, Lexer.stepEscapeReturn, lineFeed, if_false] at rest
      refine bodyRest_atom (.pair '\r') ?_ (bodyRest_of_step rest)
      rintro (same | ⟨-, head⟩)
      · exact absurd same (by decide)
      · exact lineFeed (by simpa using head)
  | failed error => exact rest.elim

/-! ### From the end of the text

At the end of the text the languages contain the empty text where the lexer has no error.  Going
back to the start of the text gives a tree for the whole of it. -/

/-- Nothing more may come where the text ends without an error.  There the empty text completes the
state. -/
theorem stateRest_of_finish {state : State} {p : Position}
    (ended : (Lexer.finish p state).2 = none) : StateRest state [] := by
  have nothing : DirectiveRest [] := ⟨[], [], trivial, trivial, rfl⟩
  have noHead : EndsArgument [] := fun c head => by cases head
  cases state with
  | lineStart => exact ⟨⟨⟨[], .nothing⟩, []⟩, ⟨⟨by simp, trivial⟩, trivial⟩, rfl⟩
  | comment run => exact ⟨[], [], by simp, trivial, rfl⟩
  | reading context =>
    cases context with
    | name run => exact ⟨[], [], [], by simp, by simp, trivial, trivial, rfl⟩
    | between => exact nothing
    | body quoting word =>
      cases quoting with
      | quoted opened => cases ended
      | bare => exact ⟨[], [], nothing, noHead, trivial, rfl⟩
  | blanks opened run => cases ended
  | escape context backslash => cases context <;> cases ended
  | escapeReturn context backslash =>
    cases context with
    | name run | between => cases ended
    | body quoting word =>
      cases quoting with
      | quoted opened => cases ended
      | bare =>
        refine ⟨[.pair '\r'], [], nothing, noHead, ⟨?_, trivial⟩, rfl⟩
        rintro (same | ⟨-, head⟩)
        · exact absurd same (by decide)
        · cases head
  | failed error => cases ended

/-- What is scanned without an error completes the state. -/
theorem stateRest_of_scanFrom {p : Position} {state : State} {cs : List Char}
    (scanned : (scanFrom p state cs).failure = none) : StateRest state cs := by
  induction cs generalizing p state with
  | nil => exact stateRest_of_finish scanned
  | cons c cs ih => exact stateRest_of_step (ih scanned)

/-- A **text that is scanned without an error has a reading.** -/
theorem exists_layout_of_scan {p : Position} {cs : List Char}
    (scanned : (scanFrom p .lineStart cs).failure = none) :
    ∃ layout : Layout, layout.Fits ∧ layout.source = cs := by
  obtain ⟨layout, fits, same⟩ := stateRest_of_scanFrom scanned
  exact ⟨layout, fits, same.symm⟩

end Grammar

open Grammar (Layout)

/-- The token stream of a text is that of its readings. -/
theorem tokenize_eq_ok_iff_layout {label text : String} {tokens : List Token} :
    tokenize label text = .ok tokens ↔
      ∃ layout : Layout, layout.Fits ∧ layout.source = text.toList ∧
        tokens = entryTokens (layout.entries (.start label)) ++
          [Lexer.token .endOfInput "" ((Position.start label).advance text.toList)] := by
  rw [tokenize_eq_ok_iff]
  constructor
  · intro scanned
    have succeeded := congrArg Lexer.Scan.failure scanned
    obtain ⟨layout, fits, source⟩ := Grammar.exists_layout_of_scan succeeded
    refine ⟨layout, fits, source, ?_⟩
    rw [← source, Grammar.scanFrom_layoutSource _ fits] at scanned
    rw [← source]
    exact (congrArg Lexer.Scan.tokens scanned).symm
  · rintro ⟨layout, fits, source, rfl⟩
    rw [← source, Grammar.scanFrom_layoutSource _ fits]

/-- The tokens of a text are those of its entries, and the end mark. -/
theorem exists_entryTokens {label text : String} {tokens : List Token}
    (tokenized : tokenize label text = .ok tokens) :
    ∃ entries last, tokens = entryTokens entries ++ [last] := by
  obtain ⟨layout, -, -, same⟩ := tokenize_eq_ok_iff_layout.mp tokenized
  exact ⟨_, _, same⟩

/-- The **texts that have a token stream are those of the lexical grammar.**  A layout gives its
tokens by reading it line by line; and a scan without an error is taken apart from its end, where
every state says which texts complete it. -/
theorem tokenize_isOk_iff (label text : String) :
    (∃ tokens, tokenize label text = .ok tokens) ↔
      ∃ layout : Layout, layout.Fits ∧ layout.source = text.toList := by
  constructor
  · rintro ⟨tokens, accepted⟩
    obtain ⟨layout, fits, source, -⟩ := tokenize_eq_ok_iff_layout.mp accepted
    exact ⟨layout, fits, source⟩
  · rintro ⟨layout, fits, source⟩
    exact ⟨_, tokenize_eq_ok_iff_layout.mpr ⟨layout, fits, source, rfl⟩⟩

end WafRules
