import WafRules.Proofs.Grammar.Words
import WafRules.Proofs.Relocation.Lexing

/-!
# Line continuations

A line continuation may be put between any two units behind the name of a directive.  The lexer is
in the state it was in before, but for two things: every place behind it has moved, and a run of
blanks inside quotes is cut in two.  So the comparison forgets places, and joins blanks that stand
side by side.

## Main Definitions

* `Position.forget` — the motion that makes all places one.
* `mergeBlanks` — lexemes with the blanks that stand side by side joined.
* `Lexer.Scan.Matches` — scans that are the same up to places and cuts of blanks.
* `Lexer.State.AtBoundary` — the states behind a name and between two units.

## Main Statements

* `Lexer.scanFrom_forget` — what a lexer does depends on no places.
* `Lexer.scanFrom_continuation` — the rest of a text behind a continuation.
* `tokenize_continuation` — the texts with and without a continuation.
-/

namespace WafRules

open Grammar (LineBreak continuation)

/-! ### Scans without places

Forgetting places is the motion to a single place.  It agrees with reading on in a trivial way, so
relocation says that scans from different places are the same but for places. -/

/-- All places made one. -/
def Position.forget (_ : Position) : Position := default

/-- Without their places tokens are their lexemes. -/
theorem relocate_forget_congr {tokens tokens' : List Token}
    (same : tokens.map Token.toLexeme = tokens'.map Token.toLexeme) :
    relocate Position.forget tokens = relocate Position.forget tokens' := by
  have forgotten (tokens : List Token) : relocate Position.forget tokens =
      (tokens.map Token.toLexeme).map fun lexeme => ⟨lexeme, default⟩ := by
    rw [List.map_map]
    rfl
  rw [forgotten, forgotten, same]

namespace Lexer

theorem stepLineStart_forget (p q : Position) (c : Char) :
    relocate Position.forget (stepLineStart p c) =
      relocate Position.forget (stepLineStart q c) := by
  unfold stepLineStart
  split
  · rfl
  · split
    · rfl
    · split <;> rfl

/-- The start of a line has no places to forget. -/
theorem relocate_eq_lineStart_iff {f : Position → Position} {state : State} :
    relocate f state = .lineStart ↔ state = .lineStart := by
  constructor
  · intro moved
    cases state with
    | lineStart => rfl
    | comment run | reading context | blanks opened run | escape context backslash
      | escapeReturn context backslash | failed error => cases moved
  · rintro rfl
    rfl

/-- One **character, wherever it stands.** -/
theorem step_forget (p q : Position) {state other : State}
    (same : relocate Position.forget state = relocate Position.forget other) (c : Char) :
    relocate Position.forget (step p state c) = relocate Position.forget (step q other c) := by
  by_cases start : state = .lineStart
  · have otherStart : other = .lineStart := by
      rw [start] at same
      exact relocate_eq_lineStart_iff.mp same.symm
    rw [start, otherStart]
    exact stepLineStart_forget p q c
  · have otherInLine : other ≠ .lineStart := by
      rintro rfl
      exact start (relocate_eq_lineStart_iff.mp same)
    rw [← step_relocate_of_ne _ p start, ← step_relocate_of_ne _ q otherInLine, same]
    rfl

/-- The **rest of a text, wherever it stands.** -/
theorem scanFrom_forget (p q : Position) {state other : State}
    (same : relocate Position.forget state = relocate Position.forget other) (cs : List Char) :
    relocate Position.forget (scanFrom p state cs) =
      relocate Position.forget (scanFrom q other cs) := by
  induction cs generalizing p q state other with
  | nil =>
    have ending : relocate Position.forget (finish p state) =
        relocate Position.forget (finish q other) := by
      rw [← finish_relocate, ← finish_relocate, same]
      rfl
    exact congrArg (fun result => Scan.mk result.1 result.2) ending
  | cons c cs ih =>
    have stepped := step_forget p q same c
    rw [scanFrom_cons, scanFrom_cons, ← Scan.prepend_relocate, ← Scan.prepend_relocate]
    have tokens : relocate Position.forget (step p state c).1 =
        relocate Position.forget (step q other c).1 := congrArg Prod.fst stepped
    rw [tokens, ih (p.next c) (q.next c) (congrArg Prod.snd stepped)]

end Lexer

/-! ### Blanks that stand side by side

Joining blanks is a fold over lexemes that does not depend on what stands in front, so scans may be
compared behind a common beginning. -/

/-- A lexeme before others, joined to the first of them if both are blanks. -/
def joinBlanks (first : Lexeme) : List Lexeme → List Lexeme
  | [] => [first]
  | second :: rest =>
    if first.kind = .blanks ∧ second.kind = .blanks then
      ⟨.blanks, first.value ++ second.value⟩ :: rest
    else first :: second :: rest

/-- Lexemes with every run of blanks joined to one. -/
def mergeBlanks (lexemes : List Lexeme) : List Lexeme := lexemes.foldr joinBlanks []

theorem mergeBlanks_append_congr (front : List Lexeme) {first second : List Lexeme}
    (same : mergeBlanks first = mergeBlanks second) :
    mergeBlanks (front ++ first) = mergeBlanks (front ++ second) := by
  simp only [mergeBlanks, List.foldr_append] at same ⊢
  rw [same]

/-- Blanks that are cut in two are joined again. -/
theorem mergeBlanks_cut (first second : String) (rest : List Lexeme) :
    mergeBlanks (⟨.blanks, first⟩ :: ⟨.blanks, second⟩ :: rest) =
      mergeBlanks (⟨.blanks, first ++ second⟩ :: rest) := by
  show joinBlanks _ (joinBlanks _ (mergeBlanks rest)) = joinBlanks _ (mergeBlanks rest)
  cases mergeBlanks rest with
  | nil => simp [joinBlanks]
  | cons third others =>
    by_cases blank : third.kind = .blanks
    · simp [joinBlanks, blank, String.append_assoc]
    · simp [joinBlanks, blank]

namespace Lexer

/-- Whether two scans are the same up to places and cuts of blanks, and end alike. -/
structure Scan.Matches (first second : Scan) : Prop where
  lexemes : mergeBlanks (first.tokens.map Token.toLexeme) =
    mergeBlanks (second.tokens.map Token.toLexeme)
  cause : first.failure.map LexError.cause = second.failure.map LexError.cause

/-- Places do not count in lexemes. -/
theorem Scan.lexemes_of_forget {first second : Scan}
    (same : relocate Position.forget first = relocate Position.forget second) :
    first.tokens.map Token.toLexeme = second.tokens.map Token.toLexeme := by
  have lexemes (scan : Scan) : (relocate Position.forget scan).tokens.map Token.toLexeme =
      scan.tokens.map Token.toLexeme := by
    show (scan.tokens.map (relocate Position.forget)).map Token.toLexeme = _
    rw [List.map_map]
    rfl
  rw [← lexemes first, ← lexemes second, same]

/-- Places do not count in causes. -/
theorem Scan.cause_of_forget {first second : Scan}
    (same : relocate Position.forget first = relocate Position.forget second) :
    first.failure.map LexError.cause = second.failure.map LexError.cause := by
  have causes (scan : Scan) : (relocate Position.forget scan).failure.map LexError.cause =
      scan.failure.map LexError.cause := by
    show (scan.failure.map (relocate Position.forget)).map LexError.cause = _
    rw [Option.map_map]
    rfl
  rw [← causes first, ← causes second, same]

namespace Scan.Matches

theorem prepend {first second : Scan} (matched : first.Matches second) (tokens : List Token) :
    (first.prepend tokens).Matches (second.prepend tokens) where
  lexemes := by
    simp only [Scan.prepend_tokens, List.map_append]
    exact mergeBlanks_append_congr _ matched.lexemes
  cause := matched.cause

/-- Places count neither in lexemes nor in causes. -/
theorem of_forget {first second : Scan}
    (same : relocate Position.forget first = relocate Position.forget second) :
    first.Matches second :=
  ⟨congrArg mergeBlanks (Scan.lexemes_of_forget same), Scan.cause_of_forget same⟩

/-- The same blanks, cut in two and whole. -/
theorem cut {first second : Scan} (matched : first.Matches second) (front back : String)
    (p q r : Position) :
    (first.prepend [token .blanks front p, token .blanks back q]).Matches
      (second.prepend [token .blanks (front ++ back) r]) where
  lexemes := by
    show mergeBlanks (⟨.blanks, front⟩ :: ⟨.blanks, back⟩ :: first.tokens.map Token.toLexeme) =
      mergeBlanks ([⟨.blanks, front ++ back⟩] ++ second.tokens.map Token.toLexeme)
    rw [mergeBlanks_cut]
    exact mergeBlanks_append_congr [⟨.blanks, front ++ back⟩] matched.lexemes
  cause := matched.cause

end Scan.Matches

/-! ### Blanks inside quotes

A continuation among blanks completes the run before it, and the blanks behind it begin another one.
Without the continuation the two are one run, which is what joining makes of them. -/

/-- A run of blanks that nothing joins becomes a token, and what ends it is read behind it. -/
theorem scanFrom_blanks_ended (p opened : Position) (run : Run) {cs : List Char}
    (ends : ∀ c, cs.head? = some c → Text.isBlank c = false) :
    scanFrom p (.blanks opened run) cs =
      (scanFrom p (.reading (.body (.quoted opened) none)) cs).prepend (blankTokens run) := by
  cases cs with
  | nil => rfl
  | cons c cs =>
    have notBlank := ends c rfl
    have stepped : step p (.blanks opened run) c =
        (blankTokens run ++ (stepBody (.quoted opened) none p c).1,
          (stepBody (.quoted opened) none p c).2) :=
      if_neg (by simp [notBlank])
    rw [scanFrom_step stepped, scanFrom_cons, Scan.prepend_prepend]
    rfl

/-- A run of blanks behind others that it might have been part of.  One scan has completed the first
part early, as a token of its own; the other has all of it pending.  The two give lexemes that are
the same once blanks side by side are joined. -/
theorem scanFrom_blanks_cut (p q opened place start start' : Position) (front back : String)
    (cs : List Char) :
    ((scanFrom p (.blanks opened ⟨start, back⟩) cs).prepend [token .blanks front place]).Matches
      (scanFrom q (.blanks opened ⟨start', front ++ back⟩) cs) := by
  have ended {cs : List Char} (ends : ∀ c, cs.head? = some c → Text.isBlank c = false)
      (p q : Position) (back : String) :
      ((scanFrom p (.blanks opened ⟨start, back⟩) cs).prepend [token .blanks front place]).Matches
        (scanFrom q (.blanks opened ⟨start', front ++ back⟩) cs) := by
    rw [scanFrom_blanks_ended p opened _ ends, scanFrom_blanks_ended q opened _ ends,
      Scan.prepend_prepend]
    exact (Scan.Matches.of_forget (scanFrom_forget p q rfl cs)).cut front back _ _ _
  -- both runs grow by the same blanks until something else, or the end, completes them
  induction cs generalizing p q back with
  | nil => exact ended (by simp) p q back
  | cons c cs ih =>
    by_cases blank : Text.isBlank c = true
    · have joins (p start : Position) (text : String) :
          step p (.blanks opened ⟨start, text⟩) c = ([], .blanks opened ⟨start, text.push c⟩) :=
        if_pos blank
      have longer : (front ++ back).push c = front ++ back.push c := by
        rw [← String.toList_inj]
        simp
      rw [scanFrom_step (joins p start back), scanFrom_step (joins q start' (front ++ back)),
        longer]
      exact ih (p.next c) (q.next c) (back.push c)
    · exact ended (by simpa using blank) p q back

/-- Inside quotes, what stands behind a run of blanks that has been completed early.  If more blanks
follow, one scan begins a new run with them and the other goes on with the old one, which is the
case of the lemma before. -/
theorem scanFrom_body_cut (p q opened place start : Position) (front : String) (cs : List Char) :
    ((scanFrom p (.reading (.body (.quoted opened) none)) cs).prepend
        [token .blanks front place]).Matches
      (scanFrom q (.blanks opened ⟨start, front⟩) cs) := by
  have ended (ends : ∀ c, cs.head? = some c → Text.isBlank c = false) :
      ((scanFrom p (.reading (.body (.quoted opened) none)) cs).prepend
          [token .blanks front place]).Matches
        (scanFrom q (.blanks opened ⟨start, front⟩) cs) := by
    rw [scanFrom_blanks_ended q opened _ ends]
    refine .of_forget ?_
    rw [← Scan.prepend_relocate, ← Scan.prepend_relocate, scanFrom_forget p q rfl cs]
    rfl
  cases cs with
  | nil => exact ended (by simp)
  | cons c cs =>
    by_cases blank : Text.isBlank c = true
    · obtain ⟨notBackslash, notLineFeed, -⟩ := Grammar.ne_of_isBlank blank
      have begins : step p (.reading (.body (.quoted opened) none)) c =
          ([], .blanks opened ⟨p, c.toString⟩) := by
        simp [step, stepReading, stepBody, notBackslash, notLineFeed, blank, wordTokens]
      have joins : step q (.blanks opened ⟨start, front⟩) c =
          ([], .blanks opened ⟨start, front.push c⟩) := if_pos blank
      have longer : front.push c = front ++ c.toString := by
        rw [← String.toList_inj]
        simp
      rw [scanFrom_step begins, scanFrom_step joins, longer]
      exact scanFrom_blanks_cut (p.next c) (q.next c) opened place p start front c.toString cs
    · exact ended (by simpa using blank)

/-! ### Continuations

At every other boundary of units the state behind the continuation is the state in front of it. -/

/-- Whether the lexer, with `back` to come, is behind the name of a directive on its line and
between two units: a character, an escaped character or a continuation. -/
def State.AtBoundary (back : List Char) : State → Prop
  | .reading .between | .reading (.body _ _) | .blanks _ _ => True
  | .escapeReturn .between _ | .escapeReturn (.body _ _) _ => back.head? ≠ some '\n'
  | .lineStart | .comment _ | .reading (.name _) | .escape _ _ | .escapeReturn (.name _) _
  | .failed _ => False

/-- Where a backslash may stand behind a name, a continuation changes nothing. -/
theorem scanFrom_reading_continuation (p : Position) (context : Context)
    (named : ∀ run, context ≠ .name run) (ending : LineBreak) (cs : List Char) :
    scanFrom p (.reading context) (continuation ending ++ cs) =
      scanFrom (p.advance (continuation ending)) (.reading context) cs := by
  have stepped : step p (.reading context) '\\' = ([], .escape context p) := by
    cases context with
    | name run => exact absurd rfl (named run)
    | between => rfl
    | body quoting word => rfl
  have continues : continued context = ([], .reading context) := by
    cases context with
    | name run => exact absurd rfl (named run)
    | between => rfl
    | body quoting word => rfl
  show scanFrom p (.reading context) ('\\' :: (ending.source ++ cs)) = _
  rw [scanFrom_step stepped, Grammar.scanFrom_continued, continues]
  rfl

/-- A backslash and a carriage return between arguments, without a line feed. -/
theorem scanFrom_strayBackslash (p backslash : Position) {cs : List Char}
    (other : cs.head? ≠ some '\n') :
    scanFrom p (.escapeReturn .between backslash) cs =
      ⟨[], some ⟨.strayBackslash, backslash⟩⟩ := by
  cases cs with
  | nil => rfl
  | cons c cs =>
    have stepped : step p (.escapeReturn .between backslash) c =
        ([], .failed ⟨.strayBackslash, backslash⟩) := if_neg (by simpa using other)
    rw [scanFrom_step stepped, scanFrom_failed]
    rfl

/-- The **rest of a text behind a continuation.**  The cases are the states at a boundary: only a
run of blanks is changed by the continuation, which completes it. -/
theorem scanFrom_continuation (p : Position) {state : State} {back : List Char}
    (boundary : state.AtBoundary back) (ending : LineBreak) :
    (scanFrom p state (continuation ending ++ back)).Matches (scanFrom p state back) := by
  have reading {context : Context} (named : ∀ run, context ≠ .name run) :
      (scanFrom p (.reading context) (continuation ending ++ back)).Matches
        (scanFrom p (.reading context) back) := by
    rw [scanFrom_reading_continuation p context named]
    exact .of_forget (scanFrom_forget _ p rfl back)
  have notLineFeed : (continuation ending ++ back).head? ≠ some '\n' := by
    simp [continuation]
  cases state with
  | lineStart | comment run | escape context backslash | failed error => exact boundary.elim
  | reading context =>
    cases context with
    | name run => exact boundary.elim
    | between => exact reading nofun
    | body quoting word => exact reading nofun
  | blanks opened run =>
    -- the backslash completes the run, which without it goes on into what follows
    have ends : ∀ c, (continuation ending ++ back).head? = some c → Text.isBlank c = false := by
      intro c head
      obtain rfl : '\\' = c := Option.some.inj head
      decide
    have completed := scanFrom_reading_continuation p (.body (.quoted opened) none) nofun
      ending back
    rw [scanFrom_blanks_ended p opened run ends, completed]
    exact scanFrom_body_cut _ p opened run.start run.start run.text back
  | escapeReturn context backslash =>
    cases context with
    | name run => exact boundary.elim
    | between =>
      rw [scanFrom_strayBackslash p backslash notLineFeed,
        scanFrom_strayBackslash p backslash boundary]
      exact .of_forget rfl
    | body quoting word =>
      rw [Grammar.scanFrom_escapeReturn quoting word backslash p notLineFeed,
        Grammar.scanFrom_escapeReturn quoting word backslash p boundary]
      exact reading nofun

end Lexer

/-- The scans of a text with and without a continuation. -/
theorem Lexer.scan_continuation (label : String) {front back : String} (ending : LineBreak)
    (boundary : (run (.start label) .lineStart front.toList).2.AtBoundary back.toList) :
    (scanFrom (.start label) .lineStart
        (front ++ String.ofList (continuation ending) ++ back).toList).Matches
      (scanFrom (.start label) .lineStart (front ++ back).toList) := by
  simp only [String.toList_append, String.toList_ofList, List.append_assoc]
  rw [scanFrom_append, scanFrom_append _ _ front.toList back.toList]
  exact (scanFrom_continuation _ boundary ending).prepend _

/-- A **continuation does not count** behind the name of a directive, between two units of a text:
with it and without it the text is malformed for the same reason, and so with the same message, or
has the same lexemes once blanks that stand side by side are joined. -/
theorem tokenize_continuation (label front back : String) (ending : LineBreak)
    (boundary :
      (Lexer.run (.start label) .lineStart front.toList).2.AtBoundary back.toList) :
    (∃ e e', tokenize label (front ++ String.ofList (continuation ending) ++ back) = .error e ∧
      tokenize label (front ++ back) = .error e' ∧ e.cause = e'.cause) ∨
    ∃ tokens tokens',
      tokenize label (front ++ String.ofList (continuation ending) ++ back) = .ok tokens ∧
      tokenize label (front ++ back) = .ok tokens' ∧
      mergeBlanks (tokens.map Token.toLexeme) = mergeBlanks (tokens'.map Token.toLexeme) := by
  obtain ⟨lexemes, cause⟩ := Lexer.scan_continuation label ending boundary
  cases whole : tokenize label (front ++ back) with
  | error e' =>
    have failed' := tokenize_eq_error_iff.mp whole
    rw [failed'] at cause
    obtain ⟨e, failed, same⟩ := Option.map_eq_some_iff.mp cause
    exact .inl ⟨e, e', tokenize_eq_error_iff.mpr failed, rfl, same⟩
  | ok tokens' =>
    have scanned' := tokenize_eq_ok_iff.mp whole
    rw [scanned'] at lexemes cause
    have succeeded := Option.map_eq_none_iff.mp cause
    refine .inr ⟨_, tokens', tokenize_eq_ok_iff.mpr ?_, rfl, lexemes⟩
    rw [← succeeded]

/-- A continuation in a run of blanks inside quotes. -/
theorem tokenize_continuation_blanks :
    (Lexer.run (.start "") .lineStart "SecMarker \"a ".toList).2.AtBoundary " b\"".toList ∧
    ∃ tokens tokens', tokenize "" "SecMarker \"a \\\r\n b\"" = .ok tokens ∧
      tokenize "" "SecMarker \"a  b\"" = .ok tokens' ∧
      mergeBlanks (tokens.map Token.toLexeme) = mergeBlanks (tokens'.map Token.toLexeme) := by
  have state : (Lexer.run (.start "") .lineStart "SecMarker \"a ".toList).2 =
      .blanks ⟨none, 1, 11⟩ ⟨⟨none, 1, 13⟩, " "⟩ := by decide +kernel
  have boundary :
      (Lexer.run (.start "") .lineStart "SecMarker \"a ".toList).2.AtBoundary " b\"".toList := by
    rw [state]
    trivial
  refine ⟨boundary, ?_⟩
  rcases tokenize_continuation "" "SecMarker \"a " " b\"" .returnLineFeed boundary with
    ⟨e, e', -, malformed, -⟩ | wellFormed
  · have whole : (tokenize "" "SecMarker \"a  b\"").isOk = true := by decide +kernel
    have text : "SecMarker \"a " ++ " b\"" = "SecMarker \"a  b\"" := rfl
    rw [text] at malformed
    rw [malformed] at whole
    cases whole
  · exact wellFormed

end WafRules
