import WafRules.Proofs.Partial

/-!
# Line endings

A carriage return before a line feed is a blank in most places, ends the text of a comment, and
belongs to a line continuation behind a backslash.  In each of them the lexer reaches the state
that the line feed alone takes it to, with the same tokens at the same places.  Inside quotes it
does not: there the line feed is an error, and the carriage return before it becomes part of the
tokens of a directive that is never completed.

The comparison is a simulation of one run by the other.  Between two characters of the text without
returns both lexers are in one state, which holds no carriage return; the return and the line feed
together then lead where the line feed alone does.  The invariant fails in one place only, behind a
backslash and a return, and no text without returns gets there.

## Main Definitions

* `Text.withReturns` — a text with a carriage return before every line feed.
* `Lexer.State.KeepsNoReturn` — the states that have not read a carriage return.
* `Lexer.Scan.Alike` — scans that differ in the tokens of an incomplete directive alone.

## Main Statements

* `Lexer.run_returnLineFeed` — the two characters and the line feed alone.
* `Lexer.scanFrom_withReturns` — the rest of a text.
* `tokenize_withReturns` — the tokens and documents of a text.
-/

namespace WafRules

/-- The characters with a carriage return before every line feed. -/
def Text.withReturns (cs : List Char) : List Char :=
  cs.flatMap fun c => if c = '\n' then ['\r', '\n'] else [c]

theorem Text.withReturns_lineFeed (cs : List Char) :
    withReturns ('\n' :: cs) = '\r' :: '\n' :: withReturns cs := rfl

theorem Text.withReturns_cons {c : Char} (other : c ≠ '\n') (cs : List Char) :
    withReturns (c :: cs) = c :: withReturns cs := by
  simp [withReturns, other]

namespace Lexer

/-! ### States without a carriage return

The state has to be free of carriage returns because a comment ends before the one it is followed
by: if the text of a comment already ended in a return, the line feed would take off that one. -/

/-- Whether what the lexer holds has no carriage return in it. -/
def State.KeepsNoReturn : State → Prop
  | .comment run => '\r' ∉ run.text.toList
  | .escapeReturn _ _ => False
  | .lineStart | .reading _ | .blanks _ _ | .escape _ _ | .failed _ => True

theorem stepBody_keepsNoReturn (quoting : Quoting) (word : Option Run) (p : Position) (c : Char) :
    (stepBody quoting word p c).2.KeepsNoReturn := by
  fun_cases stepBody quoting word p c <;> trivial

theorem stepReading_keepsNoReturn (context : Context) (p : Position) (c : Char) :
    (stepReading context p c).2.KeepsNoReturn := by
  cases context with
  | name run =>
    show (stepName run p c).2.KeepsNoReturn
    fun_cases stepName run p c <;> trivial
  | between =>
    show (stepBetween p c).2.KeepsNoReturn
    fun_cases stepBetween p c with
    | case1 | case2 | case3 | case4 => trivial
    | case5 _ _ _ _ tokens state stepped =>
      have kept := stepBody_keepsNoReturn .bare none p c
      rw [stepped] at kept
      exact kept
  | body quoting word => exact stepBody_keepsNoReturn quoting word p c

/-- A character other than a carriage return leaves none behind.  Only comments are asked about what
they have read before, so the hypothesis on the state is needed for them alone. -/
theorem step_keepsNoReturn {state : State} (keeps : state.KeepsNoReturn) (p : Position) {c : Char}
    (other : c ≠ '\r') : (step p state c).2.KeepsNoReturn := by
  cases state with
  | lineStart =>
    show (stepLineStart p c).2.KeepsNoReturn
    fun_cases stepLineStart p c
    case case1 => exact List.not_mem_nil
    all_goals trivial
  | comment run =>
    show (stepComment run c).2.KeepsNoReturn
    unfold stepComment
    split
    · trivial
    · have text : (run.push c).text.toList = run.text.toList ++ [c] := by simp [Run.push]
      show '\r' ∉ (run.push c).text.toList
      rw [text]
      simpa using ⟨keeps, Ne.symm other⟩
  | reading context => exact stepReading_keepsNoReturn context p c
  | blanks opened run =>
    show (stepBlanks opened run p c).2.KeepsNoReturn
    unfold stepBlanks
    split
    · trivial
    · exact stepBody_keepsNoReturn (.quoted opened) none p c
  | escape context backslash =>
    show (stepEscape context backslash c).2.KeepsNoReturn
    unfold stepEscape
    rw [if_neg other]
    split
    · cases context <;> trivial
    · cases context <;> trivial
  -- This state has read a carriage return.
  | escapeReturn context backslash => exact keeps.elim
  | failed error => trivial

/-! ### The end of a line

The two characters against the one.  A return is a blank behind a name, between arguments and at the
start of a line, it ends the text of a comment, and it is what a continuation may have behind its
backslash; each of the states outside quotes is one of these. -/

/-- The states inside quotes, between two characters of the argument. -/
def State.InQuotes : State → Prop
  | .reading (.body (.quoted _) _) | .blanks _ _ => True
  | _ => False

theorem commentTokens_push_return {run : Run} (plain : '\r' ∉ run.text.toList) :
    commentTokens (run.push '\r') = commentTokens run := by
  have pushed : commentText (run.push '\r').text = run.text := by
    simp [commentText, Run.push]
  have alone : commentText run.text = run.text := by
    refine if_neg fun last => ?_
    exact plain (List.mem_of_getLast? last)
  simp only [commentTokens, pushed, alone]
  rfl

/-- Outside quotes a **carriage return and a line feed** do what a line feed alone does. -/
theorem run_returnLineFeed (p : Position) {state : State} (keeps : state.KeepsNoReturn)
    (outside : ¬ state.InQuotes) : run p state ['\r', '\n'] = step p state '\n' := by
  cases state with
  | lineStart => rfl
  | comment run =>
    show (commentTokens (run.push '\r') ++ [], State.lineStart) = (commentTokens run, .lineStart)
    rw [commentTokens_push_return keeps, List.append_nil]
  | reading context =>
    cases context with
    | name run => rfl
    | between => rfl
    | body quoting word =>
      cases quoting with
      | bare => exact congrArg (·, State.lineStart) (List.append_nil _)
      | quoted opened => exact absurd trivial outside
  | blanks opened run => exact absurd trivial outside
  | escape context backslash =>
    show ((continued context).1 ++ [], (continued context).2) = continued context
    rw [List.append_nil]
  | escapeReturn context backslash => exact keeps.elim
  | failed error => rfl

/-! ### Scans of both texts

Inside quotes the simulation ends, and so do both scans: with the same error at the same place,
after tokens that belong to the directive that is left incomplete. -/

/-- Whether two scans differ at most in the tokens of a directive that an error leaves
incomplete. -/
inductive Scan.Alike : Scan → Scan → Prop
  | same (scan : Scan) : Alike scan scan
  | cut (front : List Token) {first second : List Token} {e : LexError}
      (inside : e.cause.insideDirective = true) (noName : NoName first)
      (noName' : NoName second) : Alike ⟨front ++ first, some e⟩ ⟨front ++ second, some e⟩

theorem Scan.Alike.prepend {first second : Scan} (alike : first.Alike second)
    (tokens : List Token) : (first.prepend tokens).Alike (second.prepend tokens) := by
  cases alike with
  | same scan => exact .same _
  | cut front inside noName noName' =>
    simp only [Scan.prepend, ← List.append_assoc]
    exact .cut _ inside noName noName'

/-- A line feed behind blanks in quotes. -/
theorem scanFrom_blanks_lineFeed (p opened : Position) (run : Run) (cs : List Char) :
    scanFrom p (.blanks opened run) ('\n' :: cs) =
      ⟨blankTokens run, some ⟨.unterminatedQuote, opened⟩⟩ := by
  have stepped : step p (.blanks opened run) '\n' =
      (blankTokens run, .failed ⟨.unterminatedQuote, opened⟩) := rfl
  rw [scanFrom_step stepped, scanFrom_failed, Scan.prepend, List.append_nil]

/-- Inside quotes both texts end with the same error.  The carriage return is a blank there, so a
token may be completed that the shorter text does not have, and that is in an argument that is never
closed. -/
theorem scanFrom_lineEnd_alike (p : Position) {state : State} (inside : state.InQuotes)
    (first second : List Char) :
    (scanFrom p state ('\n' :: first)).Alike (scanFrom p state ('\r' :: '\n' :: second)) := by
  have blank (run : Run) : NoName (blankTokens run) := .cons nofun .nil
  cases state with
  | reading context =>
    cases context with
    | name run | between => exact inside.elim
    | body quoting word =>
      cases quoting with
      | bare => exact inside.elim
      | quoted opened =>
        -- the carriage return completes the word, and is itself completed by the line feed
        have shorter : scanFrom p (.reading (.body (.quoted opened) word)) ('\n' :: first) =
            ⟨[], some ⟨.unterminatedQuote, opened⟩⟩ := scanFrom_failed _ _ _
        have stepped : step p (.reading (.body (.quoted opened) word)) '\r' =
            (wordTokens word, .blanks opened ⟨p, "\r"⟩) := rfl
        rw [shorter, scanFrom_step stepped, scanFrom_blanks_lineFeed]
        exact .cut [] rfl .nil ((noName_wordTokens word).append (blank _))
  | blanks opened run =>
    have stepped : step p (.blanks opened run) '\r' = ([], .blanks opened (run.push '\r')) := rfl
    rw [scanFrom_blanks_lineFeed, scanFrom_step stepped, scanFrom_blanks_lineFeed]
    exact .cut [] rfl (blank _) (blank _)
  | lineStart | comment run | escape context backslash | escapeReturn context backslash
    | failed error => exact inside.elim

/-- The **rest of a text** without carriage returns, with and without one before every line
feed. -/
theorem scanFrom_withReturns {cs : List Char} (noReturn : '\r' ∉ cs) (p : Position) {state : State}
    (keeps : state.KeepsNoReturn) :
    (scanFrom p state cs).Alike (scanFrom p state (Text.withReturns cs)) := by
  induction cs generalizing p state with
  | nil => exact .same _
  | cons c cs ih =>
    obtain ⟨other, others⟩ := not_or.mp (mt List.mem_cons.mpr noReturn)
    have kept := step_keepsNoReturn keeps p (Ne.symm other)
    by_cases lineFeed : c = '\n'
    · subst lineFeed
      rw [Text.withReturns_lineFeed]
      by_cases quoted : state.InQuotes
      · exact scanFrom_lineEnd_alike p quoted _ _
      · -- two steps against one, with the same outcome and at the same place
        have twoSteps := scanFrom_append p state ['\r', '\n'] (Text.withReturns cs)
        rw [run_returnLineFeed p keeps quoted] at twoSteps
        rw [scanFrom_cons]
        show Scan.Alike _ (scanFrom p state (['\r', '\n'] ++ Text.withReturns cs))
        rw [twoSteps]
        have place : p.advance ['\r', '\n'] = p.next '\n' := rfl
        rw [place]
        exact (ih others _ kept).prepend _
    · rw [Text.withReturns_cons lineFeed, scanFrom_cons, scanFrom_cons]
      exact (ih others _ kept).prepend _

end Lexer

/-! ### Tokens and documents of both texts

The tokens of an incomplete directive are seen by nobody: a text with an error has no token stream,
and a partial document is read from the tokens before the last name. -/

/-- The texts of a line feed and of a carriage return before it have **scans that are alike.** -/
theorem Lexer.scan_withReturns (label : String) {text : String} (noReturn : '\r' ∉ text.toList) :
    (scan label text).Alike (scan label (String.ofList (Text.withReturns text.toList))) := by
  rw [scan_eq_scanFrom, scan_eq_scanFrom, String.toList_ofList]
  exact scanFrom_withReturns noReturn _ trivial

theorem tokenize_of_alike {label text other : String}
    (alike : (Lexer.scan label text).Alike (Lexer.scan label other)) :
    tokenize label other = tokenize label text := by
  unfold tokenize
  revert alike
  generalize Lexer.scan label text = first
  generalize Lexer.scan label other = second
  intro alike
  cases alike with
  | same scan => rfl
  | cut front inside noName noName' => rfl

namespace Document

theorem parsePartial_of_alike {label text other : String}
    (alike : (Lexer.scan label text).Alike (Lexer.scan label other)) :
    parsePartial label other = parsePartial label text := by
  unfold parsePartial parsePartialLogged
  revert alike
  generalize Lexer.scan label text = first
  generalize Lexer.scan label other = second
  intro alike
  cases alike with
  | same scan => rfl
  | cut front inside noName noName' =>
    simp only [salvage, inside, if_true, beforeLastDirective_append_noName front noName,
      beforeLastDirective_append_noName front noName']

end Document

/-- A **text reads the same with either line ending**: the tokens with their places or the error,
the document, and the part of it before an error. -/
theorem tokenize_withReturns (label : String) {text : String} (noReturn : '\r' ∉ text.toList) :
    tokenize label (String.ofList (Text.withReturns text.toList)) = tokenize label text ∧
    Document.parse label (String.ofList (Text.withReturns text.toList)) =
      Document.parse label text ∧
    Document.parsePartial label (String.ofList (Text.withReturns text.toList)) =
      Document.parsePartial label text := by
  have alike := Lexer.scan_withReturns label noReturn
  have partials := Document.parsePartial_of_alike alike
  refine ⟨tokenize_of_alike alike, ?_, partials⟩
  rw [Document.parse_eq_strict, Document.parse_eq_strict, partials]

/-- A comment and a rule whose last argument is not closed. -/
theorem tokenize_withReturns_quote :
    '\r' ∉ "# a\nSecRule ARGS \"b \n".toList ∧
    Document.parsePartial "" "# a\r\nSecRule ARGS \"b \r\n" =
      Document.parsePartial "" "# a\nSecRule ARGS \"b \n" := by
  have noReturn : '\r' ∉ "# a\nSecRule ARGS \"b \n".toList := by decide
  exact ⟨noReturn, (tokenize_withReturns "" noReturn).2.2⟩

end WafRules
