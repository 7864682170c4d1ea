import WafRules.Proofs.Grammar.Words

/-!
# The tokens of a reading

A tree of the lexical grammar has tokens of its own, computed by recursion on the tree: each
argument gives a start mark, its words and a stop mark, and each line gives at most one entry.
The lexer, which knows nothing of trees, gives exactly these tokens on the text of a tree that
fits.

## Main Definitions

* `Piece.argument?`, `Content.entry?`, `Layout.entries` — the arguments and entries of trees.

## Main Statements

* `scanFrom_piecesSource`, `scanFrom_lineSource` — what the lexer makes of the source of a tree in
  front of more text.
* `scanFrom_layoutSource` — what it makes of a whole text.
-/

namespace WafRules

namespace Grammar

open Lexer (Run Quoting token scanFrom)

/-! ### Arguments and entries

The tokens of a tree, by recursion on it.  Gaps give no tokens, so a line has an entry if it has a
comment or a directive in it. -/

/-- The argument a piece is, if it is one. -/
def Piece.argument? (p : Position) : Piece → Option ArgumentTokens
  | blank _ | continuation _ => none
  | quoted body => some {
      start := token .argumentStart "\"" p
      body := bodyTokens (.quoted p) (p.next '\x22') body
      stop := token .argumentStop "\"" (p.advance ('\x22' :: bodySource body))
      start_kind := rfl
      stop_kind := rfl
      body_kind := bodyTokens_kind _ _ _ }
  | bare first body => some {
      start := token .argumentStart "" p
      body := bodyTokens .bare p (.char first :: body)
      stop := token .argumentStop "" (p.advance (first :: bodySource body))
      start_kind := rfl
      stop_kind := rfl
      body_kind := bodyTokens_kind _ _ _ }

/-- The arguments among pieces. -/
def piecesArguments (p : Position) : List Piece → List ArgumentTokens
  | [] => []
  | piece :: pieces =>
    (piece.argument? p).toList ++ piecesArguments (p.advance piece.source) pieces

/-- The text of a comment line: a carriage return before the line feed is not part of it. -/
def commentValue (text : List Char) : List Char :=
  if text.getLast? = some '\r' then text.dropLast else text

/-- The token of a comment's text, which an empty comment does not have. -/
def commentToken? (p : Position) (text : List Char) : Option Token :=
  if commentValue text = [] then none
  else some (token .comment (String.ofList (commentValue text)) p)

theorem commentToken?_kind {p : Position} {text : List Char} {t : Token}
    (found : commentToken? p text = some t) : t.kind = .comment := by
  unfold commentToken? at found
  split at found
  · cases found
  · cases found
    rfl

/-- The entry that the content of a line is, if it is one. -/
def Content.entry? (p : Position) : Content → Option EntryTokens
  | nothing => none
  | comment text => some (.comment {
      mark := token .commentStart "#" p
      text := commentToken? (p.next '#') text
      mark_kind := rfl
      text_kind := fun _ => commentToken?_kind })
  | directive name pieces => some (.directive {
      name := token .directive (String.ofList name) p
      arguments := piecesArguments (p.advance name) pieces
      name_kind := rfl })

/-- The entry of a line, if it has one. -/
def Line.entry? (p : Position) (line : Line) : Option EntryTokens :=
  line.content.entry? (p.advance line.indent)

/-- The entries of the lines after the first one. -/
def followingEntries (p : Position) : List Line → List EntryTokens
  | [] => []
  | line :: lines =>
    (line.entry? (p.next '\n')).toList ++
      followingEntries ((p.next '\n').advance line.source) lines

/-- The entries of a text. -/
def Layout.entries (p : Position) (layout : Layout) : List EntryTokens :=
  (layout.first.entry? p).toList ++
    followingEntries (p.advance layout.first.source) layout.following

/-! ### The lexer on lines

The statements are about the source of a tree with more text behind it, since that is what is left
of a text when the lexer comes to a line.  What may follow is restricted where the tree has to be
right about it, and there only. -/

/-- The closing quote ends what is pending. -/
theorem scanFrom_closingQuote (opened p : Position) (pending : Pending) (after : List Char) :
    scanFrom p (pending.state (.quoted opened)) ('\x22' :: after) =
      (scanFrom (p.next '\x22') (.reading .between) after).prepend
        (pending.tokens ++ [token .argumentStop "\"" p]) := by
  have notBlank : Text.isBlank '\x22' = false := by decide
  apply Lexer.scanFrom_step
  cases pending <;>
    simp [Lexer.step, Lexer.stepReading, Lexer.stepBody, Lexer.stepBlanks, Pending.state,
      Pending.tokens, Lexer.wordTokens, notBlank]

/-- An argument without quotes ends where it must, and what ends it is read between arguments. -/
theorem scanFrom_bareEnd (p : Position) {pending : Pending} {after : List Char}
    (allowed : pending.Allowed .bare) (ends : EndsArgument after) :
    scanFrom p (pending.state .bare) after =
      (scanFrom p (.reading .between) after).prepend
        (pending.tokens ++ [token .argumentStop "" p]) := by
  have state : ∃ word, pending.state .bare = .reading (.body .bare word) ∧
      pending.tokens = Lexer.wordTokens word := by
    cases pending with
    | nothing => exact ⟨none, rfl, rfl⟩
    | word run => exact ⟨some run, rfl, rfl⟩
    | blanks run => exact allowed.elim
  obtain ⟨word, inBody, tokens⟩ := state
  rw [inBody, tokens]
  cases after with
  | nil => simp [Lexer.scanFrom_nil, Lexer.finish, Lexer.finishBody, Lexer.endWith,
      Lexer.Scan.prepend]
  | cons c cs =>
    rw [Lexer.scanFrom_cons, Lexer.scanFrom_cons]
    rcases ends c rfl with blank | rfl
    · obtain ⟨notBackslash, notLineFeed, notQuote⟩ := ne_of_isBlank blank
      simp [Lexer.step, Lexer.stepReading, Lexer.stepBody, Lexer.stepBetween, blank,
        notBackslash, notLineFeed, notQuote]
    · simp [Lexer.step, Lexer.stepReading, Lexer.stepBody, Lexer.stepBetween]

/-- One **piece of a directive's line.**  A blank and a continuation give no tokens; an argument
gives its marks with the tokens of its body between them, and leaves the lexer between arguments
again. -/
theorem scanFrom_pieceSource {piece : Piece} (p : Position) {after : List Char}
    (fits : piece.Fits after) :
    scanFrom p (.reading .between) (piece.source ++ after) =
      (scanFrom (p.advance piece.source) (.reading .between) after).prepend
        ((piece.argument? p).toList.flatMap ArgumentTokens.toList) := by
  cases piece with
  | blank c =>
    have blank : Text.isBlank c = true := fits
    obtain ⟨notBackslash, notLineFeed, notQuote⟩ := ne_of_isBlank blank
    apply Lexer.scanFrom_step
    simp [Lexer.step, Lexer.stepReading, Lexer.stepBetween, blank, notBackslash, notLineFeed,
      notQuote, Piece.argument?]
  | continuation ending =>
    have stepped : Lexer.step p (.reading .between) '\\' = ([], .escape .between p) := by
      simp [Lexer.step, Lexer.stepReading, Lexer.stepBetween]
    have source : (Piece.continuation ending).source ++ after =
        '\\' :: (ending.source ++ after) := rfl
    rw [source, Lexer.scanFrom_step stepped, scanFrom_continued]
    rfl
  | quoted body =>
    have opened : Lexer.step p (.reading .between) '\x22' =
        ([token .argumentStart "\"" p], Pending.nothing.state (.quoted p)) := by
      simp [Lexer.step, Lexer.stepReading, Lexer.stepBetween, Pending.state]
    obtain ⟨-, scanned⟩ := scanFrom_bodySource (.quoted p) fits (p.next '\x22') .nothing trivial
    have source : (Piece.quoted body).source ++ after =
        '\x22' :: (bodySource body ++ '\x22' :: after) := by
      simp [Piece.source]
    rw [source, Lexer.scanFrom_step opened, scanned, scanFrom_closingQuote,
      Lexer.Scan.prepend_prepend, Lexer.Scan.prepend_prepend]
    simp [Piece.argument?, Piece.source, ArgumentTokens.toList, bodyTokens,
      Position.advance_append]
  | bare first body =>
    obtain ⟨⟨notBlank, notLineFeed, notBackslash, notQuote⟩, bodyFits, ends⟩ := fits
    have opened : Lexer.step p (.reading .between) first =
        (token .argumentStart "" p ::
          (Lexer.step p (Pending.nothing.state .bare) first).1,
        (Lexer.step p (Pending.nothing.state .bare) first).2) := by
      simp [Lexer.step, Lexer.stepReading, Lexer.stepBetween, Pending.state, notBlank,
        notLineFeed, notBackslash, notQuote]
    have unitsFit : BodyFits .bare after (.char first :: body) :=
      ⟨⟨notBlank, notLineFeed, notBackslash⟩, bodyFits⟩
    obtain ⟨allowed, scanned⟩ := scanFrom_bodySource .bare unitsFit p .nothing trivial
    -- The first character is read by the state of the body, behind the mark of the start.
    have reread : scanFrom p (.reading .between) (first :: (bodySource body ++ after)) =
        (scanFrom p (Pending.nothing.state .bare) (first :: (bodySource body ++ after))).prepend
          [token .argumentStart "" p] := by
      rw [Lexer.scanFrom_step opened, Lexer.scanFrom_cons, Lexer.Scan.prepend_prepend]
      rfl
    have source : bodySource (.char first :: body) ++ after =
        first :: (bodySource body ++ after) := rfl
    rw [source] at scanned
    rw [Piece.source, List.cons_append, reread, scanned, scanFrom_bareEnd _ allowed ends,
      Lexer.Scan.prepend_prepend, Lexer.Scan.prepend_prepend]
    simp [Piece.argument?, ArgumentTokens.toList, bodyTokens, Atom.source]

/-- The **pieces of a directive's line.** -/
theorem scanFrom_piecesSource {pieces : List Piece} (p : Position) {after : List Char}
    (fits : PiecesFit after pieces) :
    scanFrom p (.reading .between) (piecesSource pieces ++ after) =
      (scanFrom (p.advance (piecesSource pieces)) (.reading .between) after).prepend
        ((piecesArguments p pieces).flatMap ArgumentTokens.toList) := by
  induction pieces generalizing p with
  | nil => rfl
  | cons piece pieces ih =>
    obtain ⟨pieceFits, piecesFit⟩ := fits
    rw [piecesSource_cons, List.append_assoc, scanFrom_pieceSource p pieceFits, ih _ piecesFit,
      Lexer.Scan.prepend_prepend, piecesArguments, List.flatMap_append, Position.advance_append]

/-- Characters that only go on with a run are collected in it.  By induction on them. -/
theorem scanFrom_collect (state : Run → Lexer.State) {text : List Char}
    (collects : ∀ c ∈ text, ∀ p run, Lexer.step p (state run) c = ([], state (run.push c)))
    (p : Position) (run : Run) (after : List Char) :
    scanFrom p (state run) (text ++ after) =
      scanFrom (p.advance text) (state { run with text := run.text ++ String.ofList text })
        after := by
  induction text generalizing p run with
  | nil =>
    have same : run.text ++ String.ofList [] = run.text := by simp
    rw [List.nil_append, Position.advance_nil, same]
  | cons c text ih =>
    obtain ⟨first, others⟩ := List.forall_mem_cons.mp collects
    have joined : (run.push c).text ++ String.ofList text =
        run.text ++ String.ofList (c :: text) := by
      apply String.toList_injective
      simp [Run.push]
    rw [List.cons_append, Lexer.scanFrom_step (first p run), Lexer.Scan.prepend_nil,
      ih others (p.next c) (run.push c), joined]
    rfl

/-- The characters of a comment are collected up to the line feed. -/
theorem scanFrom_commentText (p : Position) (run : Run) {text after : List Char}
    (fits : '\n' ∉ text) :
    scanFrom p (.comment run) (text ++ after) =
      scanFrom (p.advance text) (.comment { run with text := run.text ++ String.ofList text })
        after := by
  refine scanFrom_collect .comment ?_ p run after
  intro c member q other
  have notLineFeed : c ≠ '\n' := ne_of_mem_of_not_mem member fits
  exact if_neg notLineFeed

/-- The lexer makes the token of a comment's text. -/
theorem commentTokens_eq (p : Position) (text : List Char) :
    Lexer.commentTokens ⟨p, String.ofList text⟩ = (commentToken? p text).toList := by
  have value : Lexer.commentText (String.ofList text) = String.ofList (commentValue text) := by
    unfold Lexer.commentText commentValue
    simp only [String.toList_ofList]
    split <;> rfl
  have empty : (String.ofList (commentValue text)).isEmpty = decide (commentValue text = []) := by
    rw [Bool.eq_iff_iff, String.isEmpty_iff, decide_eq_true_iff, ← String.toList_eq_nil_iff,
      String.toList_ofList]
  simp only [Lexer.commentTokens, value, empty, decide_eq_true_eq, commentToken?]
  split <;> rfl

/-- A comment ends at the end of its line. -/
theorem scanFrom_commentEnd (p : Position) (run : Run) {after : List Char}
    (ends : ∀ c, after.head? = some c → c = '\n') :
    scanFrom p (.comment run) after =
      (scanFrom p .lineStart after).prepend (Lexer.commentTokens run) := by
  cases after with
  | nil => simp [Lexer.scanFrom_nil, Lexer.finish, Lexer.endWith, Lexer.Scan.prepend]
  | cons c cs =>
    obtain rfl := ends c rfl
    rw [Lexer.scanFrom_cons, Lexer.scanFrom_cons]
    simp [Lexer.step, Lexer.stepComment, Lexer.stepLineStart]

/-- The letters of a name are collected. -/
theorem scanFrom_nameLetters (p : Position) (run : Run) {name after : List Char}
    (letters : ∀ c ∈ name, Text.isLetter c = true) :
    scanFrom p (.reading (.name run)) (name ++ after) =
      scanFrom (p.advance name)
        (.reading (.name { run with text := run.text ++ String.ofList name })) after := by
  refine scanFrom_collect (fun run => .reading (.name run)) ?_ p run after
  intro c member q other
  exact if_pos (letters c member)

/-- What may stand behind the name of a directive: a gap, or the end of the line. -/
def EndsName (after : List Char) : Prop :=
  (∃ (piece : Piece) (rest : List Char),
      piece.IsGap ∧ piece.Fits rest ∧ after = piece.source ++ rest) ∨
    ∀ c, after.head? = some c → c = '\n'

/-- A name ends where it must, and what ends it is read between arguments.  The name is a token of
its own at that point, and no part of it is pending from there on. -/
theorem scanFrom_nameEnd (p : Position) (run : Run) {after : List Char} (ends : EndsName after) :
    scanFrom p (.reading (.name run)) after =
      (scanFrom p (.reading .between) after).prepend (Lexer.nameTokens run) := by
  have lineFeed : Text.isLetter '\n' = false := by decide
  have backslash : Text.isLetter '\\' = false := by decide
  rcases ends with ⟨piece, rest, gap, fits, rfl⟩ | lineEnd
  · cases piece with
    | blank c =>
      have blank : Text.isBlank c = true := fits
      obtain ⟨notBackslash, notLineFeed, notQuote⟩ := ne_of_isBlank blank
      have source : (Piece.blank c).source ++ rest = c :: rest := rfl
      rw [source, Lexer.scanFrom_cons, Lexer.scanFrom_cons]
      simp [Lexer.step, Lexer.stepReading, Lexer.stepName, Lexer.stepBetween,
        isLetter_of_isBlank blank, blank, notBackslash, notLineFeed, notQuote]
    | continuation ending =>
      have inName : Lexer.step p (.reading (.name run)) '\\' = ([], .escape (.name run) p) := by
        simp [Lexer.step, Lexer.stepReading, Lexer.stepName, backslash]
      have between : Lexer.step p (.reading .between) '\\' = ([], .escape .between p) := by
        simp [Lexer.step, Lexer.stepReading, Lexer.stepBetween]
      have source : (Piece.continuation ending).source ++ rest =
          '\\' :: (ending.source ++ rest) := rfl
      rw [source, Lexer.scanFrom_step inName, Lexer.scanFrom_step between, scanFrom_continued,
        scanFrom_continued]
      simp [Lexer.continued]
    | quoted body | bare first body => exact gap.elim
  · cases after with
    | nil => simp [Lexer.scanFrom_nil, Lexer.finish, Lexer.endWith, Lexer.Scan.prepend]
    | cons c cs =>
      obtain rfl := lineEnd c rfl
      rw [Lexer.scanFrom_cons, Lexer.scanFrom_cons]
      simp [Lexer.step, Lexer.stepReading, Lexer.stepName, Lexer.stepBetween, lineFeed]

/-- At the end of a line the lexer is at the start of the next one. -/
theorem scanFrom_lineEnd (p : Position) {after : List Char}
    (ends : ∀ c, after.head? = some c → c = '\n') :
    scanFrom p (.reading .between) after = scanFrom p .lineStart after := by
  cases after with
  | nil => rfl
  | cons c cs =>
    obtain rfl := ends c rfl
    rw [Lexer.scanFrom_cons, Lexer.scanFrom_cons]
    simp [Lexer.step, Lexer.stepReading, Lexer.stepBetween, Lexer.stepLineStart]

/-- Blanks at the start of a line are skipped. -/
theorem scanFrom_indent (p : Position) {indent after : List Char}
    (blanks : ∀ c ∈ indent, Text.isBlank c = true) :
    scanFrom p .lineStart (indent ++ after) = scanFrom (p.advance indent) .lineStart after := by
  induction indent generalizing p with
  | nil => rfl
  | cons c indent ih =>
    obtain ⟨blank, others⟩ := List.forall_mem_cons.mp blanks
    have notMark : c ≠ '#' := by rintro rfl; exact absurd blank (by decide)
    have stepped : Lexer.step p .lineStart c = ([], .lineStart) := by
      simp [Lexer.step, Lexer.stepLineStart, notMark, blank]
    rw [List.cons_append, Lexer.scanFrom_step stepped, Lexer.Scan.prepend_nil, ih _ others]
    rfl

/-- The **content of a line.**  Every form of content ends where its line ends, so what is pending
there is completed by the line feed or by the end of the text alike. -/
theorem scanFrom_contentSource {content : Content} (p : Position) {after : List Char}
    (fits : content.Fits after) (lineEnd : ∀ c, after.head? = some c → c = '\n') :
    scanFrom p .lineStart (content.source ++ after) =
      (scanFrom (p.advance content.source) .lineStart after).prepend
        (entryTokens (content.entry? p).toList) := by
  cases content with
  | nothing => rfl
  | comment text =>
    have noLineFeed : '\n' ∉ text := fits
    have marked : Lexer.step p .lineStart '#' =
        ([token .commentStart "#" p], .comment ⟨p.next '#', ""⟩) := by
      simp [Lexer.step, Lexer.stepLineStart]
    have collected : ("" : String) ++ String.ofList text = String.ofList text := by simp
    have source : (Content.comment text).source ++ after = '#' :: (text ++ after) := rfl
    rw [source, Lexer.scanFrom_step marked, scanFrom_commentText _ _ noLineFeed, collected,
      scanFrom_commentEnd _ _ lineEnd, commentTokens_eq, Lexer.Scan.prepend_prepend]
    simp [Content.entry?, EntryTokens.toList, CommentTokens.toList, Content.source]
  | directive name pieces =>
    obtain ⟨nonempty, letters, gap, piecesFit⟩ := fits
    obtain ⟨c, others, rfl⟩ := List.exists_cons_of_ne_nil nonempty
    obtain ⟨letter, otherLetters⟩ := List.forall_mem_cons.mp letters
    -- a letter begins a name: it is neither the mark of a comment nor a blank
    have notMark : c ≠ '#' := by rintro rfl; exact absurd letter (by decide)
    have notLineFeed : c ≠ '\n' := by rintro rfl; exact absurd letter (by decide)
    have notBlank : Text.isBlank c = false :=
      Bool.eq_false_iff.mpr fun blank =>
        absurd letter (by rw [isLetter_of_isBlank blank]; exact Bool.false_ne_true)
    have begun : Lexer.step p .lineStart c =
        ([], .reading (.name ⟨p, String.ofList [c]⟩)) := by
      simp [Lexer.step, Lexer.stepLineStart, notMark, notLineFeed, notBlank, letter]
    have ends : EndsName (piecesSource pieces ++ after) := by
      cases pieces with
      | nil => exact .inr lineEnd
      | cons piece pieces =>
        refine .inl ⟨piece, piecesSource pieces ++ after, gap piece rfl, piecesFit.1, ?_⟩
        rw [piecesSource_cons, List.append_assoc]
    have collected : String.ofList [c] ++ String.ofList others = String.ofList (c :: others) := by
      apply String.toList_injective
      simp
    have source : (Content.directive (c :: others) pieces).source ++ after =
        c :: (others ++ (piecesSource pieces ++ after)) := by
      simp [Content.source]
    rw [source, Lexer.scanFrom_step begun, Lexer.Scan.prepend_nil,
      scanFrom_nameLetters _ _ otherLetters, collected, scanFrom_nameEnd _ _ ends,
      scanFrom_piecesSource _ piecesFit, scanFrom_lineEnd _ lineEnd, Lexer.Scan.prepend_prepend]
    simp [Content.entry?, EntryTokens.toList, DirectiveTokens.toList, Content.source,
      Lexer.nameTokens, Position.advance_append]

/-- A **line of a text.** -/
theorem scanFrom_lineSource {line : Line} (p : Position) {after : List Char}
    (fits : line.Fits after) (lineEnd : ∀ c, after.head? = some c → c = '\n') :
    scanFrom p .lineStart (line.source ++ after) =
      (scanFrom (p.advance line.source) .lineStart after).prepend
        (entryTokens (line.entry? p).toList) := by
  obtain ⟨blanks, contentFits⟩ := fits
  rw [Line.source, List.append_assoc, scanFrom_indent p blanks,
    scanFrom_contentSource _ contentFits lineEnd, Position.advance_append]
  rfl

/-- The lines after the first one, to the end of the text. -/
theorem scanFrom_followingSource {lines : List Line} (p : Position) (fit : FollowingFit lines) :
    scanFrom p .lineStart (followingSource lines) =
      ⟨entryTokens (followingEntries p lines) ++
        [token .endOfInput "" (p.advance (followingSource lines))], none⟩ := by
  induction lines generalizing p with
  | nil => rfl
  | cons line lines ih =>
    obtain ⟨lineFits, linesFit⟩ := fit
    have broken : Lexer.step p .lineStart '\n' = ([], .lineStart) := by
      simp [Lexer.step, Lexer.stepLineStart]
    rw [followingSource, Lexer.scanFrom_step broken, Lexer.Scan.prepend_nil,
      scanFrom_lineSource _ lineFits (followingSource_head lines), ih _ linesFit]
    simp [Lexer.Scan.prepend, followingEntries, entryTokens_append, Position.advance_append]

/-- A **whole text.**  The lexer gives the entries of its lines, and the end mark. -/
theorem scanFrom_layoutSource {layout : Layout} (p : Position) (fits : layout.Fits) :
    scanFrom p .lineStart layout.source =
      ⟨entryTokens (layout.entries p) ++
        [token .endOfInput "" (p.advance layout.source)], none⟩ := by
  obtain ⟨firstFits, followingFit⟩ := fits
  rw [Layout.source, scanFrom_lineSource p firstFits (followingSource_head layout.following),
    scanFrom_followingSource _ followingFit]
  simp [Lexer.Scan.prepend, Layout.entries, entryTokens_append, Position.advance_append]

end Grammar

end WafRules
