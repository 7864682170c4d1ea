import WafRules.Proofs.Grammar.Spelling

/-!
# Texts laid out in tokens

A text is laid out in its tokens.  Each of them takes a stretch of the text, the marks of an
argument without quotes and the end mark take the empty one, and what stands between two
stretches says nothing: blanks, line feeds and line continuations.

## Main Definitions

* `Spells` — the stretches that a token may take.
* `Tiles` — tokens with their stretches, one behind the other.

## Main Statements

* `Tiles.append`, `Tiles.split` — putting texts together, and taking one apart at a token.
* `tiles_layoutSource` — the tokens of a text lay it out.
-/

namespace WafRules

namespace Grammar

open Lexer (Quoting token)

/-- Whether a stretch of text says nothing. -/
def IsGap (gap : List Char) : Prop :=
  (∃ c, gap = [c] ∧ (Text.isBlank c = true ∨ c = '\n')) ∨ ∃ ending, gap = continuation ending

/-- Whether a token takes a stretch of text in front of the text `rest`.  Comments, names and runs
of blanks are their own text.  A word takes what says its text, and begins with the first
character or the backslash of that, so never with a continuation.  The marks of an argument are
its quotes; without quotes they take nothing, and stand where the argument begins and ends. -/
def Spells (t : Token) (taken rest : List Char) : Prop :=
  match t.kind with
  | .endOfInput => taken = [] ∧ rest = []
  | .commentStart => taken = ['#']
  | .comment | .directive | .blanks => taken ≠ [] ∧ t.value.toList = taken
  | .argumentStart =>
    t.value.toList = taken ∧
      (taken = ['\x22'] ∨ taken = [] ∧ ∃ c, rest.head? = some c ∧ OpensArgument c)
  | .argumentStop => t.value.toList = taken ∧ (taken = ['\x22'] ∨ taken = [] ∧ EndsArgument rest)
  | .word => taken ≠ [] ∧ (∀ ending, ¬ continuation ending <+: taken) ∧
      ∃ style, t.value.toList = argumentText style taken
  | .punct punct => t.value.toList = [punct.char] ∧ taken = [punct.char]

/-- Tokens that lay out a text from a place on, in front of the text `after`: each token is at the
place where its stretch begins, and between the stretches there are gaps only. -/
inductive Tiles (after : List Char) : Position → List Token → List Char → Prop
  | nil (p : Position) : Tiles after p [] []
  | skip {p : Position} {tokens : List Token} {gap source : List Char} (isGap : IsGap gap)
      (others : Tiles after (p.advance gap) tokens source) : Tiles after p tokens (gap ++ source)
  | take {p : Position} {t : Token} {tokens : List Token} {taken source : List Char}
      (placed : t.position = p) (spells : Spells t taken (source ++ after))
      (others : Tiles after (p.advance taken) tokens source) :
      Tiles after p (t :: tokens) (taken ++ source)

namespace Tiles

variable {after source second : List Char} {p : Position} {tokens others : List Token}

/-- Two **texts one behind the other.** -/
theorem append (front : Tiles (second ++ after) p tokens source)
    (back : Tiles after (p.advance source) others second) :
    Tiles after p (tokens ++ others) (source ++ second) := by
  induction front with
  | nil p => exact back
  | skip isGap rest ih =>
    rw [List.append_assoc]
    refine .skip isGap (ih ?_)
    rw [← Position.advance_append]
    exact back
  | take placed spells rest ih =>
    rw [List.append_assoc]
    refine .take placed ?_ (ih ?_)
    · rw [List.append_assoc]
      exact spells
    · rw [← Position.advance_append]
      exact back

/-- A token alone. -/
theorem single {t : Token} {taken : List Char} (placed : t.position = p)
    (spells : Spells t taken after) : Tiles after p [t] taken := by
  have alone : Tiles after p [t] (taken ++ []) := .take placed spells (.nil _)
  rwa [List.append_nil] at alone

/-- A gap alone. -/
theorem gap {gap : List Char} (isGap : IsGap gap) : Tiles after p [] gap := by
  have alone : Tiles after p [] (gap ++ []) := .skip isGap (.nil _)
  rwa [List.append_nil] at alone

/-- A **token among others.**  The tokens before it lay out the text before its stretch, and the
tokens behind it the text behind. -/
theorem split {front back : List Token} {t : Token}
    (tiles : Tiles after p (front ++ t :: back) source) :
    ∃ before taken rest, source = before ++ (taken ++ rest) ∧
      Tiles (taken ++ (rest ++ after)) p front before ∧ t.position = p.advance before ∧
      Spells t taken (rest ++ after) ∧
      Tiles after (p.advance (before ++ taken)) back rest := by
  -- the token is the first one that is taken, or it is among the others
  generalize whole : front ++ t :: back = tokens at tiles
  induction tiles generalizing front with
  | nil p => simp at whole
  | @skip p tokens gap source isGap others ih =>
    obtain ⟨before, taken, rest, rfl, earlier, position, spells, later⟩ := ih whole
    refine ⟨gap ++ before, taken, rest, (List.append_assoc _ _ _).symm, .skip isGap earlier, ?_,
      spells, ?_⟩
    · rw [position, Position.advance_append]
    · rw [List.append_assoc, Position.advance_append]
      exact later
  | @take p u tokens own source placed uSpells others ih =>
    cases front with
    | nil =>
      obtain ⟨rfl, rfl⟩ := List.cons.inj whole
      exact ⟨[], own, source, rfl, .nil _, placed, uSpells, others⟩
    | cons v front =>
      obtain ⟨rfl, inner⟩ := List.cons.inj whole
      obtain ⟨before, taken, rest, rfl, earlier, position, spells, later⟩ := ih inner
      refine ⟨own ++ before, taken, rest, (List.append_assoc _ _ _).symm, .take placed ?_ earlier,
        ?_, spells, ?_⟩
      · simpa only [List.append_assoc] using uSpells
      · rw [position, Position.advance_append]
      · rw [List.append_assoc, Position.advance_append]
        exact later

end Tiles

/-! ### Arguments

Inside an argument the stretches are those that the tokens are spelled by, and the marks take the
quotes around them, or nothing. -/

/-- Units that are not a continuation do not begin with the source of one. -/
theorem not_continuation_prefix {style : Style} {after : List Char} {atom : Atom}
    {body : List Atom} (fits : BodyFits style after (atom :: body))
    (solid : ∀ ending, atom ≠ .continuation ending) (ending : LineBreak) :
    ¬ continuation ending <+: bodySource (atom :: body) := by
  intro begins
  cases atom with
  | continuation other => exact solid other rfl
  | char c =>
    have same : '\\' = c := (List.cons_prefix_cons.mp begins).1
    have admitted : style.Admits c := fits.1
    cases style with
    | bare => exact admitted.2.2 same.symm
    | quoted => exact admitted.2.1 same.symm
  | pair c =>
    have pairs : ¬ Continues c (bodySource body ++ after) := fits.1
    have behind : ending.source <+: c :: bodySource body := (List.cons_prefix_cons.mp begins).2
    cases ending with
    | lineFeed => exact pairs (.inl (List.cons_prefix_cons.mp behind).1.symm)
    | returnLineFeed =>
      obtain ⟨same, lineFeed⟩ := List.cons_prefix_cons.mp behind
      obtain ⟨others, split⟩ := lineFeed
      refine pairs (.inr ⟨same.symm, ?_⟩)
      rw [← split]
      rfl

/-- Characters that stand for themselves say what they are. -/
theorem bodySource_eq_bodyText {body : List Atom} (style : Style)
    (chars : ∀ atom ∈ body, ∃ c, atom = .char c) : bodySource body = bodyText style body := by
  induction body with
  | nil => rfl
  | cons atom body ih =>
    obtain ⟨⟨c, rfl⟩, others⟩ := List.forall_mem_cons.mp chars
    rw [bodySource_cons, bodyText_cons, ih others]
    rfl

theorem bodySource_ne_nil {body : List Atom} (nonempty : body ≠ []) : bodySource body ≠ [] := by
  obtain ⟨atom, rest, rfl⟩ := List.exists_cons_of_ne_nil nonempty
  cases atom <;> exact List.cons_ne_nil _ _

/-- A token takes the source of the units that spell it. -/
theorem spells_of_takes {style : Style} {t : Token} {taken : List Atom} {rest : List Char}
    (takes : Takes style t taken) (fits : BodyFits style rest taken) :
    Spells t (bodySource taken) rest := by
  obtain ⟨value, kind⟩ := takes
  unfold Spells
  cases found : t.kind with
  | word =>
    rw [found] at kind
    obtain ⟨atom, others, rfl, solid⟩ := kind
    refine ⟨bodySource_ne_nil (List.cons_ne_nil _ _), not_continuation_prefix fits solid, style, ?_⟩
    rw [argumentText_bodySource fits]
    exact value
  | blanks =>
    rw [found] at kind
    obtain ⟨nonempty, chars⟩ := kind
    refine ⟨bodySource_ne_nil nonempty, ?_⟩
    rw [value, bodySource_eq_bodyText style chars]
  | punct punct =>
    rw [found] at kind
    obtain rfl : taken = [.char punct.char] := kind
    exact ⟨value, rfl⟩
  | endOfInput | commentStart | comment | directive | argumentStart | argumentStop =>
    rw [found] at kind
    exact kind.elim

/-- The words of an argument lay out its source. -/
theorem Spelled.tiles {style : Style} {p : Position} {tokens : List Token} {body : List Atom}
    (spelled : Spelled style p tokens body) {after : List Char}
    (fits : BodyFits style after body) : Tiles after p tokens (bodySource body) := by
  induction spelled with
  | nil p => exact .nil p
  | skip ending rest ih => exact .skip (.inr ⟨ending, rfl⟩) (ih fits.2)
  | @take p t taken tokens body placed takes rest ih =>
    obtain ⟨takenFits, bodyFits⟩ := bodyFits_append.mp fits
    rw [bodySource_append]
    exact .take placed (spells_of_takes takes takenFits) (ih bodyFits)

/-- A **piece of a directive's line.**  The marks of an argument in quotes take the quotes; those of
a bare one take nothing and are tiles all the same. -/
theorem tiles_pieceSource {piece : Piece} (p : Position) {after : List Char}
    (fits : piece.Fits after) :
    Tiles after p ((piece.argument? p).toList.flatMap ArgumentTokens.toList) piece.source := by
  cases piece with
  | blank c => exact .gap (.inl ⟨c, rfl, .inl fits⟩)
  | continuation ending => exact .gap (.inr ⟨ending, rfl⟩)
  | quoted body =>
    have quote : ("\"" : String).toList = ['\x22'] := by decide
    have start : Tiles ((bodySource body ++ ['\x22']) ++ after) p
        [token .argumentStart "\"" p] ['\x22'] := .single rfl ⟨quote, .inl rfl⟩
    have words : Tiles (['\x22'] ++ after) (p.next '\x22')
        (bodyTokens (.quoted p) (p.next '\x22') body) (bodySource body) :=
      (spelled_bodyTokens (.quoted p) _ body).tiles fits
    have stop : Tiles after (p.advance ('\x22' :: bodySource body))
        [token .argumentStop "\"" (p.advance ('\x22' :: bodySource body))] ['\x22'] :=
      .single rfl ⟨quote, .inl rfl⟩
    have whole := start.append (words.append stop)
    simpa [Piece.argument?, Piece.source, ArgumentTokens.toList] using whole
  | bare first body =>
    obtain ⟨opens, bodyFits, ends⟩ := fits
    -- The marks of an argument without quotes are tokens without text.
    have start : Tiles ((first :: bodySource body) ++ after) p [token .argumentStart "" p] [] :=
      .single rfl ⟨rfl, .inr ⟨rfl, first, rfl, opens⟩⟩
    have words : Tiles ([] ++ after) p (bodyTokens .bare p (.char first :: body))
        (first :: bodySource body) :=
      (spelled_bodyTokens .bare p (.char first :: body)).tiles
        ⟨⟨opens.1, opens.2.1, opens.2.2.1⟩, bodyFits⟩
    have stop : Tiles after (p.advance (first :: bodySource body))
        [token .argumentStop "" (p.advance (first :: bodySource body))] [] :=
      .single rfl ⟨rfl, .inr ⟨rfl, ends⟩⟩
    have marked := words.append stop
    rw [List.append_nil] at marked
    have whole := start.append marked
    simpa [Piece.argument?, Piece.source, ArgumentTokens.toList] using whole

/-- The **pieces of a directive's line.** -/
theorem tiles_piecesSource {pieces : List Piece} (p : Position) {after : List Char}
    (fits : PiecesFit after pieces) :
    Tiles after p ((piecesArguments p pieces).flatMap ArgumentTokens.toList)
      (piecesSource pieces) := by
  induction pieces generalizing p with
  | nil => exact .nil p
  | cons piece pieces ih =>
    obtain ⟨pieceFits, piecesFit⟩ := fits
    rw [piecesArguments, List.flatMap_append, piecesSource_cons]
    exact (tiles_pieceSource p pieceFits).append (ih _ piecesFit)

/-! ### Lines

A line is an indent, which is a gap, and what stands in it.  Lines are put together with the line
feeds between them as gaps, and the end mark takes the empty stretch behind the last one. -/

/-- The text of a comment line is the rest of the line, less one carriage return. -/
theorem eq_commentValue_append (line : List Char) :
    line = commentValue line ∨ line = commentValue line ++ ['\r'] := by
  unfold commentValue
  split
  · next last =>
    obtain ⟨front, rfl⟩ := List.getLast?_eq_some_iff.mp last
    right
    rw [List.dropLast_concat]
  · exact .inl rfl

/-- The token of a comment's text, which an empty text does not have. -/
theorem tiles_commentValue (p : Position) (line after : List Char) :
    Tiles after p (commentToken? p line).toList (commentValue line) := by
  unfold commentToken?
  split
  · next empty =>
    rw [empty]
    exact .nil p
  · next nonempty => exact .single rfl ⟨nonempty, String.toList_ofList⟩

/-- The text behind the mark of a comment. -/
theorem tiles_commentText (p : Position) (line after : List Char) :
    Tiles after p (commentToken? p line).toList line := by
  rcases eq_commentValue_append line with same | split
  · have whole := tiles_commentValue p line after
    rwa [← same] at whole
  · have carriageReturn : IsGap ['\r'] := .inl ⟨'\r', rfl, .inl (by decide)⟩
    have whole := (tiles_commentValue p line (['\r'] ++ after)).append (.gap carriageReturn)
    rwa [List.append_nil, ← split] at whole

/-- Blanks are a gap. -/
theorem tiles_indent {indent : List Char} (p : Position) (after : List Char)
    (blanks : ∀ c ∈ indent, Text.isBlank c = true) : Tiles after p [] indent := by
  induction indent generalizing p with
  | nil => exact .nil p
  | cons c indent ih =>
    obtain ⟨blank, others⟩ := List.forall_mem_cons.mp blanks
    exact .skip (.inl ⟨c, rfl, .inl blank⟩) (ih _ others)

/-- The **content of a line.** -/
theorem tiles_contentSource {content : Content} (p : Position) {after : List Char}
    (fits : content.Fits after) :
    Tiles after p (entryTokens (content.entry? p).toList) content.source := by
  cases content with
  | nothing => exact .nil p
  | comment text =>
    have mark : Tiles (text ++ after) p [token .commentStart "#" p] ['#'] := .single rfl rfl
    have whole := mark.append (tiles_commentText (p.next '#') text after)
    simpa [Content.entry?, Content.source, EntryTokens.toList, CommentTokens.toList] using whole
  | directive name pieces =>
    obtain ⟨nonempty, -, -, piecesFit⟩ := fits
    have named : Tiles (piecesSource pieces ++ after) p
        [token .directive (String.ofList name) p] name :=
      .single rfl ⟨nonempty, String.toList_ofList⟩
    have whole := named.append (tiles_piecesSource (p.advance name) piecesFit)
    simpa [Content.entry?, Content.source, EntryTokens.toList, DirectiveTokens.toList] using whole

/-- A **line of a text.** -/
theorem tiles_lineSource {line : Line} (p : Position) {after : List Char}
    (fits : line.Fits after) : Tiles after p (entryTokens (line.entry? p).toList) line.source := by
  obtain ⟨blanks, contentFits⟩ := fits
  exact (tiles_indent p _ blanks).append (tiles_contentSource _ contentFits)

/-- The lines after the first one, to the end of the text. -/
theorem tiles_followingSource {lines : List Line} (p : Position) (fit : FollowingFit lines) :
    Tiles [] p (entryTokens (followingEntries p lines) ++
      [token .endOfInput "" (p.advance (followingSource lines))]) (followingSource lines) := by
  induction lines generalizing p with
  | nil => exact .single rfl ⟨rfl, rfl⟩
  | cons line lines ih =>
    obtain ⟨lineFits, linesFit⟩ := fit
    have lineFeed : IsGap ['\n'] := .inl ⟨'\n', rfl, .inr rfl⟩
    rw [followingSource, followingEntries, entryTokens_append, List.append_assoc]
    refine .skip lineFeed ?_
    rw [← List.append_nil (followingSource lines)] at lineFits
    have others := ih ((p.next '\n').advance line.source) linesFit
    rw [← Position.advance_append, ← Position.advance_cons] at others
    exact (tiles_lineSource (p.next '\n') lineFits).append others

/-- A **whole text.**  Its tokens lay it out to the end. -/
theorem tiles_layoutSource {layout : Layout} (p : Position) (fits : layout.Fits) :
    Tiles [] p (entryTokens (layout.entries p) ++
      [token .endOfInput "" (p.advance layout.source)]) layout.source := by
  obtain ⟨firstFits, followingFit⟩ := fits
  have others := tiles_followingSource (p.advance layout.first.source) followingFit
  rw [← Position.advance_append] at others
  rw [← List.append_nil (followingSource layout.following)] at firstFits
  rw [Layout.entries, entryTokens_append, List.append_assoc]
  exact (tiles_lineSource p firstFits).append others

end Grammar

end WafRules
