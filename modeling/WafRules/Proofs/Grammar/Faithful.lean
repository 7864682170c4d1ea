import WafRules.Proofs.Entry.Membership
import WafRules.Proofs.Grammar.Reading
import WafRules.Proofs.Grammar.Tiling
import WafRules.Proofs.Place

/-!
# Tokens and their text

The lexer neither loses nor invents text, and it puts every token where its text is.  What stands
between the marks of an argument is the source between them as the rules of the language read it;
a comment and the name of a directive are taken over letter by letter; and every token is at the
place of the first character it takes.

That nothing is invented is a statement about each token: there is a stretch of the text that it
says.  That nothing is lost is one about all of them together: their stretches lie one behind the
other from the start of the text to its end, and only blanks, line feeds and continuations lie
between them.  A list without tokens would pass the first and fails the second.

## Main Definitions

* `ArgumentAt`, `CommentAt`, `NameAt` — what a text says there where tokens are.
* `TokenAt` — a token behind others, its place and what it takes.

## Main Statements

* `tokenize_faithful` — all of this for the tokens of a text.
-/

namespace WafRules

namespace Grammar

open Lexer (Quoting token)

/-! ### What stands where a token is

The four statements about tokens that are made of an accepted text.  Each of them cuts the text in
front of what the token takes and behind it, and names the place by the text in front. -/

/-- The mark on either side of an argument. -/
def Style.mark : Style → List Char
  | bare => []
  | quoted => ['\x22']

/-- Whether a text up to some place ends at the start of a line but for blanks. -/
def OpensLine (before : List Char) : Prop :=
  ∃ earlier indent, before = earlier ++ indent ∧
    (∀ c, earlier.getLast? = some c → c = '\n') ∧ ∀ c ∈ indent, Text.isBlank c = true

/-- Whether the marks and tokens of an argument are those of an argument of the text: the marks
stand where the argument begins and ends, and the tokens together say what the source between the
marks says. -/
def ArgumentAt (label : String) (text : List Char) (start : Token) (body : List Token)
    (stop : Token) : Prop :=
  ∃ (style : Style) (before inner after : List Char),
    text = before ++ (style.mark ++ (inner ++ (style.mark ++ after))) ∧
    start.value.toList = style.mark ∧
    start.position = Position.placeAfter label before ∧
    stop.value.toList = style.mark ∧
    stop.position = Position.placeAfter label (before ++ (style.mark ++ inner)) ∧
    body.flatMap (fun t => t.value.toList) = argumentText style inner ∧
    (style = .bare →
      (∃ c cs, inner = c :: cs ∧ OpensArgument c) ∧ EndsArgument after)

/-- Whether a token holds the rest of a line of the text behind the mark of a comment. -/
def CommentAt (label : String) (text : List Char) (t : Token) : Prop :=
  ∃ before line after : List Char,
    text = before ++ '#' :: (line ++ after) ∧ OpensLine before ∧ '\n' ∉ line ∧
    (∀ c, after.head? = some c → c = '\n') ∧
    t.position = Position.placeAfter label (before ++ ['#']) ∧
    t.value.toList = commentValue line

/-- Whether a token holds all the letters at the start of a line of the text. -/
def NameAt (label : String) (text : List Char) (t : Token) : Prop :=
  ∃ before after : List Char,
    text = before ++ (t.value.toList ++ after) ∧ OpensLine before ∧
    t.position = Position.placeAfter label before ∧
    t.value.toList ≠ [] ∧ (∀ c ∈ t.value.toList, Text.isLetter c = true) ∧
    ∀ c, after.head? = some c → Text.isLetter c = false

/-- Whether a token stands in a text behind the tokens `front`: they lay out the text before the
stretch that it takes, and it is at the place where the stretch begins. -/
def TokenAt (label : String) (text : List Char) (front : List Token) (t : Token) : Prop :=
  ∃ before taken rest : List Char,
    text = before ++ (taken ++ rest) ∧ Tiles (taken ++ rest) (.start label) front before ∧
    t.position = Position.placeAfter label before ∧ Spells t taken rest

/-! ### From lines to entries

Every entry of a text comes from one of its lines, and the place of the line is the place behind
everything in front of it. -/

/-- An entry and the line of a text that it is read from. -/
inductive LineAt (p : Position) (source : List Char) (entry : EntryTokens) : Prop
  | intro (earlier : List Char) (line : Line) (after : List Char)
      (split : source = earlier ++ (line.source ++ after))
      (starts : ∀ c, earlier.getLast? = some c → c = '\n') (fits : line.Fits after)
      (ends : ∀ c, after.head? = some c → c = '\n')
      (read : line.entry? (p.advance earlier) = some entry)

theorem exists_line_of_mem_followingEntries {p : Position} {lines : List Line}
    {entry : EntryTokens} (fit : FollowingFit lines) (member : entry ∈ followingEntries p lines) :
    ∃ (earlier : List Char) (line : Line) (after : List Char),
      followingSource lines = earlier ++ (line.source ++ after) ∧
      earlier.getLast? = some '\n' ∧ line.Fits after ∧
      (∀ c, after.head? = some c → c = '\n') ∧
      line.entry? (p.advance earlier) = some entry := by
  induction lines generalizing p with
  | nil => cases member
  | cons line lines ih =>
    obtain ⟨lineFits, linesFit⟩ := fit
    rcases List.mem_append.mp member with here | later
    · exact ⟨['\n'], line, followingSource lines, rfl, rfl, lineFits, followingSource_head lines,
        Option.mem_toList.mp here⟩
    · obtain ⟨earlier, found, after, split, last, fits, ends, read⟩ := ih linesFit later
      refine ⟨'\n' :: (line.source ++ earlier), found, after, ?_, ?_, fits, ends, ?_⟩
      · rw [followingSource, split, List.cons_append, List.append_assoc]
      · rw [List.getLast?_cons, List.getLast?_append, last]
        rfl
      · rw [Position.advance_cons, Position.advance_append]
        exact read

/-- Every entry has a line. -/
theorem lineAt_of_mem_entries {p : Position} {layout : Layout} {entry : EntryTokens}
    (fits : layout.Fits) (member : entry ∈ layout.entries p) :
    LineAt p layout.source entry := by
  obtain ⟨firstFits, followingFit⟩ := fits
  rcases List.mem_append.mp member with first | later
  · refine ⟨[], layout.first, followingSource layout.following, rfl, ?_, firstFits,
      followingSource_head _, Option.mem_toList.mp first⟩
    intro c none
    cases none
  · obtain ⟨earlier, line, after, split, last, lineFits, ends, read⟩ :=
      exists_line_of_mem_followingEntries followingFit later
    refine ⟨layout.first.source ++ earlier, line, after, ?_, ?_, lineFits, ends, ?_⟩
    · rw [Layout.source, split, List.append_assoc]
    · intro c found
      rw [List.getLast?_append, last] at found
      exact (Option.some.inj found).symm
    · rw [Position.advance_append]
      exact read

/-- The place of an entry's first token, with the text before it and from it on. -/
theorem exists_comment_of_lineAt {p : Position} {source : List Char} {c : CommentTokens}
    (found : LineAt p source (.comment c)) :
    ∃ before line after : List Char,
      source = before ++ '#' :: (line ++ after) ∧ OpensLine before ∧ '\n' ∉ line ∧
      (∀ c, after.head? = some c → c = '\n') ∧
      c.mark = token .commentStart "#" (p.advance before) ∧
      c.text = commentToken? (p.advance (before ++ ['#'])) line := by
  obtain ⟨earlier, ⟨indent, content⟩, after, rfl, starts, ⟨blanks, fits⟩, ends, read⟩ := found
  cases content with
  | nothing => cases read
  | directive name pieces => cases read
  | comment text =>
    obtain rfl := EntryTokens.comment.inj (Option.some.inj read)
    refine ⟨earlier ++ indent, text, after, ?_, ⟨earlier, indent, rfl, starts, blanks⟩, fits, ends,
      ?_, ?_⟩
    · simp [Line.source, Content.source]
    · rw [Position.advance_append]
    · rw [Position.advance_append, Position.advance_append]
      rfl

theorem exists_directive_of_lineAt {p : Position} {source : List Char} {d : DirectiveTokens}
    (found : LineAt p source (.directive d)) :
    ∃ (before name : List Char) (pieces : List Piece) (after : List Char),
      source = before ++ (name ++ (piecesSource pieces ++ after)) ∧ OpensLine before ∧
      (Content.directive name pieces).Fits after ∧ (∀ c, after.head? = some c → c = '\n') ∧
      d.name = token .directive (String.ofList name) (p.advance before) ∧
      d.arguments = piecesArguments (p.advance (before ++ name)) pieces := by
  obtain ⟨earlier, ⟨indent, content⟩, after, rfl, starts, ⟨blanks, fits⟩, ends, read⟩ := found
  cases content with
  | nothing => cases read
  | comment text => cases read
  | directive name pieces =>
    obtain rfl := EntryTokens.directive.inj (Option.some.inj read)
    refine ⟨earlier ++ indent, name, pieces, after, ?_, ⟨earlier, indent, rfl, starts, blanks⟩,
      fits, ends, ?_, ?_⟩
    · simp [Line.source, Content.source]
    · rw [Position.advance_append]
    · rw [Position.advance_append, Position.advance_append]

/-! ### From directives to arguments

An argument of a directive comes from one piece of its line, found in the same way. -/

/-- Every argument has a piece. -/
theorem exists_piece_of_mem_piecesArguments {p : Position} {pieces : List Piece}
    {after : List Char} {a : ArgumentTokens} (fit : PiecesFit after pieces)
    (member : a ∈ piecesArguments p pieces) :
    ∃ (earlier : List Char) (piece : Piece) (rest : List Char),
      piecesSource pieces ++ after = earlier ++ (piece.source ++ rest) ∧ piece.Fits rest ∧
      piece.argument? (p.advance earlier) = some a := by
  induction pieces generalizing p with
  | nil => cases member
  | cons piece pieces ih =>
    obtain ⟨pieceFits, piecesFit⟩ := fit
    rcases List.mem_append.mp member with here | later
    · refine ⟨[], piece, piecesSource pieces ++ after, ?_, pieceFits, Option.mem_toList.mp here⟩
      rw [piecesSource_cons, List.append_assoc, List.nil_append]
    · obtain ⟨earlier, found, rest, split, fits, read⟩ := ih piecesFit later
      refine ⟨piece.source ++ earlier, found, rest, ?_, fits, ?_⟩
      · rw [piecesSource_cons, List.append_assoc, split, List.append_assoc]
      · rw [Position.advance_append]
        exact read

/-- An argument and the units of the text that it is read from. -/
inductive ReadAt (p : Position) (source : List Char) (a : ArgumentTokens) : Prop
  | intro (quoting : Quoting) (body : List Atom) (after : List Char)
      (split : source = (styleOf quoting).mark ++
        (bodySource body ++ ((styleOf quoting).mark ++ after)))
      (fits : BodyFits (styleOf quoting) ((styleOf quoting).mark ++ after) body)
      (bare : styleOf quoting = .bare →
        (∃ c cs, bodySource body = c :: cs ∧ OpensArgument c) ∧ EndsArgument after)
      (start : a.start = token .argumentStart (String.ofList (styleOf quoting).mark) p)
      (words : a.body = bodyTokens quoting (p.advance (styleOf quoting).mark) body)
      (stop : a.stop = token .argumentStop (String.ofList (styleOf quoting).mark)
        (p.advance ((styleOf quoting).mark ++ bodySource body)))

theorem readAt_of_argument? {p : Position} {piece : Piece} {rest : List Char}
    {a : ArgumentTokens} (fits : piece.Fits rest) (read : piece.argument? p = some a) :
    ReadAt p (piece.source ++ rest) a := by
  cases piece with
  | blank c => cases read
  | continuation ending => cases read
  | quoted body =>
    obtain rfl := Option.some.inj read
    refine .intro (.quoted p) body rest ?_ fits ?_ rfl rfl rfl
    · simp [Piece.source, styleOf, Style.mark]
    · intro bare
      cases bare
  | bare first body =>
    obtain rfl := Option.some.inj read
    obtain ⟨opens, bodyFits, ends⟩ := fits
    refine .intro .bare (.char first :: body) rest ?_ ⟨?_, bodyFits⟩ ?_ rfl rfl rfl
    · rfl
    · exact ⟨opens.1, opens.2.1, opens.2.2.1⟩
    · intro _
      exact ⟨⟨first, bodySource body, rfl, opens⟩, ends⟩

theorem exists_readAt_of_mem_arguments {p : Position} {source : List Char} {d : DirectiveTokens}
    (found : LineAt p source (.directive d)) {a : ArgumentTokens} (member : a ∈ d.arguments) :
    ∃ before rest : List Char, source = before ++ rest ∧ ReadAt (p.advance before) rest a := by
  obtain ⟨before, name, pieces, after, rfl, -, ⟨-, -, -, piecesFit⟩, -, -, arguments⟩ :=
    exists_directive_of_lineAt found
  rw [arguments] at member
  obtain ⟨earlier, piece, rest, split, fits, read⟩ :=
    exists_piece_of_mem_piecesArguments piecesFit member
  rw [← Position.advance_append] at read
  refine ⟨before ++ (name ++ earlier), piece.source ++ rest, ?_, ?_⟩
  · rw [split]
    simp only [List.append_assoc]
  · rw [← List.append_assoc before name earlier]
    exact readAt_of_argument? fits read

/-! ### What the tokens of an argument say

The units between the marks are spelled by the tokens, so what the tokens say together is what the
rules of the language read in the source of the units. -/

/-- An **argument stands where its marks are.** -/
theorem argumentAt_of_readAt {label : String} {before rest : List Char} {a : ArgumentTokens}
    (read : ReadAt ((Position.start label).advance before) rest a) :
    ArgumentAt label (before ++ rest) a.start a.body a.stop := by
  obtain ⟨quoting, body, after, rfl, fits, bare, start, words, stop⟩ := read
  rw [start, words, stop]
  refine ⟨styleOf quoting, before, bodySource body, after, rfl, String.toList_ofList, ?_,
    String.toList_ofList, ?_, ?_, bare⟩
  · exact Position.advance_start label before
  · rw [← Position.advance_start]
    exact ((Position.start label).advance_append before _).symm
  · rw [(spelled_bodyTokens quoting _ body).values, argumentText_bodySource fits]

/-! ### What the other tokens say

A comment and a name are their own source.  That every token has its place, and that all of them lay
out the text, is the tiling of the layout. -/

/-- A **name stands at the start of its line.**  Blanks may be in front of it, and no letter stands
behind it. -/
theorem nameAt_of_lineAt {label : String} {source : List Char} {d : DirectiveTokens}
    (found : LineAt (.start label) source (.directive d)) : NameAt label source d.name := by
  obtain ⟨before, name, pieces, after, rfl, opens, ⟨nonempty, letters, gap, fits⟩, ends, same, -⟩ :=
    exists_directive_of_lineAt found
  have value : d.name.value.toList = name := by
    rw [same]
    exact String.toList_ofList
  refine ⟨before, piecesSource pieces ++ after, ?_, opens, ?_, ?_, ?_, ?_⟩
  · rw [value]
  · rw [same]
    exact Position.advance_start label before
  · rw [value]
    exact nonempty
  · rw [value]
    exact letters
  · -- a gap or the end of the line follows the name, and neither begins with a letter
    intro c head
    cases pieces with
    | nil =>
      obtain rfl := ends c head
      decide
    | cons piece pieces =>
      have isGap := gap piece rfl
      cases piece with
      | blank d =>
        obtain rfl : d = c := Option.some.inj head
        exact isLetter_of_isBlank fits.1
      | continuation ending =>
        obtain rfl : '\\' = c := Option.some.inj head
        decide
      | quoted body => exact isGap.elim
      | bare first body => exact isGap.elim

/-- A **comment stands behind its mark.** -/
theorem commentAt_of_lineAt {label : String} {source : List Char} {c : CommentTokens}
    (found : LineAt (.start label) source (.comment c)) {t : Token} (text : c.text = some t) :
    CommentAt label source t := by
  obtain ⟨before, line, after, rfl, opens, oneLine, ends, -, same⟩ := exists_comment_of_lineAt found
  rw [same] at text
  unfold commentToken? at text
  split at text
  · cases text
  · obtain rfl := Option.some.inj text
    refine ⟨before, line, after, rfl, opens, oneLine, ends, ?_, String.toList_ofList⟩
    exact Position.advance_start label _

end Grammar

open Grammar

open Lexer (token)

/-- The **tokens of a text and the text.**  The tokens lay out the whole text: each takes the
stretch at its place, the last of them is the end mark, and what stands between the stretches says
nothing, so no text is lost.  The tokens between the marks of an argument say what the source
between the marks says; comments and names are taken over; and every token is at the place of the
stretch of text that it takes, behind those of the tokens before it, so no text is invented. -/
theorem tokenize_faithful {label text : String} {tokens : List Token}
    (tokenized : tokenize label text = .ok tokens) :
    Tiles [] (.start label) tokens text.toList ∧
    (∃ front last, tokens = front ++ [last] ∧ last.kind = .endOfInput) ∧
    (∀ before start body stop after, tokens = before ++ start :: (body ++ stop :: after) →
      start.kind = .argumentStart → stop.kind = .argumentStop →
      (∀ t ∈ body, t.kind ≠ .argumentStop) → ArgumentAt label text.toList start body stop) ∧
    (∀ t ∈ tokens, t.kind = .comment → CommentAt label text.toList t) ∧
    (∀ t ∈ tokens, t.kind = .directive → NameAt label text.toList t) ∧
    ∀ front t back, tokens = front ++ t :: back → TokenAt label text.toList front t := by
  obtain ⟨layout, fits, source, rfl⟩ := tokenize_eq_ok_iff_layout.mp tokenized
  rw [← source]
  have lines {entry : EntryTokens} (member : entry ∈ layout.entries (.start label)) :
      LineAt (.start label) layout.source entry := lineAt_of_mem_entries fits member
  have tiles := tiles_layoutSource (.start label) fits
  refine ⟨tiles, ⟨_, _, rfl, rfl⟩, ?_, ?_, ?_, ?_⟩
  · intro before start body stop after split startKind stopKind inside
    obtain ⟨d, listed, a, member, rfl, rfl, rfl⟩ :=
      exists_argument_of_split rfl split startKind stopKind inside
    obtain ⟨earlier, rest, whole, read⟩ := exists_readAt_of_mem_arguments (lines listed) member
    rw [whole]
    exact argumentAt_of_readAt read
  · intro t member kind
    obtain ⟨c, listed, text⟩ := exists_comment_of_mem rfl member kind
    exact commentAt_of_lineAt (lines listed) text
  · intro t member kind
    obtain ⟨d, listed, rfl⟩ := exists_directive_of_mem rfl member kind
    exact nameAt_of_lineAt (lines listed)
  · intro front t back split
    rw [split] at tiles
    obtain ⟨before, taken, rest, whole, earlier, position, spells, -⟩ := tiles.split
    rw [List.append_nil] at earlier spells
    rw [Position.advance_start] at position
    exact ⟨before, taken, rest, whole, earlier, position, spells⟩

/-- An argument in quotes with an escaped quote, a continuation and a comma, and a comment behind
it. -/
theorem tokenize_faithful_marker :
    tokenize "" "SecMarker \"a\\\"\\\nb,\"\n#c\r\n" =
      .ok [token .directive "SecMarker" ⟨none, 1, 1⟩, token .argumentStart "\"" ⟨none, 1, 11⟩,
        token .word "a\"b" ⟨none, 1, 12⟩, token (.punct .comma) "," ⟨none, 2, 2⟩,
        token .argumentStop "\"" ⟨none, 2, 3⟩, token .commentStart "#" ⟨none, 3, 1⟩,
        token .comment "c" ⟨none, 3, 2⟩, token .endOfInput "" ⟨none, 4, 1⟩] ∧
    Tiles [] (.start "")
      [token .directive "SecMarker" ⟨none, 1, 1⟩, token .argumentStart "\"" ⟨none, 1, 11⟩,
        token .word "a\"b" ⟨none, 1, 12⟩, token (.punct .comma) "," ⟨none, 2, 2⟩,
        token .argumentStop "\"" ⟨none, 2, 3⟩, token .commentStart "#" ⟨none, 3, 1⟩,
        token .comment "c" ⟨none, 3, 2⟩, token .endOfInput "" ⟨none, 4, 1⟩]
      "SecMarker \"a\\\"\\\nb,\"\n#c\r\n".toList ∧
    ArgumentAt "" "SecMarker \"a\\\"\\\nb,\"\n#c\r\n".toList
      (token .argumentStart "\"" ⟨none, 1, 11⟩)
      [token .word "a\"b" ⟨none, 1, 12⟩, token (.punct .comma) "," ⟨none, 2, 2⟩]
      (token .argumentStop "\"" ⟨none, 2, 3⟩) ∧
    CommentAt "" "SecMarker \"a\\\"\\\nb,\"\n#c\r\n".toList (token .comment "c" ⟨none, 3, 2⟩) := by
  have tokenized : tokenize "" "SecMarker \"a\\\"\\\nb,\"\n#c\r\n" =
      .ok [token .directive "SecMarker" ⟨none, 1, 1⟩, token .argumentStart "\"" ⟨none, 1, 11⟩,
        token .word "a\"b" ⟨none, 1, 12⟩, token (.punct .comma) "," ⟨none, 2, 2⟩,
        token .argumentStop "\"" ⟨none, 2, 3⟩, token .commentStart "#" ⟨none, 3, 1⟩,
        token .comment "c" ⟨none, 3, 2⟩, token .endOfInput "" ⟨none, 4, 1⟩] := by
    decide +kernel
  obtain ⟨tiles, -, arguments, comments, -, -⟩ := tokenize_faithful tokenized
  refine ⟨tokenized, tiles, ?_, ?_⟩
  · exact arguments [_] _ [_, _] _ [_, _, _] rfl rfl rfl (by decide)
  · exact comments _ (by simp) rfl

end WafRules
