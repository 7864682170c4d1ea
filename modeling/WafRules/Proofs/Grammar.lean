import WafRules.Text.Blank
import WafRules.Text.Letter

/-!
# The lexical grammar

A well-formed text is a sequence of lines with line feeds between them.  A line is an indent
and then nothing, a comment, or a directive; a directive is a name and pieces, which are blanks,
line continuations and arguments.  This module says what such lines are without a lexer: as
trees, each of which is the reading of one text.

The grammar is context-free but for three places where a tree has to be right about the text
behind it.  A backslash and a carriage return are a pair unless a line feed follows, an argument
without quotes goes on until a blank, a line feed or the end, and the name of a directive is
followed by a blank, a continuation or the end of its line.

## Main Definitions

* `Atom`, `Piece`, `Content`, `Line`, `Layout` — the trees.
* `Layout.source` — the text a tree reads.
* `Layout.Fits` — whether a tree is a reading by the rules of the language.
-/

namespace WafRules

namespace Grammar

/-- What may stand after the backslash of a line continuation. -/
inductive LineBreak
  | lineFeed
  | returnLineFeed
  deriving DecidableEq, Repr

/-- The characters of a line break. -/
def LineBreak.source : LineBreak → List Char
  | lineFeed => ['\n']
  | returnLineFeed => ['\r', '\n']

/-- The source of a line continuation. -/
def continuation (ending : LineBreak) : List Char := '\\' :: ending.source

/-- Whether a backslash and `c` are, or begin, a line continuation when `after` follows. -/
def Continues (c : Char) (after : List Char) : Prop :=
  c = '\n' ∨ c = '\r' ∧ after.head? = some '\n'

/-- The two ways to write an argument. -/
inductive Style
  | bare
  | quoted
  deriving DecidableEq, Repr

/-- The characters that stand for themselves in an argument. -/
def Style.Admits : Style → Char → Prop
  | bare, c => Text.isBlank c = false ∧ c ≠ '\n' ∧ c ≠ '\\'
  | quoted, c => c ≠ '\n' ∧ c ≠ '\\' ∧ c ≠ '\x22'

/-! ### Arguments

The units of an argument are characters, pairs and continuations.  Which characters may stand for
themselves depends on the style; a pair may be of any character that does not make it a
continuation. -/

/-- A unit of an argument. -/
inductive Atom
  /-- A character that stands for itself. -/
  | char (c : Char)
  /-- A backslash and the character it is read with. -/
  | pair (c : Char)
  /-- A line continuation. -/
  | continuation (ending : LineBreak)
  deriving DecidableEq, Repr

/-- The source of a unit. -/
def Atom.source : Atom → List Char
  | char c => [c]
  | pair c => ['\\', c]
  | continuation ending => Grammar.continuation ending

/-- The source of units one after the other. -/
def bodySource (body : List Atom) : List Char := body.flatMap Atom.source

@[simp]
theorem bodySource_nil : bodySource [] = [] := rfl

@[simp]
theorem bodySource_cons (atom : Atom) (body : List Atom) :
    bodySource (atom :: body) = atom.source ++ bodySource body := rfl

/-- Whether a unit may stand in an argument before the text `after`. -/
def Atom.Fits (style : Style) (after : List Char) : Atom → Prop
  | char c => style.Admits c
  | pair c => ¬ Continues c after
  | continuation _ => True

/-- Whether units may stand in an argument one after the other, before the text `after`. -/
def BodyFits (style : Style) (after : List Char) : List Atom → Prop
  | [] => True
  | atom :: body => atom.Fits style (bodySource body ++ after) ∧ BodyFits style after body

/-- The characters an argument without quotes may begin with. -/
def OpensArgument (c : Char) : Prop :=
  Text.isBlank c = false ∧ c ≠ '\n' ∧ c ≠ '\\' ∧ c ≠ '\x22'

/-- Whether an argument without quotes ends before the text `after`. -/
def EndsArgument (after : List Char) : Prop :=
  ∀ c, after.head? = some c → Text.isBlank c = true ∨ c = '\n'

/-! ### Lines

The only condition that looks behind a piece of a line is about what follows a name and about what
follows an argument without quotes. -/

/-- What stands after the name of a directive. -/
inductive Piece
  | blank (c : Char)
  | continuation (ending : LineBreak)
  | quoted (body : List Atom)
  | bare (first : Char) (body : List Atom)
  deriving DecidableEq, Repr

/-- The source of a piece. -/
def Piece.source : Piece → List Char
  | blank c => [c]
  | continuation ending => Grammar.continuation ending
  | quoted body => '\x22' :: (bodySource body ++ ['\x22'])
  | bare first body => first :: bodySource body

/-- The source of pieces one after the other. -/
def piecesSource (pieces : List Piece) : List Char := pieces.flatMap Piece.source

@[simp]
theorem piecesSource_nil : piecesSource [] = [] := rfl

@[simp]
theorem piecesSource_cons (piece : Piece) (pieces : List Piece) :
    piecesSource (piece :: pieces) = piece.source ++ piecesSource pieces := rfl

/-- Whether a piece may stand before the text `after`. -/
def Piece.Fits (after : List Char) : Piece → Prop
  | blank c => Text.isBlank c = true
  | continuation _ => True
  | quoted body => BodyFits .quoted ('\x22' :: after) body
  | bare first body => OpensArgument first ∧ BodyFits .bare after body ∧ EndsArgument after

/-- Whether pieces may stand one after the other, before the text `after`. -/
def PiecesFit (after : List Char) : List Piece → Prop
  | [] => True
  | piece :: pieces => piece.Fits (piecesSource pieces ++ after) ∧ PiecesFit after pieces

/-- Whether a piece separates a name from the arguments. -/
def Piece.IsGap : Piece → Prop
  | blank _ | continuation _ => True
  | quoted _ | bare _ _ => False

/-- What a line holds after its indent. -/
inductive Content
  | nothing
  /-- A comment; the text does not include the mark. -/
  | comment (text : List Char)
  | directive (name : List Char) (pieces : List Piece)
  deriving DecidableEq, Repr

/-- The source of the content of a line. -/
def Content.source : Content → List Char
  | nothing => []
  | comment text => '#' :: text
  | directive name pieces => name ++ piecesSource pieces

/-- Whether content may stand at the end of a line, before the text `after`. -/
def Content.Fits (after : List Char) : Content → Prop
  | nothing => True
  | comment text => '\n' ∉ text
  | directive name pieces =>
    name ≠ [] ∧ (∀ c ∈ name, Text.isLetter c = true) ∧
      (∀ piece, pieces.head? = some piece → piece.IsGap) ∧ PiecesFit after pieces

/-- A line without its line feed. -/
structure Line where
  indent : List Char
  content : Content
  deriving DecidableEq, Repr

/-- The source of a line. -/
def Line.source (line : Line) : List Char := line.indent ++ line.content.source

/-- Whether a line may stand before the text `after`. -/
def Line.Fits (after : List Char) (line : Line) : Prop :=
  (∀ c ∈ line.indent, Text.isBlank c = true) ∧ line.content.Fits after

/-- The source of the lines after the first one, each behind a line feed. -/
def followingSource : List Line → List Char
  | [] => []
  | line :: lines => '\n' :: (line.source ++ followingSource lines)

/-- Whether lines may stand after the first one. -/
def FollowingFit : List Line → Prop
  | [] => True
  | line :: lines => line.Fits (followingSource lines) ∧ FollowingFit lines

/-- The lines of a text. -/
structure Layout where
  first : Line
  following : List Line
  deriving DecidableEq, Repr

/-- The text that lines make. -/
def Layout.source (layout : Layout) : List Char :=
  layout.first.source ++ followingSource layout.following

/-- Whether lines are well formed, each before the ones after it. -/
def Layout.Fits (layout : Layout) : Prop :=
  layout.first.Fits (followingSource layout.following) ∧ FollowingFit layout.following

/-! ### Small facts

Characters of one sort that are not of another, as often needed below. -/

/-- The text behind a line is empty or begins with a line feed. -/
theorem followingSource_head (lines : List Line) (c : Char)
    (head : (followingSource lines).head? = some c) : c = '\n' := by
  cases lines with
  | nil => cases head
  | cons line lines => simpa [followingSource] using head.symm

/-- No blank is a character that ends a line, begins an escape or stands at a quote. -/
theorem ne_of_isBlank {c : Char} (blank : Text.isBlank c = true) :
    c ≠ '\\' ∧ c ≠ '\n' ∧ c ≠ '\x22' := by
  refine ⟨?_, ?_, ?_⟩ <;> rintro rfl <;> exact absurd blank (by decide)

/-- Blanks and letters are different characters. -/
theorem isLetter_of_isBlank {c : Char} (blank : Text.isBlank c = true) :
    Text.isLetter c = false := by
  simp only [Text.isBlank, Bool.or_eq_true, beq_iff_eq] at blank
  rcases blank with (((((rfl | rfl) | rfl) | rfl) | rfl) | rfl) | rfl <;> decide +kernel

end Grammar

end WafRules
