import WafRules.Position
import WafRules.Text.Quoted

/-!
# Tokens

The lexical units of a configuration text.  A comment line gives a start mark and its text; a
directive gives its name and, for each argument, the tokens between a start and a stop mark.
Inside an argument, words are split by blanks (in quotes) and by sixteen punctuation
characters.

## Main Definitions

* `Punct` — the punctuation characters.
* `Token.Kind` — the kinds of token.
* `Lexeme`, `Token` — a kind with its text, and the same with a position.
-/

namespace WafRules

/-- The characters that split the words of an argument. -/
inductive Punct
  | atSign | ampersand | colon | pipe | comma | equals | semicolon | singleQuote | percent
  | curlyOpen | curlyClose | dot | plus | minus | exclamation | slash
  deriving DecidableEq, Repr

namespace Punct

/-- The character itself. -/
def char : Punct → Char
  | atSign => '@'
  | ampersand => '&'
  | colon => ':'
  | pipe => '|'
  | comma => ','
  | equals => '='
  | semicolon => ';'
  | singleQuote => '\x27'
  | percent => '%'
  | curlyOpen => '\x7b'
  | curlyClose => '\x7d'
  | dot => '.'
  | plus => '+'
  | minus => '-'
  | exclamation => '!'
  | slash => '/'

/-- The name of the token kind that stands for the character. -/
def name : Punct → String
  | atSign => "At"
  | ampersand => "Ampersand"
  | colon => "Colon"
  | pipe => "Pipe"
  | comma => "Comma"
  | equals => "Equals"
  | semicolon => "Semicolon"
  | singleQuote => "SingleQuote"
  | percent => "Percent"
  | curlyOpen => "CurlyOpen"
  | curlyClose => "CurlyClose"
  | dot => "Dot"
  | plus => "Plus"
  | minus => "Minus"
  | exclamation => "Exclamation"
  | slash => "ForwardSlash"

/-- Every punctuation character, once. -/
def all : List Punct :=
  [atSign, ampersand, colon, pipe, comma, equals, semicolon, singleQuote, percent, curlyOpen,
    curlyClose, dot, plus, minus, exclamation, slash]

theorem mem_all (p : Punct) : p ∈ all := by
  cases p <;> decide

/-- The punctuation a character stands for. -/
def ofChar? (c : Char) : Option Punct := all.find? fun p => p.char == c

theorem ofChar?_char (p : Punct) : ofChar? p.char = some p := by
  cases p <;> decide

theorem ofChar?_eq_some_iff {c : Char} {p : Punct} : ofChar? c = some p ↔ c = p.char := by
  refine ⟨fun found => ?_, fun h => by rw [h, ofChar?_char]⟩
  unfold ofChar? at found
  have same := List.find?_some found
  exact (beq_iff_eq.mp same).symm

end Punct

namespace Token

/-- The kinds of token. -/
inductive Kind
  /-- The end of the text. -/
  | endOfInput
  /-- The mark that opens a comment line. -/
  | commentStart
  /-- The text of a comment line. -/
  | comment
  /-- The name of a directive. -/
  | directive
  | argumentStart
  | argumentStop
  /-- A run of characters that are neither blanks nor punctuation. -/
  | word
  /-- A run of blanks inside a quoted argument. -/
  | blanks
  | punct (p : Punct)
  deriving DecidableEq, Repr

namespace Kind

/-- The name of the kind in a token listing. -/
def name : Kind → String
  | endOfInput => "Eof"
  | commentStart => "CommentStart"
  | comment => "Comment"
  | directive => "Directive"
  | argumentStart => "ArgumentStart"
  | argumentStop => "ArgumentStop"
  | word => "Ident"
  | blanks => "Whitespace"
  | punct p => p.name

/-- The kind in the words of a diagnostic. -/
def describe : Kind → String
  | endOfInput => "end of input"
  | commentStart => "comment"
  | comment => "comment text"
  | directive => "directive"
  | argumentStart => "start of argument"
  | argumentStop => "end of argument"
  | word => "identifier"
  | blanks => "whitespace"
  | punct .singleQuote => "single quote"
  | punct p => Text.quoteChar p.char

end Kind

end Token

/-- A kind of token with the text it stands for. -/
structure Lexeme where
  kind : Token.Kind
  /-- The text, with escapes and line continuations already applied. -/
  value : String
  deriving DecidableEq, Repr

/-- The lexeme in the words of a diagnostic: names are shown, everything else is named by its
kind. -/
def Lexeme.describe (l : Lexeme) : String :=
  match l.kind with
  | .word | .directive => l.kind.describe ++ " " ++ Text.quoteText l.value
  | kind => kind.describe

/-- A lexeme with its place in the text. -/
structure Token extends Lexeme where
  position : Position
  deriving DecidableEq, Repr

namespace Token

/-- Whether the token has the given kind. -/
def isKind (t : Token) (kind : Kind) : Bool := t.kind == kind

/-- The line of a token listing: position, kind and quoted text. -/
def render (t : Token) : String :=
  t.position.render ++ " " ++ t.kind.name ++ " " ++ Text.quoteText t.value

end Token

end WafRules
