import WafRules.Text.Blank
import WafRules.Text.Letter
import WafRules.Token

/-!
# The lexer

The lexer reads a text one character at a time.  Its state says where in a line it is and
holds what has been collected but not yet emitted; a step takes a character with its position
to the tokens it completes and the next state.

A line is empty, a comment or a directive.  After the name of a directive come its arguments,
separated by blanks.  An argument is written in double quotes or without them; either way its
words are split by punctuation.  A backslash pairs with the character after it: with a line
feed, or a carriage return and a line feed, the pair is a *continuation* and stands for
nothing; inside quotes a backslash and a double quote stand for the quote; every other pair is
kept as it is written, so that regular expressions pass through unchanged.

## Main Definitions

* `LexCause`, `LexError` — why and where a text is malformed.
* `Lexer.State` — what has been read of the current line.
* `Lexer.step`, `Lexer.finish` — the effect of one character, and of the end of the text.
* `Lexer.scan` — all tokens of a text, and the error that stopped the lexer if one did.
-/

namespace WafRules

/-- Why a text has no token stream. -/
inductive LexCause
  /-- A line starts with a character that opens neither a comment nor a directive. -/
  | strayCharacter (found : Char)
  /-- The name of a directive runs into a character that is not a letter. -/
  | nameCharacter (found : Char)
  /-- The text ends after a backslash. -/
  | unterminatedEscape
  /-- A backslash between arguments does not continue the line. -/
  | strayBackslash
  /-- The line or the text ends inside quotes. -/
  | unterminatedQuote
  deriving DecidableEq, Repr

namespace LexCause

/-- Whether the text is malformed after the name of a directive, on the directive's line. -/
def insideDirective : LexCause → Bool
  | strayCharacter _ | nameCharacter _ => false
  | unterminatedEscape | strayBackslash | unterminatedQuote => true

/-- The cause in words. -/
def message : LexCause → String
  | strayCharacter c =>
    "expected comment, whitespace or directive, found " ++ Text.quoteChar c
  | nameCharacter c => "directive names may only contain letters, found " ++ Text.quoteChar c
  | unterminatedEscape => "unterminated escape"
  | strayBackslash => "backslash outside of an argument must be a line continuation"
  | unterminatedQuote => "unterminated quoted argument"

end LexCause

/-- A cause with the place it is reported at. -/
structure LexError where
  cause : LexCause
  position : Position
  deriving DecidableEq, Repr

namespace Lexer

/-- Text being collected, with the place it began at. -/
structure Run where
  start : Position
  text : String
  deriving DecidableEq, Repr

/-- The run with one more character. -/
def Run.push (run : Run) (c : Char) : Run := { run with text := run.text.push c }

/-- How an argument is written: without quotes, or in quotes opened at a place. -/
inductive Quoting
  | bare
  | quoted (opened : Position)
  deriving DecidableEq, Repr

/-- Where a backslash may stand. -/
inductive Context
  /-- In the name of a directive. -/
  | name (run : Run)
  /-- Between the arguments of a directive. -/
  | between
  /-- In an argument, after the given part of a word. -/
  | body (quoting : Quoting) (word : Option Run)
  deriving DecidableEq, Repr

/-- What the lexer has read of the current line. -/
inductive State
  /-- Nothing but blanks. -/
  | lineStart
  /-- A comment, up to some character of its text. -/
  | comment (run : Run)
  /-- A place where a backslash may come next. -/
  | reading (context : Context)
  /-- Part of a run of blanks in quotes. -/
  | blanks (opened : Position) (run : Run)
  /-- A backslash. -/
  | escape (context : Context) (backslash : Position)
  /-- A backslash and a carriage return, which continue the line if a line feed follows. -/
  | escapeReturn (context : Context) (backslash : Position)
  /-- Something malformed; nothing is read after it. -/
  | failed (error : LexError)
  deriving DecidableEq, Repr

/-- The tokens completed by a step, and the state after it. -/
abbrev Outcome := List Token × State

/-- A token of the given kind and text. -/
def token (kind : Token.Kind) (value : String) (position : Position) : Token :=
  { kind, value, position }

/-- The lexer stops with an error. -/
def fail (cause : LexCause) (position : Position) : Outcome := ([], .failed ⟨cause, position⟩)

/-- The text of a comment line: a carriage return before the line feed is not part of it. -/
def commentText (text : String) : String :=
  let cs := text.toList
  if cs.getLast? = some '\r' then String.ofList cs.dropLast else text

/-- The token of a comment's text, which an empty comment does not have. -/
def commentTokens (run : Run) : List Token :=
  let text := commentText run.text
  if text.isEmpty then [] else [token .comment text run.start]

/-- The token of a directive's name. -/
def nameTokens (run : Run) : List Token := [token .directive run.text run.start]

/-- The token of a word, if one has begun. -/
def wordTokens : Option Run → List Token
  | none => []
  | some run => [token .word run.text run.start]

/-- The token of a run of blanks. -/
def blankTokens (run : Run) : List Token := [token .blanks run.text run.start]

/-- A word with more text, which begins at `position` if no word has begun. -/
def extendWord (word : Option Run) (position : Position) (text : String) : Option Run :=
  match word with
  | none => some ⟨position, text⟩
  | some run => some { run with text := run.text ++ text }

/-- What a pair of a backslash and another character stands for in an argument. -/
def escapedText (quoting : Quoting) (c : Char) : String :=
  match quoting with
  | .quoted _ => if c = '\x22' then "\"" else String.ofList ['\\', c]
  | .bare => String.ofList ['\\', c]

/-! ### One character -/

/-- A character at the start of a line. -/
def stepLineStart (p : Position) (c : Char) : Outcome :=
  if c = '#' then ([token .commentStart "#" p], .comment ⟨p.next c, ""⟩)
  else if c = '\n' ∨ Text.isBlank c then ([], .lineStart)
  else if Text.isLetter c then ([], .reading (.name ⟨p, c.toString⟩))
  else fail (.strayCharacter c) p

/-- A character of a comment.  Only a line feed ends it; a backslash has no meaning here. -/
def stepComment (run : Run) (c : Char) : Outcome :=
  if c = '\n' then (commentTokens run, .lineStart) else ([], .comment (run.push c))

/-- A character after part of a directive's name. -/
def stepName (run : Run) (p : Position) (c : Char) : Outcome :=
  if Text.isLetter c then ([], .reading (.name (run.push c)))
  else if c = '\n' then (nameTokens run, .lineStart)
  else if c = '\\' then ([], .escape (.name run) p)
  else if Text.isBlank c then (nameTokens run, .reading .between)
  else fail (.nameCharacter c) p

/-- A character inside an argument. -/
def stepBody (quoting : Quoting) (word : Option Run) (p : Position) (c : Char) : Outcome :=
  if c = '\\' then ([], .escape (.body quoting word) p)
  else if c = '\n' then
    match quoting with
    | .quoted opened => fail .unterminatedQuote opened
    | .bare => (wordTokens word ++ [token .argumentStop "" p], .lineStart)
  else if Text.isBlank c then
    match quoting with
    | .quoted opened => (wordTokens word, .blanks opened ⟨p, c.toString⟩)
    | .bare => (wordTokens word ++ [token .argumentStop "" p], .reading .between)
  else if c = '\x22' ∧ quoting ≠ .bare then
    (wordTokens word ++ [token .argumentStop "\"" p], .reading .between)
  else
    match Punct.ofChar? c with
    | some punct =>
      (wordTokens word ++ [token (.punct punct) c.toString p], .reading (.body quoting none))
    | none => ([], .reading (.body quoting (extendWord word p c.toString)))

/-- A character between arguments.  An argument without quotes begins with the character
itself. -/
def stepBetween (p : Position) (c : Char) : Outcome :=
  if c = '\n' then ([], .lineStart)
  else if c = '\\' then ([], .escape .between p)
  else if c = '\x22' then
    ([token .argumentStart "\"" p], .reading (.body (.quoted p) none))
  else if Text.isBlank c then ([], .reading .between)
  else
    let (tokens, state) := stepBody .bare none p c
    (token .argumentStart "" p :: tokens, state)

/-- A character where a backslash may stand. -/
def stepReading : Context → Position → Char → Outcome
  | .name run => stepName run
  | .between => stepBetween
  | .body quoting word => stepBody quoting word

/-- A character after a run of blanks in quotes. -/
def stepBlanks (opened : Position) (run : Run) (p : Position) (c : Char) : Outcome :=
  if Text.isBlank c then ([], .blanks opened (run.push c))
  else
    let (tokens, state) := stepBody (.quoted opened) none p c
    (blankTokens run ++ tokens, state)

/-- The line goes on after a continuation, which ends the name of a directive. -/
def continued : Context → Outcome
  | .name run => (nameTokens run, .reading .between)
  | .between => ([], .reading .between)
  | .body quoting word => ([], .reading (.body quoting word))

/-- A character after a backslash. -/
def stepEscape (context : Context) (backslash : Position) (c : Char) : Outcome :=
  if c = '\n' then continued context
  else if c = '\r' then ([], .escapeReturn context backslash)
  else
    match context with
    | .name _ => fail (.nameCharacter '\\') backslash
    | .between => fail .strayBackslash backslash
    | .body quoting word =>
      ([], .reading (.body quoting (extendWord word backslash (escapedText quoting c))))

/-- A character after a backslash and a carriage return.  Without a line feed the two are an
ordinary pair, and the character is read after it. -/
def stepEscapeReturn (context : Context) (backslash : Position) (p : Position) (c : Char) :
    Outcome :=
  if c = '\n' then continued context
  else
    match context with
    | .name _ => fail (.nameCharacter '\\') backslash
    | .between => fail .strayBackslash backslash
    | .body quoting word =>
      stepBody quoting (extendWord word backslash (escapedText quoting '\r')) p c

/-- One character of the text. -/
def step (p : Position) (state : State) (c : Char) : Outcome :=
  match state with
  | .lineStart => stepLineStart p c
  | .comment run => stepComment run c
  | .reading context => stepReading context p c
  | .blanks opened run => stepBlanks opened run p c
  | .escape context backslash => stepEscape context backslash c
  | .escapeReturn context backslash => stepEscapeReturn context backslash p c
  | .failed error => ([], .failed error)

/-! ### The end of the text -/

/-- The last tokens of a text, and the error if the text ends too early. -/
abbrev Ending := List Token × Option LexError

/-- The text ends well: the given tokens and the end mark. -/
def endWith (tokens : List Token) (p : Position) : Ending :=
  (tokens ++ [token .endOfInput "" p], none)

/-- The text ends inside an argument. -/
def finishBody (quoting : Quoting) (word : Option Run) (p : Position) : Ending :=
  match quoting with
  | .quoted opened => ([], some ⟨.unterminatedQuote, opened⟩)
  | .bare => endWith (wordTokens word ++ [token .argumentStop "" p]) p

/-- The text ends after the last step. -/
def finish (p : Position) : State → Ending
  | .lineStart => endWith [] p
  | .comment run => endWith (commentTokens run) p
  | .reading (.name run) => endWith (nameTokens run) p
  | .reading .between => endWith [] p
  | .reading (.body quoting word) => finishBody quoting word p
  | .blanks opened run => (blankTokens run, some ⟨.unterminatedQuote, opened⟩)
  | .escape (.name _) backslash => ([], some ⟨.nameCharacter '\\', backslash⟩)
  | .escape _ backslash => ([], some ⟨.unterminatedEscape, backslash⟩)
  | .escapeReturn (.name _) backslash => ([], some ⟨.nameCharacter '\\', backslash⟩)
  | .escapeReturn .between backslash => ([], some ⟨.strayBackslash, backslash⟩)
  | .escapeReturn (.body quoting word) backslash =>
    finishBody quoting (extendWord word backslash (escapedText quoting '\r')) p
  | .failed error => ([], some error)

/-! ### The whole text -/

/-- The lexer in the middle of a text: the place it has reached, what it holds, and the tokens
so far. -/
structure Progress where
  position : Position
  state : State
  tokens : Array Token

/-- Nothing read yet of a text with the given label. -/
def Progress.start (label : String) : Progress := ⟨.start label, .lineStart, #[]⟩

/-- One character further. -/
def Progress.feed (progress : Progress) (c : Char) : Progress :=
  let (tokens, state) := step progress.position progress.state c
  ⟨progress.position.next c, state, progress.tokens ++ tokens⟩

/-- Many characters further. -/
def Progress.feedAll (progress : Progress) (cs : List Char) : Progress :=
  cs.foldl Progress.feed progress

theorem Progress.feedAll_append (progress : Progress) (cs ds : List Char) :
    progress.feedAll (cs ++ ds) = (progress.feedAll cs).feedAll ds := by
  simp [Progress.feedAll]

/-- The tokens of a text, and the error that stopped the lexer before its end. -/
structure Scan where
  tokens : List Token
  failure : Option LexError
  deriving DecidableEq, Repr

/-- The text ends here. -/
def Progress.finish (progress : Progress) : Scan :=
  let (tokens, failure) := Lexer.finish progress.position progress.state
  ⟨(progress.tokens ++ tokens).toList, failure⟩

/-- All tokens of a text. -/
def scan (label text : String) : Scan :=
  ((Progress.start label).feedAll text.toList).finish

end Lexer

/-- The tokens of a text, ending with the end mark, or the error that makes it malformed. -/
def tokenize (label text : String) : Except LexError (List Token) :=
  let scan := Lexer.scan label text
  match scan.failure with
  | none => .ok scan.tokens
  | some error => .error error

end WafRules
