import WafRules.Directive.Reader
import WafRules.Document
import WafRules.Log

/-!
# Reading documents

A text is read in two steps, into tokens and into entries, and the first error ends it.  A
partial reading keeps the entries before the error.  When the text is malformed inside a
directive, that directive has no complete tokens, and the entries before it are kept.

## Main Definitions

* `Item.read` — one entry, and the window after it.
* `Document.readItems` — the entries of a window up to the first error.
* `Document.parse` — the document of a text.
* `Document.parsePartial` — the entries before the first error, and the error.
-/

namespace WafRules

/-- A comment whose mark has been read, and the window after it. -/
def Comment.read (position : Position) (w : Window) : Comment × Window :=
  if w.startsWith .comment then (⟨w.first.value, position⟩, w.drop 1)
  else (⟨"", position⟩, w)

theorem Comment.read_suffix (position : Position) (w : Window) :
    (Comment.read position w).2.tokens <:+ w.tokens := by
  unfold Comment.read
  split
  · exact w.drop_suffix 1
  · exact List.suffix_rfl

/-- One entry, and the window after it. -/
def Item.read (w : Window) : Except SyntaxError (Item × Window) :=
  if w.startsWith .commentStart then
    let (c, rest) := Comment.read w.position (w.drop 1)
    .ok (.comment c, rest)
  else if w.startsWith .directive then do
    let (d, rest) ← Directive.read w
    return (.directive d, rest)
  else .error (unexpected .item w.first)

/-- Reading an entry makes the window shorter. -/
theorem Item.read_length {w rest : Window} {item : Item} (read : Item.read w = .ok (item, rest)) :
    rest.tokens.length < w.tokens.length := by
  unfold Item.read at read
  split at read
  · next starts =>
    obtain ⟨t, ts, tokens, -⟩ := Window.tokens_of_startsWith starts
    have shorter := (Comment.read_suffix w.position (w.drop 1)).length_le
    simp only [Except.ok.injEq, Prod.mk.injEq] at read
    rw [← read.2]
    simp [tokens] at shorter ⊢
    omega
  · split at read
    · simp only [bind_eq_ok_iff] at read
      obtain ⟨⟨d, after⟩, readDirective, same⟩ := read
      cases same
      exact Directive.read_length readDirective
    · cases read

/-- The record of an entry that is added to a document; comments leave none. -/
def Item.trace : Item → List LogRecord
  | .comment _ => []
  | .directive d => [⟨.trace, d.heading⟩]

namespace Document

/-- The entries read so far, and the records made for them. -/
structure Progress where
  items : Array Item
  log : Array LogRecord

/-- One more entry. -/
def Progress.add (progress : Progress) (item : Item) : Progress :=
  ⟨progress.items.push item, progress.log ++ item.trace⟩

/-- The entries of a window after those read before it, and the error that ends them. -/
def readItems (progress : Progress) (w : Window) : Progress × Option SyntaxError :=
  if w.isEmpty then (progress, none)
  else
    match _read : Item.read w with
    | .error e => (progress, some e)
    | .ok (item, rest) => readItems (progress.add item) rest
termination_by w.tokens.length
decreasing_by exact Item.read_length _read

/-- The entries of a token stream, whose last token closes the window of the others. -/
def readTokens (tokens : List Token) : Progress × Option SyntaxError :=
  match tokens.getLast? with
  | none => (⟨#[], #[]⟩, none)
  | some last => readItems ⟨#[], #[]⟩ ⟨tokens.dropLast, last⟩

/-- The record of a document that has been read to its end. -/
def parsedRecord (d : Document) : LogRecord :=
  ⟨.debug, "parsed " ++ d.name ++ ": " ++ toString d.directives.length ++ " directives, " ++
    toString d.comments.length ++ " comments"⟩

/-- The document of a text, with the records made while it was read. -/
def parseLogged (name text : String) : Logged (Except ParseError Document) :=
  match tokenize name text with
  | .error e => .pure (.error (.lexical e))
  | .ok tokens =>
    let (progress, failure) := readTokens tokens
    match failure with
    | some e => ⟨.error (.structural e), progress.log.toList⟩
    | none =>
      let document : Document := ⟨name, progress.items.toList⟩
      ⟨.ok document, progress.log.toList ++ [document.parsedRecord]⟩

/-- The document of a text. -/
def parse (name text : String) : Except ParseError Document := (parseLogged name text).value

/-! ### Partial documents -/

/-- A document that may be incomplete, and the error that makes it so. -/
structure Partial where
  document : Document
  failure : Option ParseError
  deriving DecidableEq, Repr

/-- The tokens before the last directive. -/
def beforeLastDirective (tokens : List Token) : List Token :=
  ((tokens.reverse.dropWhile fun t => !t.isKind .directive).drop 1).reverse

/-- The tokens of the complete entries before an error, with an end mark at the error. -/
def salvage (tokens : List Token) (e : LexError) : List Token :=
  (if e.cause.insideDirective then beforeLastDirective tokens else tokens) ++
    [Lexer.token .endOfInput "" e.position]

/-- The entries before the first error, with the records made for them.  An error in the tokens
comes before one in the entries, because the tokens are read first. -/
def parsePartialLogged (name text : String) : Logged Partial :=
  let scan := Lexer.scan name text
  let tokens :=
    match scan.failure with
    | none => scan.tokens
    | some e => salvage scan.tokens e
  let (progress, failure) := readTokens tokens
  let failure := (scan.failure.map ParseError.lexical).or (failure.map ParseError.structural)
  ⟨⟨⟨name, progress.items.toList⟩, failure⟩, progress.log.toList⟩

/-- The entries before the first error, and the error. -/
def parsePartial (name text : String) : Partial := (parsePartialLogged name text).value

end Document

end WafRules
