import WafRules.Token.Lexer

/-!
# Token streams

A token stream gives the tokens of a text one by one.  It reads only as far as the next token
needs, and it ends for good after the end mark or after the first error.

## Main Definitions

* `TokenStream.ofText` — the stream of a text.
* `TokenStream.next` — the next token or error, and the stream after it.
* `TokenStream.take` — what a number of calls give.
-/

namespace WafRules

/-- The unread part of a text, with the tokens that are read but not yet given. -/
structure TokenStream where
  position : Position
  state : Lexer.State
  rest : List Char
  pending : List Token
  /-- Whether the end of the text, or an error, has been reached. -/
  closed : Bool
  deriving DecidableEq, Repr

namespace TokenStream

/-- What one call gives: a token, an error, or nothing once the stream has ended. -/
abbrev Item := Option (Except LexError Token)

/-- The stream of a text with a label, before the first call. -/
def ofText (label text : String) : TokenStream where
  position := .start label
  state := .lineStart
  rest := text.toList
  pending := []
  closed := false

/-- The stream after its last token: an error that ends the text is still to be given. -/
def close (p : Position) (pending : List Token) (failure : Option LexError) :
    Item × TokenStream :=
  match pending, failure with
  | t :: pending, some error => (some (.ok t), ⟨p, .failed error, [], pending, false⟩)
  | t :: pending, none => (some (.ok t), ⟨p, .lineStart, [], pending, true⟩)
  | [], some error => (some (.error error), ⟨p, .failed error, [], [], true⟩)
  | [], none => (none, ⟨p, .lineStart, [], [], true⟩)

/-- Read until a token is complete, the text ends or an error is met. -/
def pull (p : Position) (state : Lexer.State) : List Char → Item × TokenStream
  | [] =>
    let (tokens, failure) := Lexer.finish p state
    close p tokens failure
  | c :: cs =>
    match state with
    | .failed error => close p [] (some error)
    | state =>
      match Lexer.step p state c with
      | ([], state) => pull (p.next c) state cs
      | (t :: pending, state) => (some (.ok t), ⟨p.next c, state, cs, pending, false⟩)

/-- The next token or error, and the stream after it. -/
def next (stream : TokenStream) : Item × TokenStream :=
  match stream.pending with
  | t :: pending => (some (.ok t), { stream with pending })
  | [] =>
    if stream.closed then (none, stream)
    else pull stream.position stream.state stream.rest

/-- What `count` calls in a row give. -/
def take (stream : TokenStream) : Nat → List Item
  | 0 => []
  | count + 1 =>
    let (item, stream) := stream.next
    item :: stream.take count

/-- A stream that has given everything it has stays as it is. -/
theorem next_of_closed (stream : TokenStream) (closed : stream.closed = true)
    (empty : stream.pending = []) : stream.next = (none, stream) := by
  simp [next, closed, empty]

end TokenStream

end WafRules
