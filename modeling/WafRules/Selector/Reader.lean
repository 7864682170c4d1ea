import WafRules.Selector
import WafRules.Token.Window

/-!
# Reading selectors

The variables of a rule are selectors with bars between them and blanks allowed around the
bars.  A selector is an optional sign, a name, and for a collection an optional member after a
colon: a key, or a regular expression between slashes, either of them possibly in single
quotes.  The members of the XML collection are path expressions, whose slashes are part of the
key.

A regular expression ends at the first slash that is followed by a bar, by blanks or by
nothing, so a slash or a bar inside it needs no escape in general.

## Main Definitions

* `Selector.read` — one selector, and the window after it.
* `Selector.readList` — a whole window of selectors.
-/

namespace WafRules

namespace MemberPattern

/-- A key, which may be any text but the empty one. -/
def readKey (w : Window) : Except SyntaxError MemberPattern :=
  if w.isEmpty then .error (unexpected .collectionKey w.first)
  else .ok (MemberPattern.key w.text)

/-- Whether a token ends a selector without quotes. -/
def endsSelector (t : Token) : Bool := t.isKind (.punct .pipe) || t.isKind .blanks

/-- A key that ends at a bar or at blanks, and the window after it. -/
def readBareKey (w : Window) : Except SyntaxError (MemberPattern × Window) := do
  let length := (w.tokens.takeWhile fun t => !endsSelector t).length
  let (text, rest) := w.splitAt length
  return (← readKey text, rest)

/-- The index of the slash that closes a regular expression. -/
def closingSlash? : List Token → Option Nat
  | [] => none
  | [t] => if t.isKind (.punct .slash) then some 0 else none
  | t :: u :: rest =>
    if t.isKind (.punct .slash) && endsSelector u then some 0
    else (closingSlash? (u :: rest)).map (· + 1)

/-- A regular expression after its opening slash, and the window after its closing one. -/
def readRegex (opening : Position) (body : Window) :
    Except SyntaxError (MemberPattern × Window) :=
  match closingSlash? body.tokens with
  | none => .error ⟨.unclosedRegex, opening⟩
  | some close =>
    let (pattern, rest) := body.splitAt close
    if pattern.isEmpty then .error ⟨.emptyRegex, opening⟩
    else .ok (.regex pattern.text, rest.drop 1)

/-- A member pattern between single quotes. -/
def readInner (inner : Window) : Except SyntaxError MemberPattern := do
  if inner.startsWith (.punct .slash) then
    let (pattern, rest) ← readRegex inner.position (inner.drop 1)
    rest.finish .quotedRegex
    return pattern
  else readKey inner

/-- A member pattern after its opening single quote, and the window after its closing one. -/
def readQuoted (opening : Position) (body : Window) :
    Except SyntaxError (MemberPattern × Window) :=
  match body.index? (.punct .singleQuote) with
  | none => .error ⟨.unclosedSelectorQuote, opening⟩
  | some close => do
    let (inner, rest) := body.splitAt close
    return (← readInner inner, rest.drop 1)

/-- A member pattern after the colon of a selector. -/
def read (subject : Variable) (w : Window) : Except SyntaxError (MemberPattern × Window) :=
  if w.startsWith (.punct .singleQuote) then readQuoted w.position (w.drop 1)
  else if w.startsWith (.punct .slash) ∧ subject ≠ .builtIn .xml then
    readRegex w.position (w.drop 1)
  else readBareKey w

theorem readBareKey_suffix {w rest : Window} {m : MemberPattern}
    (read : readBareKey w = .ok (m, rest)) : rest.tokens <:+ w.tokens := by
  simp only [readBareKey, bind_eq_ok_iff] at read
  obtain ⟨key, -, same⟩ := read
  cases same
  exact w.splitAt_suffix _

theorem readRegex_suffix {opening : Position} {body rest : Window} {m : MemberPattern}
    (read : readRegex opening body = .ok (m, rest)) : rest.tokens <:+ body.tokens := by
  unfold readRegex at read
  cases found : closingSlash? body.tokens with
  | none => simp [found] at read
  | some close =>
    by_cases empty : (body.splitAt close).1.isEmpty = true
    · simp [found, empty] at read
    · simp only [found, empty] at read
      cases read
      exact (Window.drop_suffix _ 1).trans (body.splitAt_suffix close)

theorem readQuoted_suffix {opening : Position} {body rest : Window} {m : MemberPattern}
    (read : readQuoted opening body = .ok (m, rest)) : rest.tokens <:+ body.tokens := by
  unfold readQuoted at read
  cases found : body.index? (.punct .singleQuote) with
  | none => simp [found] at read
  | some close =>
    simp only [found, bind_eq_ok_iff] at read
    obtain ⟨_, -, same⟩ := read
    cases same
    exact (Window.drop_suffix _ 1).trans (body.splitAt_suffix close)

theorem read_suffix {subject : Variable} {w rest : Window} {m : MemberPattern}
    (read : MemberPattern.read subject w = .ok (m, rest)) : rest.tokens <:+ w.tokens := by
  unfold MemberPattern.read at read
  split at read
  · exact (readQuoted_suffix read).trans (w.drop_suffix 1)
  · split at read
    · exact (readRegex_suffix read).trans (w.drop_suffix 1)
    · exact readBareKey_suffix read

end MemberPattern

namespace Selector

/-- A sign that has been read, unless another one follows. -/
def onlySign (mode : SelectorMode) (rest : Window) :
    Except SyntaxError (SelectorMode × Window) :=
  if rest.startsWith (.punct .exclamation) ∨ rest.startsWith (.punct .ampersand) then
    .error ⟨.twoModifiers, rest.position⟩
  else .ok (mode, rest)

/-- The sign before a variable, and the window after it. -/
def readMode (w : Window) : Except SyntaxError (SelectorMode × Window) :=
  if w.startsWith (.punct .exclamation) then onlySign .remove (w.drop 1)
  else if w.startsWith (.punct .ampersand) then onlySign .count (w.drop 1)
  else .ok (.add, w)

/-- One selector, and the window after it. -/
def read (w : Window) : Except SyntaxError (Selector × Window) := do
  let (mode, rest) ← readMode w
  let (name, rest) ← rest.expect .word .variableName
  let subject := Variable.ofName name.value
  if rest.startsWith (.punct .colon) then
    if subject.isCollection then
      let (member, rest) ← MemberPattern.read subject (rest.drop 1)
      return (⟨mode, subject, some member, w.position⟩, rest)
    else
      throw ⟨.notACollection subject.name, rest.position⟩
  else
    return (⟨mode, subject, none, w.position⟩, rest)

theorem onlySign_eq_ok {mode read : SelectorMode} {w rest : Window}
    (accepted : onlySign mode w = .ok (read, rest)) : read = mode ∧ rest = w := by
  unfold onlySign at accepted
  split at accepted
  · cases accepted
  · cases accepted
    exact ⟨rfl, rfl⟩

theorem readMode_suffix {w rest : Window} {mode : SelectorMode}
    (read : readMode w = .ok (mode, rest)) : rest.tokens <:+ w.tokens := by
  unfold readMode at read
  split at read
  · rw [(onlySign_eq_ok read).2]
    exact w.drop_suffix 1
  · split at read
    · rw [(onlySign_eq_ok read).2]
      exact w.drop_suffix 1
    · cases read
      exact List.suffix_rfl

/-- Reading a selector makes the window shorter. -/
theorem read_length {w rest : Window} {s : Selector} (read : Selector.read w = .ok (s, rest)) :
    rest.tokens.length < w.tokens.length := by
  simp only [Selector.read, bind_eq_ok_iff] at read
  obtain ⟨⟨mode, afterMode⟩, readMode, ⟨name, afterName⟩, readName, read⟩ := read
  have first := (readMode_suffix readMode).length_le
  have second := Window.expect_length readName
  dsimp only at second read
  split at read
  · split at read
    · simp only [bind_eq_ok_iff] at read
      obtain ⟨⟨member, afterMember⟩, readMember, same⟩ := read
      have third := (MemberPattern.read_suffix readMember).length_le
      have dropped := (afterName.drop_suffix 1).length_le
      cases same
      dsimp only
      omega
    · cases read
  · cases read
    omega

/-- The selectors of a window, after those read `before`.  A bar must be followed by a
selector. -/
def readOnto (before : Array Selector) (w : Window) : Except SyntaxError (List Selector) :=
  match _read : Selector.read w with
  | .error e => .error e
  | .ok (selector, rest) =>
    let selectors := before.push selector
    if rest.skipBlanks.isEmpty then .ok selectors.toList
    else
      match _bar : rest.skipBlanks.expect (.punct .pipe) .variableSeparator with
      | .error e => .error e
      | .ok (_, after) => readOnto selectors after.skipBlanks
termination_by w.tokens.length
decreasing_by
  have := read_length _read
  have := Window.expect_length _bar
  have := rest.skipBlanks_suffix.length_le
  have := after.skipBlanks_suffix.length_le
  omega

/-- The selectors of a window, of which there is at least one. -/
def readList (w : Window) : Except SyntaxError (List Selector) := readOnto #[] w.skipBlanks

end Selector

end WafRules
