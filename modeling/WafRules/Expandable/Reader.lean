import WafRules.Expandable
import WafRules.Token.Window

/-!
# Reading expandable strings

An expandable string is read from a window of tokens.  A percent sign directly before an
opening brace starts a reference, which must be complete; every other token is literal text.

## Main Definitions

* `MacroRef.read` — a reference, and the window after it.
* `ExpandableString.read` — a whole window.
* `ExpandableString.readValue` — the same for the value of an action, where a backslash before
  a single quote is dropped.
-/

namespace WafRules

/-- The first token that cannot be part of the name of a collection member. -/
def invalidKeyToken? (tokens : List Token) : Option Token :=
  tokens.find? fun t =>
    t.isKind .blanks || t.isKind (.punct .percent) || t.isKind (.punct .curlyOpen)

/-- The member of a collection and the closing brace, after the dot of a reference that
starts at `opening`. -/
def MacroRef.readKey (opening : Position) (collection : String) (body : Window) :
    Except SyntaxError (MacroRef × Window) :=
  match body.index? (.punct .curlyClose) with
  | none => .error ⟨.unclosedMacro, opening⟩
  | some close =>
    let (key, rest) := body.splitAt close
    if key.isEmpty then .error ⟨.emptyMacroKey collection, key.position⟩
    else
      match invalidKeyToken? key.tokens with
      | some t => .error ⟨.invalidMacroKey t.toLexeme, t.position⟩
      | none => .ok (⟨some collection, key.text⟩, rest.drop 1)

/-- A reference at the start of a window, and the window after it. -/
def MacroRef.read (w : Window) : Except SyntaxError (MacroRef × Window) := do
  let (name, rest) ← (w.drop 2).expect .word .macroName
  if rest.startsWith (.punct .dot) then readKey w.position name.value (rest.drop 1)
  else
    let (_, rest) ← rest.expect (.punct .curlyClose) .macroEnd
    return (⟨none, name.value⟩, rest)

theorem MacroRef.readKey_length {opening : Position} {collection : String} {body rest : Window}
    {m : MacroRef} (read : MacroRef.readKey opening collection body = .ok (m, rest)) :
    rest.tokens.length ≤ body.tokens.length := by
  unfold MacroRef.readKey at read
  cases found : body.index? (.punct .curlyClose) with
  | none => simp [found] at read
  | some close =>
    by_cases noKey : (body.splitAt close).1.isEmpty = true
    · simp [found, noKey] at read
    · cases invalid : invalidKeyToken? (body.splitAt close).1.tokens with
      | some t => simp [found, noKey, invalid] at read
      | none =>
        simp [found, noKey, invalid] at read
        obtain ⟨-, rfl⟩ := read
        simp [Window.splitAt]

/-- Reading a reference makes the window shorter. -/
theorem MacroRef.read_length {w rest : Window} {m : MacroRef}
    (read : MacroRef.read w = .ok (m, rest)) : rest.tokens.length < w.tokens.length := by
  unfold MacroRef.read at read
  cases name : (w.drop 2).expect .word .macroName with
  | error e => simp [name, bind, Except.bind] at read
  | ok result =>
    obtain ⟨t, after⟩ := result
    have shorter := congrArg List.length (Window.expect_eq_ok name).1
    simp only [Window.drop_tokens, List.length_drop, List.length_cons] at shorter
    simp only [name, bind, Except.bind] at read
    split at read
    · have := MacroRef.readKey_length read
      simp at this
      omega
    · cases close : after.expect (.punct .curlyClose) .macroEnd with
      | error e => simp [close] at read
      | ok result =>
        obtain ⟨u, last⟩ := result
        have closer := congrArg List.length (Window.expect_eq_ok close).1
        simp only [List.length_cons] at closer
        simp [close, pure, Except.pure] at read
        obtain ⟨-, rfl⟩ := read
        omega

namespace ExpandableString

/-- Whether a window starts with a reference. -/
def startsMacro (w : Window) : Bool :=
  match w.tokens with
  | t :: u :: _ => Window.opensMacro t u
  | _ => false

/-- The rest of a window at the end of a string. -/
def readOnto (s : ExpandableString) (w : Window) : Except SyntaxError ExpandableString :=
  if startsMacro w then
    match _read : MacroRef.read w with
    | .ok (m, rest) => readOnto (s.pushMacro m) rest
    | .error e => .error e
  else
    match _tokens : w.tokens with
    | [] => .ok s
    | t :: rest => readOnto (s.pushLiteral t.value) { w with tokens := rest }
termination_by w.tokens.length
decreasing_by
  · exact MacroRef.read_length _read
  · simp [_tokens]

/-- The string a window holds. -/
def read (w : Window) : Except SyntaxError ExpandableString := readOnto empty w

/-- A text in which every backslash directly before a single quote is dropped. -/
def unescapeQuotes : List Char → List Char
  | '\\' :: '\x27' :: cs => '\x27' :: unescapeQuotes cs
  | c :: cs => c :: unescapeQuotes cs
  | [] => []

/-- A piece of an action's value, whose single quotes are written with a backslash. -/
def unescapePart : StringPart → StringPart
  | .literal text => .literal (String.ofList (unescapeQuotes text.toList))
  | .reference m => .reference m

/-- The string that a window holds as the value of an action. -/
def readValue (w : Window) : Except SyntaxError ExpandableString := do
  let s ← read w
  return ⟨s.parts.map unescapePart⟩

end ExpandableString

end WafRules
