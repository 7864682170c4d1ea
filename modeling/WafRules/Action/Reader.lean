import WafRules.Action
import WafRules.Ctl.Reader
import WafRules.Expandable.Reader

/-!
# Reading actions

The actions of a rule are separated by commas or blanks.  An action is a keyword and possibly a
value after a colon.  A value in single quotes ends at the next single quote; any other ends at
a comma, and for the actions whose value is a single word also at blanks.

## Main Definitions

* `ActionValue` — the value of an action before its shape is known.
* `SetVar.read`, `ExpireVar.read`, `InitCol.read` — the values of the actions on collections.
* `Action.read` — one action, and the window after it.
* `Action.readList` — a whole window of actions.
-/

namespace WafRules

/-! ### Collections -/

namespace Member

/-- A collection and a variable with a dot between them. -/
def read (action : VariableAction) (w : Window) : Except SyntaxError Member :=
  match w.indexOutsideMacros? (.punct .dot) with
  | none => .error ⟨.missingMember action, w.position⟩
  | some dot => do
    let (collection, rest) := w.splitAt dot
    let name := rest.drop 1
    if collection.isEmpty then throw (unexpected .collectionName collection.first)
    if name.isEmpty then throw (unexpected .memberName name.first)
    return ⟨← ExpandableString.readValue collection, ← ExpandableString.readValue name⟩

end Member

namespace VarChange

/-- An amount, which may be any text but the empty one. -/
def readAmount (w : Window) : Except SyntaxError ExpandableString :=
  if w.isEmpty then .error (unexpected .setVarOperand w.first)
  else ExpandableString.readValue w

/-- A change after the equals sign. -/
def read (w : Window) : Except SyntaxError VarChange :=
  if w.startsWith (.punct .plus) then add <$> readAmount (w.drop 1)
  else if w.startsWith (.punct .minus) then subtract <$> readAmount (w.drop 1)
  else set <$> ExpandableString.readValue w

end VarChange

namespace SetVar

/-- The window before the first equals sign outside references, and the one from it on. -/
def splitAssignment (w : Window) : Window × Option Window :=
  match w.indexOutsideMacros? (.punct .equals) with
  | none => (w, none)
  | some equals =>
    let (target, assignment) := w.splitAt equals
    (target, some assignment)

/-- A variable, with an exclamation mark before it to delete it, or a value after it. -/
def read (w : Window) : Except SyntaxError SetVar := do
  let deleted := w.startsWith (.punct .exclamation)
  let (target, assignment) := splitAssignment (if deleted then w.drop 1 else w)
  let member ← Member.read .setVar target
  match assignment with
  | none => return ⟨member, if deleted then .delete else .setToOne⟩
  | some assignment =>
    if deleted then throw ⟨.deletedWithValue, assignment.position⟩
    return ⟨member, ← VarChange.read (assignment.drop 1)⟩

end SetVar

namespace ExpireVar

/-- A variable, an equals sign and a number of seconds. -/
def read (w : Window) : Except SyntaxError ExpireVar :=
  match w.indexOutsideMacros? (.punct .equals) with
  | none => .error ⟨.missingExpiry, w.position⟩
  | some equals => do
    let (target, rest) := w.splitAt equals
    let member ← Member.read .expireVar target
    let seconds := rest.drop 1
    if seconds.isEmpty then throw (unexpected .expirySeconds seconds.first)
    return ⟨member, ← ExpandableString.readValue seconds⟩

end ExpireVar

namespace InitCol

/-- A collection, an equals sign and a key. -/
def read (w : Window) : Except SyntaxError InitCol :=
  match w.index? (.punct .equals) with
  | none => .error ⟨.missingInitKey, w.position⟩
  | some equals => do
    let (collection, rest) := w.splitAt equals
    let collection ← collection.singleWord .collectionName
    let key := rest.drop 1
    if key.isEmpty then throw (unexpected .collectionKey key.first)
    return ⟨collection.value, ← ExpandableString.readValue key⟩

end InitCol

/-! ### Values -/

/-- The value of an action, if it has one, with the name it follows. -/
structure ActionValue where
  name : Token
  window : Option Window

namespace ActionValue

/-- The value, which must be there. -/
def required (v : ActionValue) : Except SyntaxError Window :=
  match v.window with
  | some w => .ok w
  | none => .error ⟨.actionNeedsValue v.name.value, v.name.position⟩

/-- Nothing: the action takes no value. -/
def absent (v : ActionValue) : Except SyntaxError Unit :=
  match v.window with
  | none => .ok ()
  | some w => .error ⟨.actionTakesNothing v.name.value, w.position⟩

/-- The value as a text with references. -/
def expandable (v : ActionValue) : Except SyntaxError ExpandableString := do
  ExpandableString.readValue (← v.required)

/-- The value as a plain text. -/
def plain (v : ActionValue) : Except SyntaxError String := do
  return String.ofList (ExpandableString.unescapeQuotes (← v.required).text.toList)

/-- A number in a window, from `least` to `most`. -/
def readNumeral (name : String) (least most : Nat) (w : Window) : Except SyntaxError Nat :=
  match Text.Decimal.read? w.text.toList with
  | none => .error ⟨.notANumeral name w.text, w.position⟩
  | some n =>
    if least ≤ n ∧ n ≤ most then .ok n
    else .error ⟨.outOfRange name least most w.text, w.position⟩

/-- The value as a number from `least` to `most`. -/
def numeral (v : ActionValue) (least most : Nat) : Except SyntaxError Nat := do
  readNumeral v.name.value least most (← v.required)

/-- The phases that have a name. -/
def phaseNames : List (String × Nat) := [("request", 2), ("response", 4), ("logging", 5)]

/-- The value as a phase, by name or number. -/
def phase (v : ActionValue) : Except SyntaxError Nat := do
  let w ← v.required
  match Text.lookup? phaseNames w.text with
  | some phase => return phase
  | none => readNumeral v.name.value 1 5 w

/-- The value as a severity, by name or level. -/
def severity (v : ActionValue) : Except SyntaxError Severity := do
  let w ← v.required
  match Severity.ofName? w.text with
  | some severity => return severity
  | none =>
    let level ← readNumeral v.name.value 0 7 w
    match Severity.ofLevel? level with
    | some severity => return severity
    | none => throw ⟨.invalidSeverity level, v.name.position⟩

/-- The value as a transformation. -/
def transform (v : ActionValue) : Except SyntaxError Transform := do
  let token ← (← v.required).singleWord .transformName
  match Transform.ofName? token.value with
  | some transform => return transform
  | none => throw ⟨.unknownTransform token.value, token.position⟩

end ActionValue

/-! ### Actions -/

namespace Action

/-- The value in the shape that a keyword asks for. -/
def ofValue (keyword : Keyword) (v : ActionValue) : Except SyntaxError Action :=
  match keyword with
  | .flag which => (fun _ => flag which) <$> v.absent
  | .text which => text which <$> v.expandable
  | .number which => number which <$> v.numeral which.least which.most
  | .label which => label which <$> v.plain
  | .phase => phase <$> v.phase
  | .severity => severity <$> v.severity
  | .transform => transform <$> v.transform
  | .setVar => do return setVar (← SetVar.read (← v.required))
  | .expireVar => do return expireVar (← ExpireVar.read (← v.required))
  | .initCol => do return initCol (← InitCol.read (← v.required))
  | .ctl => do return ctl (← CtlOption.read (← v.required))

/-- A value after its opening single quote, and the window after its closing one. -/
def quotedValue (opening : Position) (body : Window) : Except SyntaxError (Window × Window) :=
  match body.index? (.punct .singleQuote) with
  | none => .error ⟨.unclosedValueQuote, opening⟩
  | some close =>
    let (value, rest) := body.splitAt close
    .ok (value, rest.drop 1)

/-- A value without quotes, and the window after it. -/
def bareValue (singleWord : Bool) (w : Window) : Window × Window :=
  let ends (t : Token) : Bool := t.isKind (.punct .comma) || singleWord && t.isKind .blanks
  let (value, rest) := w.splitAt (w.tokens.takeWhile fun t => !ends t).length
  (value.trimEnd, rest)

/-- The value after the keyword of an action, if there is one, and the window after it. -/
def splitValue (singleWord : Bool) (w : Window) :
    Except SyntaxError (Option Window × Window) :=
  if w.startsWith (.punct .colon) then
    let w := (w.drop 1).skipBlanks
    if w.startsWith (.punct .singleQuote) then do
      let (value, rest) ← quotedValue w.position (w.drop 1)
      return (some value, rest)
    else
      let (value, rest) := bareValue singleWord w
      .ok (some value, rest)
  else .ok (none, w)

/-- One action, and the window after it. -/
def read (w : Window) : Except SyntaxError (Positioned Action × Window) := do
  let (name, rest) ← w.expect .word .actionName
  let keyword := Keyword.ofName? name.value
  let (value, rest) ← splitValue (keyword.any Keyword.isSingleWord) rest
  match keyword with
  | some keyword =>
    let action ← ofValue keyword ⟨name, value⟩
    return (⟨action, name.position⟩, rest)
  | none => throw ⟨.unknownAction name.value, name.position⟩

/-- The window from the next action on. -/
def skipSeparators (w : Window) : Window := w.dropKinds [.punct .comma, .blanks]

theorem skipSeparators_suffix (w : Window) : (skipSeparators w).tokens <:+ w.tokens :=
  List.dropWhile_suffix _

theorem quotedValue_suffix {opening : Position} {body value rest : Window}
    (read : quotedValue opening body = .ok (value, rest)) : rest.tokens <:+ body.tokens := by
  unfold quotedValue at read
  cases found : body.index? (.punct .singleQuote) with
  | none => simp [found] at read
  | some close =>
    simp only [found] at read
    cases read
    exact (Window.drop_suffix _ 1).trans (body.splitAt_suffix close)

theorem splitValue_suffix {singleWord : Bool} {w rest : Window} {value : Option Window}
    (read : splitValue singleWord w = .ok (value, rest)) : rest.tokens <:+ w.tokens := by
  unfold splitValue at read
  have start : (w.drop 1).skipBlanks.tokens <:+ w.tokens :=
    (Window.skipBlanks_suffix _).trans (w.drop_suffix 1)
  split at read
  · dsimp only at read
    split at read
    · simp only [bind_eq_ok_iff] at read
      obtain ⟨⟨value, after⟩, quoted, same⟩ := read
      cases same
      exact (quotedValue_suffix quoted).trans ((Window.drop_suffix _ 1).trans start)
    · cases read
      exact (Window.splitAt_suffix _ _).trans start
  · cases read
    exact List.suffix_rfl

/-- Reading an action makes the window shorter. -/
theorem read_length {w rest : Window} {a : Positioned Action}
    (read : Action.read w = .ok (a, rest)) : rest.tokens.length < w.tokens.length := by
  simp only [Action.read, bind_eq_ok_iff] at read
  obtain ⟨⟨name, afterName⟩, readName, ⟨value, afterValue⟩, readValue, read⟩ := read
  have first := Window.expect_length readName
  have second := (splitValue_suffix readValue).length_le
  dsimp only at second read
  split at read
  · simp only [bind_eq_ok_iff] at read
    obtain ⟨action, -, same⟩ := read
    cases same
    omega
  · cases read

/-- The actions of a window that starts with an action or is empty, after those read
`before`. -/
def readOnto (before : Array (Positioned Action)) (w : Window) :
    Except SyntaxError (List (Positioned Action)) :=
  if w.isEmpty then .ok before.toList
  else
    match _read : Action.read w with
    | .error e => .error e
    | .ok (action, rest) =>
      if rest.isEmpty ∨ rest.startsWith (.punct .comma) ∨ rest.startsWith .blanks then
        readOnto (before.push action) (skipSeparators rest)
      else .error (unexpected .actionSeparator rest.first)
termination_by w.tokens.length
decreasing_by
  have := read_length _read
  have := (skipSeparators_suffix rest).length_le
  omega

/-- The actions of a window, of which there may be none. -/
def readList (w : Window) : Except SyntaxError (List (Positioned Action)) :=
  readOnto #[] (skipSeparators w)

end Action

end WafRules
