import WafRules.Expandable.Reader
import WafRules.Operator
import WafRules.Text.Keyword

/-!
# Reading operators

An operator is an optional exclamation mark, an at sign and a name, and after blanks its
argument; without an at sign the whole text is a regular expression.  Of the blanks after the
name the first one only separates.  The others belong to the argument where it is kept as
written, and are dropped where it is a list of words or items.

## Main Definitions

* `Operand` — the argument of an operator before its shape is known.
* `Operator.Kind.readers` — the shape each name asks for.
* `Operator.read` — the operator of a rule.
-/

namespace WafRules

/-- The argument of an operator, with the name it follows. -/
structure Operand where
  name : Token
  /-- The blanks after the one that separates the argument from the name. -/
  leading : String
  window : Window

namespace Operand

/-- The argument in the window after a name. -/
def ofWindow (name : Token) (w : Window) : Except SyntaxError Operand :=
  if w.isEmpty then .ok ⟨name, "", w⟩
  else if w.startsWith .blanks then
    .ok ⟨name, String.ofList (w.first.value.toList.drop 1), w.drop 1⟩
  else .error (unexpected (.blanksAfter name.value) w.first)

/-- The error of an operator whose argument is missing. -/
def missing (o : Operand) : SyntaxError := ⟨.operatorNeedsArgument o.name.value, o.name.position⟩

/-- The argument without the blanks after it, which must not be empty. -/
def required (o : Operand) : Except SyntaxError Window :=
  let w := o.window.trimEnd
  if w.isEmpty then .error o.missing else .ok w

/-- The argument as it is written. -/
def verbatim (o : Operand) : Except SyntaxError String :=
  let text := o.leading ++ o.window.text
  if text.isEmpty then .error o.missing else .ok text

/-- The argument as an expandable string. -/
def expandable (o : Operand) : Except SyntaxError ExpandableString :=
  if o.leading.isEmpty ∧ o.window.isEmpty then .error o.missing
  else ExpandableString.readOnto (.ofText o.leading) o.window

/-- The text of an argument that is kept without the blanks after it. -/
def trimmed (o : Operand) : Except SyntaxError String := do return (← o.required).text

/-- The stretches of tokens between blanks, as texts. -/
def wordsOf (tokens : List Token) : List String :=
  match tokens with
  | [] => []
  | t :: rest =>
    let isWord (t : Token) : Bool := !t.isKind .blanks
    let word := (t :: rest).takeWhile isWord
    let after := ((t :: rest).dropWhile isWord).dropWhile (·.isKind .blanks)
    String.ofList (word.flatMap fun t => t.value.toList) :: wordsOf after
termination_by tokens.length
decreasing_by
  have first := (List.dropWhile_suffix (fun t : Token => !t.isKind .blanks) (l := rest)).length_le
  have second := (List.dropWhile_suffix (fun t : Token => t.isKind .blanks) (l := rest)).length_le
  have both := (List.dropWhile_suffix (fun t : Token => t.isKind .blanks)
    (l := rest.dropWhile fun t : Token => !t.isKind .blanks)).length_le
  by_cases blank : t.isKind .blanks = true <;> simp [blank] <;> omega

/-- The words of the argument. -/
def words (o : Operand) : Except SyntaxError (List String) := do
  return wordsOf (← o.required).tokens

/-- The items of a comma list, each without the spaces around it. -/
def items {α : Type} (o : Operand) (what : ListItem) (read? : List Char → Option α) :
    Except SyntaxError (List α) := do
  let w ← o.required
  (Text.fields ',' w.text.toList).mapM fun field =>
    let item := Text.trimList field
    match read? item with
    | some value => .ok value
    | none => .error ⟨.invalidListItem o.name.value what (String.ofList item), w.position⟩

/-- Nothing: the operator takes no argument. -/
def absent (o : Operand) : Except SyntaxError Unit :=
  let w := o.window.trimEnd
  if w.isEmpty then .ok () else .error ⟨.operatorTakesNothing o.name.value, w.position⟩

end Operand

namespace Operator

/-- How the argument of an operator is read. -/
abbrev Kind.Reader := Operand → Except SyntaxError Kind

/-- The names of the operators, with the shape of argument each asks for. -/
def Kind.readers : List (String × Kind.Reader) :=
  [("rx", fun o => .regex <$> o.verbatim),
    ("pm", fun o => .phrases <$> o.words),
    ("pmFromFile", fun o => .phraseFiles <$> o.words),
    ("pmf", fun o => .phraseFiles <$> o.words),
    ("ipMatch", fun o => .addresses <$> o.items .address Network.read?),
    ("ipMatchFromFile", fun o => .addressFile <$> o.trimmed),
    ("ipMatchF", fun o => .addressFile <$> o.trimmed),
    ("rbl", fun o => .blockList <$> o.trimmed),
    ("validateByteRange", fun o => .byteRanges <$> o.items .byteRange ByteRange.read?)] ++
  Comparison.all.map (fun how => (how.name, fun o => .compare how <$> o.expandable)) ++
  Detector.all.map (fun what => (what.name, fun o => (fun _ => .detect what) <$> o.absent))

/-- The operator after the at sign. -/
def Kind.read (w : Window) : Except SyntaxError Kind := do
  let (name, rest) ← w.expect .word .operatorName
  let operand ← Operand.ofWindow name rest
  match Text.lookup? Kind.readers name.value with
  | some read => read operand
  | none => throw ⟨.unknownOperator name.value, name.position⟩

/-- The operator of a rule. -/
def read (w : Window) : Except SyntaxError Operator := do
  let negated := w.startsWith (.punct .exclamation)
  let rest := if negated then w.drop 1 else w
  let kind ←
    if rest.startsWith (.punct .atSign) then Kind.read (rest.drop 1)
    else .ok (.regex rest.text)
  return ⟨kind, negated, w.position⟩

end Operator

end WafRules
