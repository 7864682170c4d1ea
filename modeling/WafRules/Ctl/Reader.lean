import WafRules.Ctl
import WafRules.Selector.Reader
import WafRules.Setting.Reader
import WafRules.Text.Decimal
import WafRules.Text.Fields

/-!
# Reading control options

An option is a name, an equals sign and a value.  A value that names what to leave out may have
two parts, rule ids or a tag, and after a semicolon a target.

## Main Definitions

* `IdRange.read` — an id, or two with a minus sign between them.
* `CtlOption.readers` — the shape of value each name asks for.
* `CtlOption.read` — an option.
-/

namespace WafRules

/-- The greatest number an id may be. -/
def greatestId : Nat := 4294967295

namespace IdRange

/-- A bound of a range. -/
def readBound? (cs : List Char) : Option Nat :=
  Text.Decimal.atMost? greatestId (Text.Decimal.readCount? cs)

/-- The range a text denotes. -/
def read? (cs : List Char) : Option IdRange := do
  let (first, last) := (Text.cutAt? '-' cs).getD (cs, cs)
  let first ← readBound? first
  let last ← readBound? last
  if 1 ≤ first ∧ first ≤ last then return ⟨first, last⟩ else none

/-- The range a window denotes. -/
def read (w : Window) : Except SyntaxError IdRange :=
  match read? w.text.toList with
  | some range => .ok range
  | none => .error ⟨.invalidIdRange w.text, w.position⟩

end IdRange

namespace CtlOption

/-- A tag, which may be any text but the empty one. -/
def readTag (w : Window) : Except SyntaxError String :=
  if w.isEmpty then .error (unexpected .tag w.first) else .ok w.text

/-- The windows before and after the first semicolon. -/
def splitTarget (w : Window) : Except SyntaxError (Window × Window) :=
  match w.index? (.punct .semicolon) with
  | none => .error ⟨.missingTarget, w.position⟩
  | some semicolon =>
    let (before, after) := w.splitAt semicolon
    .ok (before, after.drop 1)

/-- A single selector. -/
def readTarget (w : Window) : Except SyntaxError Selector := do
  let (target, rest) ← Selector.read w
  rest.finish .ctlTarget
  return target

/-- Audit log parts after the sign of a change. -/
def readParts (w : Window) : Except SyntaxError CtlOption := do
  let (change, rest) :=
    if w.startsWith (.punct .plus) then (PartsChange.add, w.drop 1)
    else if w.startsWith (.punct .minus) then (PartsChange.remove, w.drop 1)
    else (PartsChange.set, w)
  return .auditLogParts change (← Setting.readAuditLogParts rest)

/-- A request body processor. -/
def readProcessor (w : Window) : Except SyntaxError CtlOption := do
  let token ← w.singleWord .bodyProcessor
  match BodyProcessor.ofName? token.value with
  | some processor => return .requestBodyProcessor processor
  | none => throw ⟨.unknownBodyProcessor token.value, token.position⟩

/-- Rule ids and a target. -/
def readTargetById (w : Window) : Except SyntaxError CtlOption := do
  let (ids, target) ← splitTarget w
  return .ruleRemoveTargetById (← IdRange.read ids) (← readTarget target)

/-- A tag and a target. -/
def readTargetByTag (w : Window) : Except SyntaxError CtlOption := do
  let (tag, target) ← splitTarget w
  return .ruleRemoveTargetByTag (← readTag tag) (← readTarget target)

/-- The names of the options, with the value each asks for. -/
def readers : List (String × (Window → Except SyntaxError CtlOption)) :=
  [("auditEngine", fun w => auditEngine <$> Setting.readAuditEngine w),
    ("auditLogParts", readParts),
    ("forceRequestBodyVariable",
      fun w => forceRequestBodyVariable <$> Setting.readSwitch "forceRequestBodyVariable" w),
    ("requestBodyAccess",
      fun w => requestBodyAccess <$> Setting.readSwitch "requestBodyAccess" w),
    ("requestBodyProcessor", readProcessor),
    ("ruleEngine", fun w => ruleEngine <$> Setting.readRuleEngine w),
    ("ruleRemoveById", fun w => ruleRemoveById <$> IdRange.read w),
    ("ruleRemoveByTag", fun w => ruleRemoveByTag <$> readTag w),
    ("ruleRemoveTargetById", readTargetById),
    ("ruleRemoveTargetByTag", readTargetByTag)]

/-- An option with its value. -/
def read (w : Window) : Except SyntaxError CtlOption := do
  let (name, rest) ← w.expect .word .ctlOption
  let (_, value) ← rest.expect (.punct .equals) .ctlValue
  match Text.lookup? readers name.value with
  | some read => read value
  | none => throw ⟨.unknownCtlOption name.value, name.position⟩

end CtlOption

end WafRules
