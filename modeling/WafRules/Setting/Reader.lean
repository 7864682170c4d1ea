import WafRules.Setting
import WafRules.Token.Window

/-!
# Reading settings

The value of a setting is a single word, with blanks around it ignored.  The same readers serve
the directives and the `ctl` options of the same names.
-/

namespace WafRules

namespace Setting

/-- The only word of a window, with blanks around it. -/
def readWord (what : Expected) (w : Window) : Except SyntaxError Token :=
  w.skipBlanks.trimEnd.singleWord what

/-- A keyword that `ofName?` knows. -/
def readKeyword {α : Type} (what : Expected) (ofName? : String → Option α) (w : Window) :
    Except SyntaxError α := do
  let token ← readWord what w
  match ofName? token.value with
  | some value => return value
  | none => throw ⟨.invalidValue what token.value, token.position⟩

/-- The mode of the rule engine. -/
def readRuleEngine : Window → Except SyntaxError RuleEngineMode :=
  readKeyword .ruleEngineMode RuleEngineMode.ofName?

/-- The mode of the audit log. -/
def readAuditEngine : Window → Except SyntaxError AuditEngineMode :=
  readKeyword .auditEngineMode AuditEngineMode.ofName?

/-- The value of the switch with the given name. -/
def readSwitch (name : String) : Window → Except SyntaxError Bool :=
  readKeyword (.switchValue name) switch?

/-- Parts of the audit log, by their letters. -/
def readAuditLogParts (w : Window) : Except SyntaxError (List AuditLogPart) := do
  let token ← readWord .auditLogParts w
  token.value.toList.mapM fun c =>
    match AuditLogPart.ofLetter? c with
    | some part => .ok part
    | none => .error ⟨.invalidAuditLogPart c, token.position⟩

end Setting

end WafRules
