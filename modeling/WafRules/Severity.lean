import WafRules.Text.Keyword

/-!
# Severities

How serious a match of a rule is, from level 0, the most serious, to level 7.
-/

namespace WafRules

/-- How serious a match is. -/
inductive Severity
  | emergency | alert | critical | error | warning | notice | info | debug
  deriving DecidableEq, Repr

namespace Severity

/-- The name, in upper case. -/
def name : Severity → String
  | emergency => "EMERGENCY"
  | alert => "ALERT"
  | critical => "CRITICAL"
  | error => "ERROR"
  | warning => "WARNING"
  | notice => "NOTICE"
  | info => "INFO"
  | debug => "DEBUG"

/-- The severities by level. -/
def all : List Severity := [emergency, alert, critical, error, warning, notice, info, debug]

/-- The level. -/
def level (s : Severity) : Nat := all.idxOf s

/-- The severity of a level. -/
def ofLevel? (level : Nat) : Option Severity := all[level]?

/-- The severity of a name. -/
def ofName? (text : String) : Option Severity := Text.keyword? name all text

theorem ofLevel?_level (s : Severity) : ofLevel? s.level = some s := by
  cases s <;> decide

end Severity

end WafRules
