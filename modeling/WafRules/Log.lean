/-!
# Log records

Reading a configuration leaves a log: one record for every directive that is added to a
document, and one for every document that is complete.
-/

namespace WafRules

/-- How detailed a record is. -/
inductive LogLevel
  | debug | trace
  deriving DecidableEq, Repr

/-- The name of a level. -/
def LogLevel.name : LogLevel → String
  | debug => "DEBUG"
  | trace => "TRACE"

/-- A message with its level. -/
structure LogRecord where
  level : LogLevel
  message : String
  deriving DecidableEq, Repr

/-- A result with the records made on the way to it. -/
structure Logged (α : Type) where
  value : α
  log : List LogRecord
  deriving DecidableEq, Repr

/-- The result without records. -/
def Logged.pure {α : Type} (value : α) : Logged α := ⟨value, []⟩

end WafRules
