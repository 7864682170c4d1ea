import WafRules.Token.Lexer

/-!
# Errors

A configuration is refused for one of three reasons: its text has no token stream, its tokens
do not form directives, or it could not be read from storage.  The first two carry a cause and
a position; the wording of every cause is given here and nowhere else.

## Main Definitions

* `Expected` — what a reader of tokens was looking for.
* `SyntaxCause`, `SyntaxError` — why and where tokens do not form directives.
* `StorageError` — why a file or directory could not be read.
* `ParseError` — any of the three, with `message`, `position?` and `render`.
-/

namespace WafRules

/-- What a reader of tokens was looking for. -/
inductive Expected
  | item
  | directive
  | argumentEnd
  | variableName
  | variableSeparator
  | collectionKey
  | quotedRegex
  | operatorName
  /-- Blanks after the name of an operator. -/
  | blanksAfter (operator : String)
  | actionName
  | actionSeparator
  | transformName
  | setVarOperand
  | expirySeconds
  | collectionName
  /-- The variable of a collection. -/
  | memberName
  | ctlOption
  | ctlValue
  | ctlTarget
  | bodyProcessor
  | tag
  | macroName
  | macroEnd
  | ruleEngineMode
  | auditEngineMode
  | auditLogParts
  /-- The value of an on/off switch. -/
  | switchValue (name : String)
  /-- Nothing after a complete value. -/
  | endOf (what : Expected)
  deriving DecidableEq, Repr

/-- The words for what was expected. -/
def Expected.describe : Expected → String
  | item => "comment or directive"
  | directive => "directive"
  | argumentEnd => "end of argument"
  | variableName => "variable name"
  | variableSeparator => "'|' between variables"
  | collectionKey => "collection key"
  | quotedRegex => "quoted regular expression"
  | operatorName => "operator name"
  | blanksAfter operator => "whitespace after @" ++ operator
  | actionName => "action name"
  | actionSeparator => "',' between actions"
  | transformName => "transformation name"
  | setVarOperand => "setvar operand"
  | expirySeconds => "expiry in seconds"
  | collectionName => "collection name"
  | memberName => "variable name"
  | ctlOption => "ctl option"
  | ctlValue => "'=' after ctl option"
  | ctlTarget => "ctl target"
  | bodyProcessor => "request body processor"
  | tag => "tag"
  | macroName => "macro variable name"
  | macroEnd => "'\x7d' to close macro"
  | ruleEngineMode => "rule engine mode"
  | auditEngineMode => "audit engine mode"
  | auditLogParts => "audit log parts"
  | switchValue name => name ++ " value"
  | endOf what => "end of " ++ what.describe

/-- The items an operator may take as a comma list. -/
inductive ListItem
  | address
  | byteRange
  deriving DecidableEq, Repr

/-- The words for an item of a comma list. -/
def ListItem.describe : ListItem → String
  | address => "IP address or network"
  | byteRange => "byte range"

/-- A directive whose argument is free text. -/
inductive FreeText
  | markerName
  | componentSignature
  deriving DecidableEq, Repr

/-- The words for a free text. -/
def FreeText.describe : FreeText → String
  | markerName => "marker name"
  | componentSignature => "component signature"

/-- An action that names a variable of a collection. -/
inductive VariableAction
  | setVar
  | expireVar
  deriving DecidableEq, Repr

/-- The keyword of the action. -/
def VariableAction.keyword : VariableAction → String
  | setVar => "setvar"
  | expireVar => "expirevar"

/-- Why tokens do not form directives. -/
inductive SyntaxCause
  | expected (what : Expected) (found : Lexeme)
  -- directives
  | unknownDirective (name : String)
  /-- A directive that takes between `least` and `most` arguments has another number. -/
  | argumentCount (keyword : String) (least most found : Nat)
  | missingText (what : FreeText)
  | invalidValue (what : Expected) (found : String)
  | invalidAuditLogPart (found : Char)
  -- variables
  | notACollection (name : String)
  | twoModifiers
  | unclosedSelectorQuote
  | unclosedRegex
  | emptyRegex
  -- macros
  | unclosedMacro
  | emptyMacroKey (collection : String)
  | invalidMacroKey (found : Lexeme)
  -- operators
  | unknownOperator (name : String)
  | operatorNeedsArgument (name : String)
  | operatorTakesNothing (name : String)
  | invalidListItem (operator : String) (what : ListItem) (found : String)
  -- actions
  | unclosedValueQuote
  | unknownAction (name : String)
  | actionTakesNothing (name : String)
  | actionNeedsValue (name : String)
  | notANumeral (action found : String)
  | outOfRange (action : String) (least most : Nat) (found : String)
  | invalidSeverity (level : Nat)
  | unknownTransform (name : String)
  | missingMember (action : VariableAction)
  | deletedWithValue
  | missingExpiry
  | missingInitKey
  -- ctl
  | unknownCtlOption (name : String)
  | unknownBodyProcessor (name : String)
  | invalidIdRange (found : String)
  | missingTarget
  deriving DecidableEq, Repr

/-- The number of arguments a directive takes, in words. -/
def describeArity (least most : Nat) : String :=
  if least = most then toString least ++ " argument"
  else toString least ++ " or " ++ toString most ++ " arguments"

/-- The cause in words. -/
def SyntaxCause.message : SyntaxCause → String
  | expected what found => "expected " ++ what.describe ++ ", found " ++ found.describe
  | unknownDirective name => "unknown directive " ++ Text.quoteText name
  | argumentCount keyword least most found =>
    keyword ++ " expects " ++ describeArity least most ++ ", found " ++ toString found
  | missingText what => "expected " ++ what.describe
  | invalidValue what found => "invalid " ++ what.describe ++ " " ++ Text.quoteText found
  | invalidAuditLogPart c => "invalid audit log part " ++ Text.quoteChar c
  | notACollection name => name ++ " is not a collection and takes no selector"
  | twoModifiers => "a variable takes at most one of '!' and '&'"
  | unclosedSelectorQuote => "missing closing quote in collection selector"
  | unclosedRegex => "missing closing '/' in regular expression selector"
  | emptyRegex => "empty regular expression selector"
  | unclosedMacro => "missing '\x7d' to close macro"
  | emptyMacroKey collection => "macro %\x7b" ++ collection ++ ".\x7d has an empty key"
  | invalidMacroKey found => "unexpected " ++ found.describe ++ " in macro key"
  | unknownOperator name => "unknown operator @" ++ name
  | operatorNeedsArgument name => "@" ++ name ++ " requires an argument"
  | operatorTakesNothing name => "@" ++ name ++ " takes no argument"
  | invalidListItem operator what found =>
    "@" ++ operator ++ ": invalid " ++ what.describe ++ " " ++ Text.quoteText found
  | unclosedValueQuote => "missing closing quote in action value"
  | unknownAction name => "unknown action " ++ Text.quoteText name
  | actionTakesNothing name => name ++ " takes no value"
  | actionNeedsValue name => name ++ " requires a value"
  | notANumeral action found => action ++ " requires a numeral, found " ++ Text.quoteText found
  | outOfRange action least most found =>
    action ++ " must be between " ++ toString least ++ " and " ++ toString most ++
      ", found " ++ found
  | invalidSeverity level => "invalid severity " ++ toString level
  | unknownTransform name => "unknown transformation " ++ Text.quoteText name
  | missingMember action => action.keyword ++ " requires collection.variable"
  | deletedWithValue => "setvar: a deleted variable takes no value"
  | missingExpiry => "expirevar requires collection.variable=seconds"
  | missingInitKey => "initcol requires collection=key"
  | unknownCtlOption name => "unknown ctl option " ++ Text.quoteText name
  | unknownBodyProcessor name => "unknown request body processor " ++ Text.quoteText name
  | invalidIdRange found => "invalid rule id or id range " ++ Text.quoteText found
  | missingTarget => "expected ';' followed by the target to remove"

/-- A cause with the place it is reported at. -/
structure SyntaxError where
  cause : SyntaxCause
  position : Position
  deriving DecidableEq, Repr

/-- Why a file or directory could not be read. -/
inductive StorageError
  | notFound
  | notADirectory
  | isADirectory
  /-- The bytes of a file are not UTF-8. -/
  | notText
  /-- A path holds the character that ends paths. -/
  | nulInPath
  /-- A path, or a name in it, has too many bytes. -/
  | nameTooLong
  /-- Any other refusal, in the words of the operating system. -/
  | refused (reason : String)
  deriving DecidableEq, Repr

/-- The refusal in words. -/
def StorageError.message : StorageError → String
  | notFound => "No such file or directory (os error 2)"
  | notADirectory => "Not a directory (os error 20)"
  | isADirectory => "Is a directory (os error 21)"
  | notText => "stream did not contain valid UTF-8"
  | nulInPath => "file name contained an unexpected NUL byte"
  | nameTooLong => "File name too long (os error 36)"
  | refused reason => reason

/-- Why a configuration is refused. -/
inductive ParseError
  | lexical (error : LexError)
  | structural (error : SyntaxError)
  | storage (error : StorageError)
  deriving DecidableEq, Repr

namespace ParseError

/-- The error in words, without its position. -/
def message : ParseError → String
  | lexical error => error.cause.message
  | structural error => error.cause.message
  | storage error => error.message

/-- The place of the error, if it has one. -/
def position? : ParseError → Option Position
  | lexical error => some error.position
  | structural error => some error.position
  | storage _ => none

/-- The written form, with the position in front. -/
def render : ParseError → String
  | lexical error => error.position.render ++ ": lex error: " ++ error.cause.message
  | structural error => error.position.render ++ ": syntax error: " ++ error.cause.message
  | storage error => "IO error: " ++ error.message

end ParseError

end WafRules
