import WafRules.Text.Keyword

/-!
# Settings

The values of the directives that configure the engine: its mode, the mode of the audit log,
the parts that are logged, and switches.

## Main Definitions

* `RuleEngineMode`, `AuditEngineMode` — modes, named by keywords.
* `AuditLogPart` — parts of the audit log, named by letters.
* `switch?` — the value of a switch.
-/

namespace WafRules

/-- Whether rules are evaluated, and whether they may interrupt a transaction. -/
inductive RuleEngineMode
  | on | off | detectionOnly
  deriving DecidableEq, Repr

namespace RuleEngineMode

/-- The keyword. -/
def name : RuleEngineMode → String
  | on => "On"
  | off => "Off"
  | detectionOnly => "DetectionOnly"

/-- Every mode, once. -/
def all : List RuleEngineMode := [on, off, detectionOnly]

/-- The mode of a keyword. -/
def ofName? (text : String) : Option RuleEngineMode := Text.keyword? name all text

end RuleEngineMode

/-- Which transactions are logged. -/
inductive AuditEngineMode
  | on | off | relevantOnly
  deriving DecidableEq, Repr

namespace AuditEngineMode

/-- The keyword. -/
def name : AuditEngineMode → String
  | on => "On"
  | off => "Off"
  | relevantOnly => "RelevantOnly"

/-- Every mode, once. -/
def all : List AuditEngineMode := [on, off, relevantOnly]

/-- The mode of a keyword. -/
def ofName? (text : String) : Option AuditEngineMode := Text.keyword? name all text

end AuditEngineMode

/-- A part of the audit log. -/
inductive AuditLogPart
  | header | requestHeaders | requestBody | intendedResponseHeaders
  | intermediaryResponseBody | responseHeaders | actualResponseBody | trailer
  | reducedMultipartRequestBody | multipartFilesInformation | matchedRules | endMarker
  deriving DecidableEq, Repr

namespace AuditLogPart

/-- The letter that selects the part. -/
def letter : AuditLogPart → Char
  | header => 'A'
  | requestHeaders => 'B'
  | requestBody => 'C'
  | intendedResponseHeaders => 'D'
  | intermediaryResponseBody => 'E'
  | responseHeaders => 'F'
  | actualResponseBody => 'G'
  | trailer => 'H'
  | reducedMultipartRequestBody => 'I'
  | multipartFilesInformation => 'J'
  | matchedRules => 'K'
  | endMarker => 'Z'

/-- The name in a dump. -/
def name : AuditLogPart → String
  | header => "Header"
  | requestHeaders => "RequestHeaders"
  | requestBody => "RequestBody"
  | intendedResponseHeaders => "IntendedResponseHeaders"
  | intermediaryResponseBody => "IntermediaryResponseBody"
  | responseHeaders => "ResponseHeaders"
  | actualResponseBody => "ActualResponseBody"
  | trailer => "Trailer"
  | reducedMultipartRequestBody => "ReducedMultipartRequestBody"
  | multipartFilesInformation => "MultipartFilesInformation"
  | matchedRules => "MatchedRules"
  | endMarker => "EndMarker"

/-- Every part, once. -/
def all : List AuditLogPart :=
  [header, requestHeaders, requestBody, intendedResponseHeaders, intermediaryResponseBody,
    responseHeaders, actualResponseBody, trailer, reducedMultipartRequestBody,
    multipartFilesInformation, matchedRules, endMarker]

/-- The part that a letter of either case selects. -/
def ofLetter? (c : Char) : Option AuditLogPart := all.find? fun part => part.letter == c.toUpper

theorem ofLetter?_letter (part : AuditLogPart) : ofLetter? part.letter = some part := by
  cases part <;> decide

end AuditLogPart

/-- The value of a switch. -/
def switch? (text : String) : Option Bool :=
  Text.lookup? [("on", true), ("off", false)] text

end WafRules
