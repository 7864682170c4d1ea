import WafRules.ByteRange
import WafRules.Expandable
import WafRules.Network
import WafRules.Position

/-!
# Operators

The operator of a rule says what to look for in the inspected values.  Operators are grouped
by the shape of their argument: a pattern, an expandable string, words, networks, a text, byte
ranges, or nothing.

## Main Definitions

* `Comparison`, `Detector` — the operators with an expandable argument, and with none.
* `Operator.Kind` — an operator with its argument.
* `Operator` — a kind, possibly negated, at a place.
* `Operator.render` — the written form.
-/

namespace WafRules

/-- The operators that compare with an expandable string. -/
inductive Comparison
  | beginsWith | contains | containsWord | endsWith | streq | within | eq | ge | gt | le | lt
  deriving DecidableEq, Repr

namespace Comparison

/-- The name after the at sign. -/
def name : Comparison → String
  | beginsWith => "beginsWith"
  | contains => "contains"
  | containsWord => "containsWord"
  | endsWith => "endsWith"
  | streq => "streq"
  | within => "within"
  | eq => "eq"
  | ge => "ge"
  | gt => "gt"
  | le => "le"
  | lt => "lt"

/-- Every comparison, once. -/
def all : List Comparison :=
  [beginsWith, contains, containsWord, endsWith, streq, within, eq, ge, gt, le, lt]

end Comparison

/-- The operators without an argument. -/
inductive Detector
  | geoLookup | urlEncoding | utf8Encoding | sqlInjection | scriptInjection | always | never
  deriving DecidableEq, Repr

namespace Detector

/-- The name after the at sign. -/
def name : Detector → String
  | geoLookup => "geoLookup"
  | urlEncoding => "validateUrlEncoding"
  | utf8Encoding => "validateUtf8Encoding"
  | sqlInjection => "detectSQLi"
  | scriptInjection => "detectXSS"
  | always => "unconditionalMatch"
  | never => "noMatch"

/-- Every detector, once. -/
def all : List Detector :=
  [geoLookup, urlEncoding, utf8Encoding, sqlInjection, scriptInjection, always, never]

end Detector

namespace Operator

/-- An operator with its argument. -/
inductive Kind
  /-- A regular expression, kept as it is written and never compiled. -/
  | regex (pattern : String)
  | compare (how : Comparison) (argument : ExpandableString)
  /-- Words to search for. -/
  | phrases (words : List String)
  /-- Files of words to search for. -/
  | phraseFiles (files : List String)
  | addresses (networks : List Network)
  | addressFile (file : String)
  /-- A block list that is asked over the network. -/
  | blockList (host : String)
  | byteRanges (ranges : List ByteRange)
  | detect (what : Detector)
  deriving DecidableEq, Repr

namespace Kind

/-- The canonical name after the at sign. -/
def name : Kind → String
  | regex _ => "rx"
  | compare how _ => how.name
  | phrases _ => "pm"
  | phraseFiles _ => "pmFromFile"
  | addresses _ => "ipMatch"
  | addressFile _ => "ipMatchFromFile"
  | blockList _ => "rbl"
  | byteRanges _ => "validateByteRange"
  | detect what => what.name

/-- The expandable argument, for the operators that have one. -/
def argument : Kind → Option ExpandableString
  | compare _ argument => some argument
  | _ => none

/-- The written argument, with a space before it. -/
def renderArgument : Kind → String
  | regex text | addressFile text | blockList text => " " ++ text
  | compare _ argument => " " ++ argument.render
  | phrases words | phraseFiles words => " " ++ String.intercalate " " words
  | addresses networks => " " ++ String.intercalate "," (networks.map Network.render)
  | byteRanges ranges => " " ++ String.intercalate "," (ranges.map ByteRange.render)
  | detect _ => ""

end Kind

end Operator

/-- What a rule looks for. -/
structure Operator where
  kind : Operator.Kind
  /-- Whether the rule matches when the operator does not. -/
  negated : Bool
  position : Position
  deriving DecidableEq, Repr

namespace Operator

/-- The written form: an exclamation mark if negated, the name, and the argument. -/
def render (o : Operator) : String :=
  (if o.negated then "!" else "") ++ "@" ++ o.kind.name ++ o.kind.renderArgument

end Operator

end WafRules
