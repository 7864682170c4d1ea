/-!
# Expandable strings

The text of an action or an operator may refer to values that are known only while a request
is processed: `%` and a name in braces, with or without a collection before it.  An expandable
string is such a text cut into literal parts and references, which are kept in order and never
resolved.

## Main Definitions

* `MacroRef` — a reference to a variable or to a member of a collection.
* `ExpandableString` — literal parts and references in order.
* `ExpandableString.pushLiteral`, `ExpandableString.pushMacro` — the string with more text, in
  which literal text is never empty and never split.
-/

namespace WafRules

/-- A reference to a value that is known at run time. -/
structure MacroRef where
  /-- The collection, for a reference to one of its members. -/
  collection : Option String
  name : String
  deriving DecidableEq, Repr

/-- The written form of a reference. -/
def MacroRef.render (m : MacroRef) : String :=
  match m.collection with
  | some collection => "%\x7b" ++ collection ++ "." ++ m.name ++ "\x7d"
  | none => "%\x7b" ++ m.name ++ "\x7d"

/-- A piece of an expandable string. -/
inductive StringPart
  | literal (text : String)
  | reference (m : MacroRef)
  deriving DecidableEq, Repr

/-- The written form of a piece. -/
def StringPart.render : StringPart → String
  | literal text => text
  | reference m => m.render

/-- The reference of a piece that is one. -/
def StringPart.macro? : StringPart → Option MacroRef
  | literal _ => none
  | reference m => some m

/-- A text with references. -/
structure ExpandableString where
  parts : List StringPart
  deriving DecidableEq, Repr

namespace ExpandableString

/-- The empty string. -/
def empty : ExpandableString := ⟨[]⟩

/-- Parts with literal text at their end, joined to the last part if that is literal too. -/
def appendText (text : String) : List StringPart → List StringPart
  | [] => [.literal text]
  | [.literal last] => [.literal (last ++ text)]
  | part :: parts => part :: appendText text parts

/-- The string with literal text at its end. -/
def pushLiteral (s : ExpandableString) (text : String) : ExpandableString :=
  if text.isEmpty then s else ⟨appendText text s.parts⟩

/-- The string with a reference at its end. -/
def pushMacro (s : ExpandableString) (m : MacroRef) : ExpandableString :=
  ⟨s.parts ++ [.reference m]⟩

/-- The string with a piece at its end. -/
def push (s : ExpandableString) : StringPart → ExpandableString
  | .literal text => s.pushLiteral text
  | .reference m => s.pushMacro m

/-- The string without references that has the given text. -/
def ofText (text : String) : ExpandableString := empty.pushLiteral text

/-- Whether the string has no parts. -/
def isEmpty (s : ExpandableString) : Bool := s.parts.isEmpty

/-- The references in order. -/
def macros (s : ExpandableString) : List MacroRef := s.parts.filterMap StringPart.macro?

/-- Whether the string refers to anything. -/
def hasMacros (s : ExpandableString) : Bool := !s.macros.isEmpty

/-- The text of a string that consists of at most one literal part. -/
def asLiteral (s : ExpandableString) : Option String :=
  match s.parts with
  | [] => some ""
  | [.literal text] => some text
  | _ => none

/-- The written form: the parts one after the other. -/
def render (s : ExpandableString) : String :=
  String.ofList (s.parts.flatMap fun part => part.render.toList)

end ExpandableString

end WafRules
