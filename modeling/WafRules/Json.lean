/-!
# JSON

Documents are written as JSON, compactly or with two spaces of indentation for each level.  The
fields of an object keep the order in which they are given.

## Main Definitions

* `Json` — JSON values.
* `Json.escape`, `Json.quote` — characters and texts inside double quotes.
* `Json.compact`, `Json.pretty` — the two written forms.
-/

namespace WafRules

/-- A JSON value.  Numbers are natural, which is all that a document needs. -/
inductive Json
  | null
  | bool (value : Bool)
  | number (value : Nat)
  | text (value : String)
  | list (items : List Json)
  | object (fields : List (String × Json))

namespace Json

/-- One character inside double quotes: the quote, the backslash and the controls are escaped,
and everything else stands for itself. -/
def escape (c : Char) : List Char :=
  if c = '\x22' then ['\\', '\x22']
  else if c = '\\' then ['\\', '\\']
  else if c = '\x08' then ['\\', 'b']
  else if c = '\x0c' then ['\\', 'f']
  else if c = '\n' then ['\\', 'n']
  else if c = '\r' then ['\\', 'r']
  else if c = '\t' then ['\\', 't']
  else if c.toNat < 0x20 then
    ['\\', 'u', '0', '0'] ++ [Nat.digitChar (c.toNat / 16), Nat.digitChar (c.toNat % 16)]
  else [c]

/-- A text in double quotes. -/
def quote (text : String) : String :=
  String.ofList ('\x22' :: text.toList.flatMap escape ++ ['\x22'])

mutual

/-- The written form without blanks. -/
def compact : Json → String
  | null => "null"
  | bool value => if value then "true" else "false"
  | number value => toString value
  | text value => quote value
  | list items => "[" ++ String.intercalate "," (compactItems items) ++ "]"
  | object fields => "\x7b" ++ String.intercalate "," (compactFields fields) ++ "\x7d"

/-- The items of a list, each without blanks. -/
def compactItems : List Json → List String
  | [] => []
  | item :: items => compact item :: compactItems items

/-- The fields of an object, each without blanks. -/
def compactFields : List (String × Json) → List String
  | [] => []
  | (key, value) :: fields => (quote key ++ ":" ++ compact value) :: compactFields fields

end

/-- The start of a line at a level of indentation. -/
def newline (level : Nat) : String := "\n" ++ String.ofList (List.replicate (2 * level) ' ')

/-- Parts on lines of their own, one level deeper than the brackets around them; nothing at all
between the brackets when there are no parts. -/
def block (level : Nat) (opening closing : String) (parts : List String) : String :=
  if parts.isEmpty then opening ++ closing
  else
    opening ++ newline (level + 1) ++ String.intercalate ("," ++ newline (level + 1)) parts ++
      newline level ++ closing

mutual

/-- The written form with every item and field on a line of its own, at a level of
indentation. -/
def prettyAt (level : Nat) : Json → String
  | null => "null"
  | bool value => if value then "true" else "false"
  | number value => toString value
  | text value => quote value
  | list items => block level "[" "]" (prettyItems level items)
  | object fields => block level "\x7b" "\x7d" (prettyFields level fields)

/-- The items of a list, one level deeper. -/
def prettyItems (level : Nat) : List Json → List String
  | [] => []
  | item :: items => prettyAt (level + 1) item :: prettyItems level items

/-- The fields of an object, one level deeper. -/
def prettyFields (level : Nat) : List (String × Json) → List String
  | [] => []
  | (key, value) :: fields =>
    (quote key ++ ": " ++ prettyAt (level + 1) value) :: prettyFields level fields

end

/-- The written form with every item and field on a line of its own. -/
def pretty (json : Json) : String := prettyAt 0 json

end Json

end WafRules
