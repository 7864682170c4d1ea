import WafRules.Text.Hexadecimal
import WafRules.Text.Printable

/-!
# Quoted text in diagnostics

A diagnostic quotes the text it complains about so that every character is visible.  Line
ends, tabs, the zero character and the backslash have short escapes, the enclosing quote is
escaped, and any character that leaves no mark of its own is written as its code point in
lower-case hexadecimal.

## Main Definitions

* `escape` — one character inside a given pair of quotes.
* `quoteText`, `quoteChar` — a text in double quotes, one character in single quotes.
-/

namespace WafRules.Text

/-- The code point of a character as `\u` and its hexadecimal digits in braces. -/
def codePointEscape (c : Char) : List Char :=
  ['\\', 'u', '\x7b'] ++ Hexadecimal.digits c.toNat ++ ['\x7d']

/-- One character as it is written between two `quote` characters. -/
def escape (quote c : Char) : List Char :=
  if c = '\x00' then ['\\', '0']
  else if c = '\t' then ['\\', 't']
  else if c = '\r' then ['\\', 'r']
  else if c = '\n' then ['\\', 'n']
  else if c = '\\' ∨ c = quote then ['\\', c]
  else if isPrintable c then [c]
  else codePointEscape c

/-- A text between two quote characters. -/
def quoteWith (quote : Char) (cs : List Char) : String :=
  String.ofList (quote :: cs.flatMap (escape quote) ++ [quote])

/-- A text in double quotes. -/
def quoteText (text : String) : String := quoteWith '\x22' text.toList

/-- One character in single quotes. -/
def quoteChar (c : Char) : String := quoteWith '\x27' [c]

end WafRules.Text
