import WafRules.Text.CodePoint

/-!
# Blanks and spaces

Two classes of white space are in use.  *Blanks* separate the arguments of a directive on its
line; the line feed is not one, because it ends the line.  *Spaces* are the characters with
the Unicode property `White_Space`; they are dropped around the items of a comma list and
decide whether a text counts as empty.

## Main Definitions

* `isBlank`, `isSpace` — the two classes.
* `trim` — a text without the spaces at its ends.
-/

namespace WafRules.Text

/-- Whether the character separates arguments. -/
def isBlank (c : Char) : Bool :=
  c == ' ' || c == '\t' || c == '\x0b' || c == '\x0c' || c == '\r' || c == '\u0085' ||
    c == '\u00a0'

/-- The code points with the property `White_Space`. -/
def spaceRanges : CodeRanges :=
  [(0x9, 0xd), (0x20, 0x20), (0x85, 0x85), (0xa0, 0xa0), (0x1680, 0x1680), (0x2000, 0x200a),
    (0x2028, 0x2029), (0x202f, 0x202f), (0x205f, 0x205f), (0x3000, 0x3000)]

/-- Whether the character has the property `White_Space`. -/
def isSpace (c : Char) : Bool := spaceRanges.has c

/-- Every blank is a space; the line feed is a space and no blank. -/
theorem isSpace_of_isBlank (c : Char) (blank : isBlank c = true) : isSpace c = true := by
  simp only [isBlank, Bool.or_eq_true, beq_iff_eq] at blank
  rcases blank with (((((rfl | rfl) | rfl) | rfl) | rfl) | rfl) | rfl <;> decide

/-- The characters without the spaces at either end. -/
def trimList (cs : List Char) : List Char :=
  (((cs.dropWhile isSpace).reverse).dropWhile isSpace).reverse

/-- The text without the spaces at either end. -/
def trim (text : String) : String := String.ofList (trimList text.toList)

end WafRules.Text
