import WafRules.Position

/-!
# Line index

A line index turns byte offsets into positions.  It knows where every line of its text starts,
and it remembers the place it answered last, so that a later offset on the same line is counted
from there and not from the start of the line.

The memory is visible in one case: an offset that falls inside the bytes of a character.  Such
an offset counts bytes, and the lookups after it continue from the column it was given.

The lexer carries its place along and asks no index.  What it reports is what an index of its text
answers when it is asked for the same tokens (`LineIndex.lookupAll_scan`).

## Main Definitions

* `LineIndex.ofText` — the index of a text.
* `LineIndex.lookup` — the position of an offset, and the index that remembers it.
* `LineIndex.lookupAll` — a sequence of lookups on one index.
-/

namespace WafRules

/-- The offsets, in UTF-8 bytes, at which the characters of a text start, when the first of
them starts at `offset`; the end of the text closes the list. -/
def charStarts (offset : Nat) : List Char → List Nat
  | [] => [offset]
  | c :: cs => offset :: charStarts (offset + c.utf8Size) cs

/-- The offsets, in UTF-8 bytes, just after each line feed. -/
def lineFeedEnds (offset : Nat) : List Char → List Nat
  | [] => []
  | c :: cs =>
    let after := offset + c.utf8Size
    if c = '\n' then after :: lineFeedEnds after cs else lineFeedEnds after cs

/-- A place a line index has answered: zero-based line, byte offset and zero-based column. -/
structure Landmark where
  line : Nat
  offset : Nat
  column : Nat
  deriving DecidableEq, Repr

/-- The lines of a text, for lookups by byte offset. -/
structure LineIndex where
  file : Option String
  /-- Where the characters of the text start, and where it ends. -/
  boundaries : List Nat
  /-- Where the lines of the text start. -/
  lineStarts : List Nat
  /-- The length of the text in bytes. -/
  size : Nat
  /-- The last answer. -/
  last : Landmark
  deriving DecidableEq, Repr

namespace LineIndex

/-- The index of a text, before any lookup. -/
def ofText (file : Option String) (text : String) : LineIndex where
  file := file
  boundaries := charStarts 0 text.toList
  lineStarts := 0 :: lineFeedEnds 0 text.toList
  size := text.utf8ByteSize
  last := ⟨0, 0, 0⟩

/-- The number of lines; a text that ends with a line feed has an empty last line. -/
def lineCount (index : LineIndex) : Nat := index.lineStarts.length

/-- The zero-based line that holds an offset. -/
def lineOf (index : LineIndex) (offset : Nat) : Nat :=
  index.lineStarts.countP (· ≤ offset) - 1

/-- The number of characters between two offsets, or of bytes when one of the offsets lies
inside a character. -/
def charsBetween (index : LineIndex) (first last : Nat) : Nat :=
  if first ∈ index.boundaries ∧ last ∈ index.boundaries then
    index.boundaries.countP fun b => first ≤ b && b < last
  else last - first

/-- The landmark to count from: the last answer if it lies before the offset on the same line,
and the start of the line otherwise. -/
def landmarkBefore (index : LineIndex) (line offset : Nat) : Landmark :=
  if index.last.line = line ∧ index.last.offset ≤ offset then index.last
  else ⟨line, index.lineStarts.getD line 0, 0⟩

/-- The place of an offset, zero-based.  Offsets past the end count as the end. -/
def locate (index : LineIndex) (offset : Nat) : Landmark :=
  let offset := min offset index.size
  let line := index.lineOf offset
  let before := index.landmarkBefore line offset
  ⟨line, offset, before.column + index.charsBetween before.offset offset⟩

/-- The position of an offset, and the index that remembers the answer. -/
def lookup (index : LineIndex) (offset : Nat) : Position × LineIndex :=
  let found := index.locate offset
  (⟨index.file, found.line + 1, found.column + 1⟩, { index with last := found })

/-- The positions of a sequence of offsets, looked up in turn on one index. -/
def lookupAll (index : LineIndex) : List Nat → List Position
  | [] => []
  | offset :: offsets =>
    let (position, index) := index.lookup offset
    position :: index.lookupAll offsets

end LineIndex

end WafRules
