/-!
# Positions

A position names a place in a configuration text: a line, a column, and the label of the text
if it has one.  Lines and columns start at one, and columns count characters, so a position
points at the character an editor shows.

## Main Definitions

* `Position`, `Positioned` — a place, and a value together with the place it was read at.
* `Position.start` — the first place of a text with a given label.
* `Position.next`, `Position.advance` — the place after one character, and after many.
-/

namespace WafRules

/-- A place in a configuration text. -/
structure Position where
  /-- The label of the text, or nothing for an anonymous text. -/
  file : Option String
  line : Nat
  column : Nat
  deriving DecidableEq, Repr, Inhabited

/-- A value with the place it was read at. -/
structure Positioned (α : Type) where
  node : α
  position : Position
  deriving DecidableEq, Repr

namespace Position

/-- The first place of a text.  An empty label makes the text anonymous. -/
def start (label : String) : Position where
  file := if label.isEmpty then none else some label
  line := 1
  column := 1

/-- The place after one character: a line feed ends its line, and every other character takes
one column. -/
def next (p : Position) (c : Char) : Position :=
  if c = '\n' then { p with line := p.line + 1, column := 1 }
  else { p with column := p.column + 1 }

/-- The place after a stretch of text. -/
def advance (p : Position) (cs : List Char) : Position := cs.foldl next p

@[simp]
theorem advance_nil (p : Position) : p.advance [] = p := rfl

@[simp]
theorem advance_cons (p : Position) (c : Char) (cs : List Char) :
    p.advance (c :: cs) = (p.next c).advance cs := rfl

theorem advance_append (p : Position) (cs ds : List Char) :
    p.advance (cs ++ ds) = (p.advance cs).advance ds := by
  simp [advance]

@[simp]
theorem next_file (p : Position) (c : Char) : (p.next c).file = p.file := by
  unfold next
  split <;> rfl

/-- Moving through a text never changes its label. -/
@[simp]
theorem advance_file (p : Position) (cs : List Char) : (p.advance cs).file = p.file := by
  induction cs generalizing p with
  | nil => rfl
  | cons c cs ih => simp [ih]

/-- The label of the text, empty for an anonymous one. -/
def fileName (p : Position) : String := p.file.getD ""

/-- The written form: `file:line:column`, or `line:column` in an anonymous text. -/
def render (p : Position) : String :=
  let place := toString p.line ++ ":" ++ toString p.column
  match p.file with
  | some file => file ++ ":" ++ place
  | none => place

end Position

end WafRules
