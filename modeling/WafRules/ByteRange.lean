import WafRules.Text.Blank
import WafRules.Text.Decimal
import WafRules.Text.Fields

/-!
# Byte ranges

A range of byte values: one number, or two with a minus sign between them.  Spaces around the
numbers are dropped.
-/

namespace WafRules

/-- The byte values from `first` to `last`. -/
structure ByteRange where
  first : Nat
  last : Nat
  deriving DecidableEq, Repr

namespace ByteRange

/-- A byte value with spaces around it. -/
def readByte? (cs : List Char) : Option Nat :=
  Text.Decimal.atMost? 255 (Text.Decimal.readCount? (Text.trimList cs))

/-- The range a text denotes. -/
def read? (cs : List Char) : Option ByteRange := do
  let (first, last) := (Text.cutAt? '-' cs).getD (cs, cs)
  let first ← readByte? first
  let last ← readByte? last
  if first ≤ last then return ⟨first, last⟩ else none

/-- The written form; a single value is written once. -/
def render (r : ByteRange) : String :=
  if r.first = r.last then toString r.first else toString r.first ++ "-" ++ toString r.last

end ByteRange

end WafRules
