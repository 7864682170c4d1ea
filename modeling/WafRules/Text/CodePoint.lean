/-!
# Sets of code points

The character classes of the configuration language are sets of code points.  A large set is
written as a list of closed ranges in increasing order, and membership is a scan of that list.
-/

namespace WafRules.Text

/-- A set of code points as closed ranges, in increasing order. -/
abbrev CodeRanges := List (Nat × Nat)

/-- Whether the code point of a character lies in one of the ranges. -/
def CodeRanges.has (ranges : CodeRanges) (c : Char) : Bool :=
  ranges.any fun range => range.1 ≤ c.toNat && c.toNat ≤ range.2

theorem CodeRanges.has_iff (ranges : CodeRanges) (c : Char) :
    ranges.has c = true ↔ ∃ range ∈ ranges, range.1 ≤ c.toNat ∧ c.toNat ≤ range.2 := by
  simp [CodeRanges.has]

end WafRules.Text
