/-!
# Decimal numerals

Numbers are written with ASCII digits.  `value` reads a run of digits of any length;
`read?` refuses what is no such run, and `readCount?` also allows one leading plus sign,
which the bounds of id ranges and byte ranges may carry.
-/

namespace WafRules.Text.Decimal

/-- The number a list of digits denotes. -/
def value (digits : List Char) : Nat :=
  digits.foldl (fun total c => 10 * total + (c.toNat - '0'.toNat)) 0

/-- Whether the characters form a numeral: digits only, and at least one. -/
def isNumeral (cs : List Char) : Bool := !cs.isEmpty && cs.all Char.isDigit

/-- The number written by a run of digits. -/
def read? (cs : List Char) : Option Nat :=
  if isNumeral cs then some (value cs) else none

/-- The number written by a run of digits with or without a plus sign before it. -/
def readCount? (cs : List Char) : Option Nat :=
  match cs with
  | '+' :: digits => read? digits
  | digits => read? digits

/-- A number that is at most the bound. -/
def atMost? (bound : Nat) (n : Option Nat) : Option Nat :=
  n.filter (· ≤ bound)

end WafRules.Text.Decimal
