/-!
# Hexadecimal numerals

Digits of both cases are read; lower-case ones are written.
-/

namespace WafRules.Text.Hexadecimal

/-- The number a digit denotes. -/
def digit? (c : Char) : Option Nat :=
  if c.isDigit then some (c.toNat - '0'.toNat)
  else if 'a' ≤ c ∧ c ≤ 'f' then some (c.toNat - 'a'.toNat + 10)
  else if 'A' ≤ c ∧ c ≤ 'F' then some (c.toNat - 'A'.toNat + 10)
  else none

/-- The number a list of digits denotes, after the number that the digits before it denote. -/
def readOnto? (total : Nat) : List Char → Option Nat
  | [] => some total
  | c :: cs => do readOnto? (16 * total + (← digit? c)) cs

/-- The digits of a number, in lower case. -/
def digits (n : Nat) : List Char := Nat.toDigits 16 n

end WafRules.Text.Hexadecimal
