import WafRules.Network.Address

/-!
# Networks

A network is an address together with the number of leading bits that its members share.  An
address alone denotes the network whose only member it is.  The bits after the shared ones are
kept as they are written; they play no part in membership.

## Main Definitions

* `Network` — an address and a number of leading bits that fits it.
* `Network.read?` — an address, read strictly, or an address, read leniently, a slash and a
  number of bits.
* `Network.render`, `Network.renderFull` — the written forms.
* `Network.contains` — membership.
-/

namespace WafRules

/-- The addresses that agree with a given one on a number of leading bits. -/
structure Network where
  address : Address
  length : Nat
  length_le : length ≤ address.width
  deriving DecidableEq, Repr

namespace Network

/-- The network of a single address. -/
def host (address : Address) : Network := ⟨address, address.width, Nat.le_refl _⟩

/-- The most digits that the number of leading bits may be written with. -/
def lengthDigits : Address → Nat
  | .v4 _ => 2
  | .v6 _ => 3

/-- The network with the number of leading bits that the digits denote. -/
def withLength? (address : Address) (digits : List Char) : Option Network := do
  let length ← Text.Decimal.read? digits
  if digits.length ≤ lengthDigits address then
    if fits : length ≤ address.width then return ⟨address, length, fits⟩ else none
  else none

/-- The network a text denotes. -/
def read? (cs : List Char) : Option Network :=
  match Text.cutAt? '/' cs with
  | none => (Address.read? .strict cs).map host
  | some (address, digits) => do withLength? (← Address.read? .lenient address) digits

/-- Whether the network has a single member. -/
def isHost (n : Network) : Bool := n.length == n.address.width

/-- The address, a slash and the number of leading bits. -/
def renderFull (n : Network) : String := n.address.render ++ "/" ++ toString n.length

/-- The written form, in which a single address stands for its network. -/
def render (n : Network) : String := if n.isHost then n.address.render else n.renderFull

/-- The leading bits of an address that count for membership. -/
def leadingBits (n : Network) (a : Address) : Nat := a.toNat >>> (a.width - n.length)

/-- Whether an address belongs to the network. -/
def contains (n : Network) (a : Address) : Bool :=
  a.width == n.address.width && n.leadingBits a == n.leadingBits n.address

/-- A network contains the address it is written with. -/
theorem contains_address (n : Network) : n.contains n.address = true := by
  simp [contains]

end Network

end WafRules
