import WafRules.Text.Decimal
import WafRules.Text.Fields
import WafRules.Text.Hexadecimal

/-!
# Internet addresses

Addresses of both families with their text forms.  Four octets are written in decimal with
dots between them.  Eight groups are written in hexadecimal with colons between them; one run
of zero groups may be left out, which two colons show, and the last two groups may be written
as four octets.

Reading is strict for an address on its own: no octet has leading zeros, and two colons leave
out at least one group.  It is lenient for the address of a network: octets may be padded with
zeros to three digits, and two colons may stand between eight groups that are all written.

The written form leaves out the longest run of at least two zero groups, the first one if
there are several, and shows the octets only for the addresses that stand for one of four
octets.

## Main Definitions

* `Address` — four octets or eight groups.
* `Address.Reading` — how strictly a text is read.
* `Address.read?`, `Address.render` — the text forms.
* `Address.toNat`, `Address.width` — the address as a number of that many bits.
-/

namespace WafRules

/-- An internet address. -/
inductive Address
  | v4 (octets : Vector UInt8 4)
  | v6 (groups : Vector UInt16 8)
  deriving DecidableEq, Repr

namespace Address

/-- The number of bits. -/
def width : Address → Nat
  | v4 _ => 32
  | v6 _ => 128

/-- The address as a number, the first octet or group being the most significant. -/
def toNat : Address → Nat
  | v4 octets => octets.toList.foldl (fun total octet => 256 * total + octet.toNat) 0
  | v6 groups => groups.toList.foldl (fun total group => 65536 * total + group.toNat) 0

/-! ### Reading -/

/-- How strictly the text of an address is read. -/
inductive Reading
  /-- As an address on its own. -/
  | strict
  /-- As the address of a network. -/
  | lenient
  deriving DecidableEq, Repr

namespace Reading

/-- Whether the digits of an octet may be written as they are.  A strict reading allows no
zero before another digit. -/
def allowsOctet : Reading → List Char → Bool
  | strict, digits => digits.head? ≠ some '0' || digits.length == 1
  | lenient, _ => true

/-- The fewest groups that two colons leave out. -/
def leastRun : Reading → Nat
  | strict => 1
  | lenient => 0

end Reading

/-- An octet: at most three digits, padded as the reading allows. -/
def readOctet? (reading : Reading) (cs : List Char) : Option UInt8 := do
  let n ← Text.Decimal.read? cs
  if cs.length ≤ 3 ∧ reading.allowsOctet cs ∧ n < 256 then return UInt8.ofNat n else none

/-- Four octets with dots between them. -/
def readOctets? (reading : Reading) (cs : List Char) : Option (Vector UInt8 4) := do
  let octets ← (Text.fields '.' cs).mapM (readOctet? reading)
  if four : octets.length = 4 then return ⟨octets.toArray, by simpa using four⟩ else none

/-- A group: one to four hexadecimal digits. -/
def readGroup? (cs : List Char) : Option UInt16 := do
  let n ← Text.Hexadecimal.readOnto? 0 cs
  if 1 ≤ cs.length ∧ cs.length ≤ 4 then return UInt16.ofNat n else none

/-- Four octets as the two groups they occupy. -/
def groupsOfOctets (octets : Vector UInt8 4) : List UInt16 :=
  let pair (high low : UInt8) : UInt16 := UInt16.ofNat (256 * high.toNat + low.toNat)
  [pair octets[0] octets[1], pair octets[2] octets[3]]

/-- The groups of the fields between colons.  Octets may stand in the last field only, and
only where the groups end the address. -/
def readFields? (reading : Reading) (final : Bool) : List (List Char) → Option (List UInt16)
  | [] => some []
  | [field] =>
    match readGroup? field with
    | some group => some [group]
    | none => if final then (readOctets? reading field).map groupsOfOctets else none
  | field :: rest => do return (← readGroup? field) :: (← readFields? reading final rest)

/-- The groups of a text, which may be empty. -/
def readGroups? (reading : Reading) (final : Bool) (cs : List Char) : Option (List UInt16) :=
  if cs.isEmpty then some [] else readFields? reading final (Text.fields ':' cs)

/-- Groups around a run of zero groups that brings their number to eight. -/
def expand (head tail : List UInt16) : List UInt16 :=
  head ++ List.replicate (8 - head.length - tail.length) 0 ++ tail

/-- All groups, or those around two colons.  Eight groups complete an address, so that at most
seven stand before the colons. -/
def readSixteenBit? (reading : Reading) (cs : List Char) : Option (List UInt16) :=
  match Text.cutAtDouble? ':' cs with
  | none => readGroups? reading true cs
  | some (before, after) => do
    let head ← readGroups? reading false before
    let tail ← readGroups? reading true after
    if head.length ≤ 7 ∧ head.length + tail.length + reading.leastRun ≤ 8 then
      return expand head tail
    else none

/-- The address a text denotes. -/
def read? (reading : Reading) (cs : List Char) : Option Address :=
  match readOctets? reading cs with
  | some octets => some (v4 octets)
  | none => do
    let groups ← readSixteenBit? reading cs
    if eight : groups.length = 8 then return v6 ⟨groups.toArray, by simpa using eight⟩
    else none

/-! ### Writing -/

/-- Octets in decimal with dots between them. -/
def renderOctets (octets : List UInt8) : String :=
  String.intercalate "." (octets.map fun octet => toString octet.toNat)

/-- Groups in hexadecimal with colons between them. -/
def renderGroups (groups : List UInt16) : String :=
  String.intercalate ":"
    (groups.map fun group => String.ofList (Text.Hexadecimal.digits group.toNat))

/-- The number of zero groups from an index on. -/
def zerosFrom (groups : List UInt16) (start : Nat) : Nat :=
  ((groups.drop start).takeWhile (· == 0)).length

/-- Where the first longest run of zero groups starts, and its length. -/
def longestZeros (groups : List UInt16) : Nat × Nat :=
  (List.range groups.length).foldl
    (fun best start =>
      if best.2 < zerosFrom groups start then (start, zerosFrom groups start) else best)
    (0, 0)

/-- The octets of a group. -/
def octetsOfGroup (group : UInt16) : List UInt8 :=
  [UInt8.ofNat (group.toNat / 256), UInt8.ofNat (group.toNat % 256)]

/-- The written form of eight groups. -/
def renderSixteenBit (groups : List UInt16) : String :=
  match groups with
  | [0, 0, 0, 0, 0, 0xffff, high, low] =>
    "::ffff:" ++ renderOctets (octetsOfGroup high ++ octetsOfGroup low)
  | _ =>
    let (start, length) := longestZeros groups
    if 1 < length then
      renderGroups (groups.take start) ++ "::" ++ renderGroups (groups.drop (start + length))
    else renderGroups groups

/-- The written form. -/
def render : Address → String
  | v4 octets => renderOctets octets.toList
  | v6 groups => renderSixteenBit groups.toList

end Address

end WafRules
