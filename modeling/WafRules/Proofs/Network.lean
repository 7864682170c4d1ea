import Mathlib.Data.List.TakeWhile
import WafRules.Document.Dump
import WafRules.Proofs.Network.Texts

/-!
# Addresses and networks are read back

The written form of an address is one of the texts that write it, although it leaves out a run of
zero groups and shows the octets of some addresses of eight groups.  It is such a text for either
reading: no octet is written with a zero in front, and a run that is left out has at least two
groups.  So the reader gives back the address that was written, whichever way it reads, and the same
then holds of a network, whether or not it is written with the number of its leading bits.

## Main Definitions

* `Address.WrittenGroups` — how eight groups are written.

## Main Statements

* `Address.writtenGroups_render` — of the zero groups, the first of the longest runs is left out.
* `Address.isText_render` — the written form is a text of the address.
* `Address.read?_render` — an address is read back, in either reading.
* `Network.read?_render`, `Network.read?_renderFull` — a network is read back.
* `Network.renderFull_injective` — different networks are written differently.
* `Network.read_texts` — networks are read back, and nothing else is read.
-/

namespace WafRules

namespace Address

/-! ### Octets

Octets are written in decimal without zeros in front, which is a form that the strict reading
takes. -/

theorem octetText_toDigits (reading : Reading) (octet : UInt8) :
    OctetText reading octet (Nat.toDigits 10 octet.toNat) := by
  have isOctet : octet.toNat < 256 := octet.toNat_lt
  refine ⟨Text.Decimal.read?_eq_some_iff.mp (Text.Decimal.read?_toDigits _), ?_, fun _ => ?_⟩
  · exact (Nat.length_toDigits_le_iff (by decide) (by decide)).mpr (by omega)
  · have unpadded : ∀ n < 256, (Nat.toDigits 10 n).head? = some '0' →
        (Nat.toDigits 10 n).length = 1 := by
      decide +kernel
    exact unpadded _ isOctet

theorem toList_renderOctets (octets : List UInt8) :
    (renderOctets octets).toList =
      ['.'].intercalate (octets.map fun octet => Nat.toDigits 10 octet.toNat) := by
  rw [renderOctets, String.toList_intercalate, List.map_map]
  congr 1
  apply List.map_congr_left
  intro octet _
  exact Nat.toList_repr

/-- **Four octets** are written with dots between them. -/
theorem octetsText_renderOctets (reading : Reading) (octets : Vector UInt8 4) :
    OctetsText reading octets (renderOctets octets.toList).toList := by
  refine ⟨_, toList_renderOctets octets.toList, ?_⟩
  rw [List.forall₂_map_left_iff, List.forall₂_same]
  exact fun octet _ => octetText_toDigits reading octet

/-! ### Groups

Groups are written in hexadecimal.  The last two may be written as four octets, and these say the
same thirty-two bits. -/

theorem groupText_digits (group : UInt16) :
    GroupText group (Text.Hexadecimal.digits group.toNat) := by
  have isGroup : group.toNat < 65536 := group.toNat_lt
  refine ⟨Text.Hexadecimal.readOnto?_eq_some_iff.mp (Text.Hexadecimal.readOnto?_digits _),
    Nat.length_toDigits_pos, ?_⟩
  exact (Nat.length_toDigits_le_iff (by decide) (by decide)).mpr (by omega)

theorem toList_renderGroups (groups : List UInt16) :
    (renderGroups groups).toList =
      [':'].intercalate (groups.map fun group => Text.Hexadecimal.digits group.toNat) := by
  rw [renderGroups, String.toList_intercalate, List.map_map]
  congr 1
  apply List.map_congr_left
  intro group _
  exact String.toList_ofList

/-- **Groups** are written with colons between them. -/
theorem groupsText_renderGroups (reading : Reading) (final : Bool) (groups : List UInt16) :
    GroupsText reading final groups (renderGroups groups).toList := by
  refine ⟨_, toList_renderGroups groups, ?_⟩
  induction groups with
  | nil => exact .nil
  | cons group groups ih => exact .group (groupText_digits group) ih

/-- The octets of two groups are those groups again. -/
theorem groupsOfOctets_octetsOfGroup (high low : UInt16)
    (four : (octetsOfGroup high ++ octetsOfGroup low).toArray.size = 4) :
    groupsOfOctets ⟨(octetsOfGroup high ++ octetsOfGroup low).toArray, four⟩ = [high, low] := by
  have whole (group : UInt16) :
      UInt16.ofNat (256 * (UInt8.ofNat (group.toNat / 256)).toNat +
        (UInt8.ofNat (group.toNat % 256)).toNat) = group := by
    have isGroup : group.toNat < 65536 := group.toNat_lt
    rw [UInt8.toNat_ofNat_of_lt' (show _ < 256 by omega),
      UInt8.toNat_ofNat_of_lt' (show _ < 256 by omega), Nat.div_add_mod, UInt16.ofNat_toNat]
  exact congrArg₂ (fun first second => [first, second]) (whole high) (whole low)

/-- The last two groups of an address may be written as octets. -/
theorem groupsText_mapped (reading : Reading) (high low : UInt16) :
    GroupsText reading true [0xffff, high, low] ("ffff".toList ++
      ':' :: (renderOctets (octetsOfGroup high ++ octetsOfGroup low)).toList) := by
  have first : GroupText 0xffff "ffff".toList := readGroup?_eq_some_iff.mp (by decide +kernel)
  have four : (octetsOfGroup high ++ octetsOfGroup low).toArray.size = 4 := rfl
  have last := GroupFields.octets (octetsText_renderOctets reading ⟨_, four⟩)
  rw [groupsOfOctets_octetsOfGroup high low four] at last
  refine ⟨["ffff".toList, _], ?_, .group first last⟩
  rw [List.intercalate_cons_cons, List.intercalate_singleton, List.append_assoc]
  rfl

/-! ### The run that is left out

The search keeps the longest run of zero groups it has met.  What it keeps is a run, is as long as
any run that ends before the place it has come to, and begins before all others of that length; one
step of the search preserves these three facts together, though none of them by itself. -/

/-- Whether a run of zero groups is **the first of the longest** that start before a place. -/
structure LongestRun (groups : List UInt16) (bound start length : Nat) : Prop where
  zeros : length ≤ zerosFrom groups start
  longest : ∀ other < bound, zerosFrom groups other ≤ length
  first : ∀ other < start, zerosFrom groups other < length

/-- The run that is kept while the places are gone through. -/
theorem longestRun_foldl (groups : List UInt16) (bound : Nat) {best : Nat × Nat}
    (kept : (List.range bound).foldl (fun best start =>
      if best.2 < zerosFrom groups start then (start, zerosFrom groups start) else best) (0, 0) =
        best) :
    LongestRun groups bound best.1 best.2 := by
  induction bound generalizing best with
  | zero =>
    subst kept
    exact ⟨Nat.zero_le _, fun _ => nofun, fun _ => nofun⟩
  | succ bound ih =>
    rw [List.range_succ, List.foldl_append, List.foldl_cons, List.foldl_nil] at kept
    obtain ⟨zeros, longest, first⟩ := ih rfl
    subst kept
    split
    · next longer =>
      refine ⟨Nat.le_refl _, fun other below => ?_, fun other below => ?_⟩
      · rcases Nat.lt_succ_iff_lt_or_eq.mp below with before | rfl
        · exact Nat.le_of_lt (Nat.lt_of_le_of_lt (longest other before) longer)
        · exact Nat.le_refl _
      · exact Nat.lt_of_le_of_lt (longest other below) longer
    · next noLonger =>
      refine ⟨zeros, fun other below => ?_, first⟩
      rcases Nat.lt_succ_iff_lt_or_eq.mp below with before | rfl
      · exact longest other before
      · exact Nat.le_of_not_lt noLonger

theorem longestRun_longestZeros (groups : List UInt16) :
    LongestRun groups groups.length (longestZeros groups).1 (longestZeros groups).2 :=
  longestRun_foldl groups groups.length rfl

/-- A run of zero groups ends within the address. -/
theorem add_zerosFrom_le {groups : List UInt16} {start : Nat}
    (some : 0 < zerosFrom groups start) : start + zerosFrom groups start ≤ groups.length := by
  have shorter := (List.takeWhile_prefix (· == 0) (l := groups.drop start)).length_le
  rw [List.length_drop] at shorter
  unfold zerosFrom at some ⊢
  omega

/-- The groups of an address around a run of zero groups. -/
theorem take_zeros_drop (groups : List UInt16) (start : Nat) :
    groups = groups.take start ++ List.replicate (zerosFrom groups start) 0 ++
      groups.drop (start + zerosFrom groups start) := by
  have zeros : (groups.drop start).takeWhile (· == 0) =
      List.replicate (zerosFrom groups start) 0 := by
    refine List.eq_replicate_iff.mpr ⟨rfl, fun group member => ?_⟩
    simpa using List.mem_takeWhile_imp member
  have behind : groups.drop (start + zerosFrom groups start) =
      (groups.drop start).dropWhile (· == 0) := by
    rw [← List.drop_drop]
    conv => lhs; rw [← List.takeWhile_append_dropWhile (p := (· == 0)) (l := groups.drop start)]
    rw [zeros]
    exact List.drop_left' List.length_replicate
  rw [← zeros, behind, List.append_assoc, List.takeWhile_append_dropWhile, List.take_append_drop]

/-! ### Addresses

From here on the search is not looked at again: `WrittenGroups` says in which ways groups may be
written, and everything about reading back follows from that. -/

/-- How **groups are written**: with octets if they stand for four of them, without the first of the
longest runs of zero groups if that has two groups at least, and otherwise one by one. -/
inductive WrittenGroups (groups : List UInt16) : String → Prop
  | mapped {high low : UInt16} (same : groups = [0, 0, 0, 0, 0, 0xffff, high, low]) :
      WrittenGroups groups ("::ffff:" ++ renderOctets (octetsOfGroup high ++ octetsOfGroup low))
  | shortened {start length : Nat}
      (unmapped : ∀ high low, groups ≠ [0, 0, 0, 0, 0, 0xffff, high, low])
      (run : LongestRun groups groups.length start length) (several : 2 ≤ length) :
      WrittenGroups groups (renderGroups (groups.take start) ++ "::" ++
        renderGroups (groups.drop (start + length)))
  | whole (single : ∀ start < groups.length, zerosFrom groups start ≤ 1) :
      WrittenGroups groups (renderGroups groups)

theorem writtenGroups_render (groups : List UInt16) :
    WrittenGroups groups (renderSixteenBit groups) := by
  have run := longestRun_longestZeros groups
  unfold renderSixteenBit
  split
  · exact .mapped rfl
  · next unmapped =>
    dsimp only
    split
    · next several => exact .shortened unmapped run several
    · next few =>
      have short : (longestZeros groups).2 ≤ 1 := Nat.le_of_not_lt few
      exact .whole fun start within => Nat.le_trans (run.longest start within) short

/-- **Eight groups are written** as a text for either reading, whichever of their zeros are left
out. -/
theorem WrittenGroups.isText {groups : List UInt16} {text : String}
    (written : WrittenGroups groups text) (reading : Reading) (eight : groups.length = 8) :
    SixteenBitText reading groups text.toList := by
  have least : reading.leastRun ≤ 1 := by cases reading <;> decide
  cases written with
  | @mapped high low same =>
    have head : GroupsText reading false [] [] := ⟨[], rfl, .nil⟩
    have zeros : groups = [] ++ List.replicate 5 0 ++ [0xffff, high, low] := same
    rw [String.toList_append]
    exact .shortened head (groupsText_mapped reading high low) zeros
      (Nat.le_trans least (by decide)) (by decide)
  | @shortened start length unmapped run several =>
    have inside : start + zerosFrom groups start ≤ groups.length :=
      add_zerosFrom_le (Nat.lt_of_lt_of_le (by omega) run.zeros)
    have within : start < groups.length := by
      have zeros := run.zeros
      omega
    obtain rfl : length = zerosFrom groups start :=
      Nat.le_antisymm run.zeros (run.longest start within)
    rw [String.toList_append, String.toList_append, List.append_assoc]
    refine .shortened (groupsText_renderGroups reading false _)
      (groupsText_renderGroups reading true _) (take_zeros_drop groups start) (by omega) ?_
    rw [List.length_take]
    omega
  | whole single => exact .whole (groupsText_renderGroups reading true groups)

/-- The **written form of an address** is one of its texts, for either reading. -/
theorem isText_render (reading : Reading) (address : Address) :
    IsText reading address address.render.toList := by
  cases address with
  | v4 octets => exact octetsText_renderOctets reading octets
  | v6 groups => exact (writtenGroups_render groups.toList).isText reading groups.length_toList

/-- An **address is read back**, in either reading. -/
theorem read?_render (reading : Reading) (address : Address) :
    read? reading address.render.toList = some address :=
  read?_eq_some_iff.mpr (isText_render reading address)

/-- An address is written with digits, dots and colons. -/
theorem mem_render {address : Address} {c : Char} (member : c ∈ address.render.toList) :
    c = '.' ∨ c = ':' ∨ (Text.Hexadecimal.digit? c).isSome :=
  (isText_render .strict address).mem member

end Address

namespace Network

/-- The number of leading bits is written with no more digits than it may have. -/
theorem length_toDigits_le (n : Network) :
    (Nat.toDigits 10 n.length).length ≤ lengthDigits n.address := by
  obtain ⟨address, length, fits⟩ := n
  cases address with
  | v4 octets =>
    have small : length ≤ 32 := fits
    show (Nat.toDigits 10 length).length ≤ 2
    exact (Nat.length_toDigits_le_iff (by decide) (by decide)).mpr (by omega)
  | v6 groups =>
    have small : length ≤ 128 := fits
    show (Nat.toDigits 10 length).length ≤ 3
    exact (Nat.length_toDigits_le_iff (by decide) (by decide)).mpr (by omega)

/-- A network is written with its address and the number of its leading bits. -/
theorem isText_renderFull (reading : Address.Reading) (n : Network) :
    IsText reading n n.renderFull.toList := by
  rw [renderFull, String.toList_append, String.toList_append, List.append_assoc]
  have digits : (toString n.length).toList = Nat.toDigits 10 n.length := Nat.toList_repr
  rw [digits]
  exact .bits (Address.isText_render reading n.address)
    (Text.Decimal.read?_eq_some_iff.mp (Text.Decimal.read?_toDigits _)) n.length_toDigits_le

/-- A **network is read back** from its address and the number of its leading bits. -/
theorem read?_renderFull (n : Network) : read? n.renderFull.toList = some n :=
  read?_eq_some_iff.mpr (isText_renderFull .lenient n)

/-- A **network is read back** from the written form, in which a single address stands alone. -/
theorem read?_render (n : Network) : read? n.render.toList = some n := by
  unfold render
  split
  · next single =>
    exact read?_eq_some_iff.mpr (.host (beq_iff_eq.mp single) (Address.isText_render .strict _))
  · exact read?_renderFull n

/-- **Different networks are written differently.** -/
theorem renderFull_injective : Function.Injective renderFull := by
  intro m n same
  have read := read?_renderFull m
  rw [same, read?_renderFull] at read
  exact (Option.some.inj read).symm

/-- **Networks are read back**, and nothing else is read.  A single address is written alone, every
other network with the number of its leading bits, as all of them are in a document; either way it
is read back, whatever its address has behind those bits.  Eight groups are written without the
longest run of zeros, or with octets at the end.  A text is read as a network exactly when it is a
text of that network. -/
theorem read_texts (n : Network) :
    (∀ groups, n.address = .v6 groups → Address.WrittenGroups groups.toList n.address.render) ∧
    (n.render = if n.length = n.address.width then n.address.render
      else n.address.render ++ "/" ++ toString n.length) ∧
    n.toJson = .text (n.address.render ++ "/" ++ toString n.length) ∧
    read? n.render.toList = some n ∧
    read? (n.address.render ++ "/" ++ toString n.length).toList = some n ∧
    ∀ cs, read? cs = some n ↔ IsText .lenient n cs := by
  refine ⟨?_, ?_, rfl, read?_render n, read?_renderFull n, fun cs => read?_eq_some_iff⟩
  · intro groups isSix
    rw [isSix]
    exact Address.writtenGroups_render groups.toList
  · unfold render isHost
    exact if_congr beq_iff_eq rfl rfl

/-- In front of a slash an octet may have **a zero in front**, which it has in no text of an address
alone. -/
theorem read_padded :
    (∃ n, read? "010.0.0.1/8".toList = some n) ∧ ¬ ∃ n, IsText .strict n "010.0.0.1/8".toList := by
  refine ⟨⟨⟨.v4 #v[10, 0, 0, 1], 8, by decide⟩, by decide +kernel⟩, ?_⟩
  rintro ⟨n, text⟩
  generalize whole : "010.0.0.1/8".toList = cs at text
  cases text with
  | host single text =>
    have read := Address.read?_eq_some_iff.mpr text
    rw [← whole] at read
    have refused : Address.read? .strict "010.0.0.1/8".toList = none := by decide +kernel
    rw [refused] at read
    cases read
  | @bits front digits text numeral few =>
    have cut := Text.cutAt?_append text.slash_notMem digits
    rw [← whole] at cut
    have front_eq : Text.cutAt? '/' "010.0.0.1/8".toList = some ("010.0.0.1".toList, ['8']) := by
      decide +kernel
    rw [front_eq] at cut
    cases cut
    have read := Address.read?_eq_some_iff.mpr text
    have refused : Address.read? .strict "010.0.0.1".toList = none := by decide +kernel
    rw [refused] at read
    cases read

end Network

end WafRules
