import WafRules.Network
import WafRules.Proofs.Numerals

/-!
# The texts of addresses and networks

Which texts are addresses is said here without a reader: octets are numerals with dots between them,
groups are hexadecimal numerals with colons between them, the last two groups may be octets, and two
colons may stand for a run of zero groups.  The reader takes exactly these texts, and takes each of
them for the address that it writes.

A network is an address alone, or an address, a slash and the number of its leading bits.  The two
are not read alike.  In front of a slash octets may be padded with zeros, and two colons may stand
between groups that are all written; an address alone is refused in both cases.  So a text in front
of a slash need not be one that is taken without the slash.

## Main Definitions

* `Address.IsText` — the texts that write an address, for a reading.
* `Network.IsText` — the texts that write a network.

## Main Statements

* `Address.read?_eq_some_iff`, `Network.read?_eq_some_iff` — what is read is what is written so.
-/

namespace WafRules

open Text (fields fields_eq_iff mem_intercalate mem_intercalate_cons_cons)

namespace Address

/-! ### Octets

Whether zeros may stand in front is a parameter, and the two readings of addresses are its
values. -/

/-- Whether characters **write an octet**: a numeral of at most three digits, which in a strict
reading has no zero in front of another digit. -/
structure OctetText (reading : Reading) (octet : UInt8) (cs : List Char) : Prop where
  numeral : Text.Numeral cs octet.toNat
  length_le : cs.length ≤ 3
  unpadded : reading = .strict → cs.head? = some '0' → cs.length = 1

/-- Whether characters write four octets, with dots between them. -/
def OctetsText (reading : Reading) (octets : Vector UInt8 4) (cs : List Char) : Prop :=
  ∃ fields, cs = ['.'].intercalate fields ∧
    List.Forall₂ (fun field octet => OctetText reading octet field) fields octets.toList

theorem allowsOctet_iff {reading : Reading} {cs : List Char} :
    reading.allowsOctet cs = true ↔ (reading = .strict → cs.head? = some '0' → cs.length = 1) := by
  cases reading with
  | lenient => exact ⟨fun _ => nofun, fun _ => rfl⟩
  | strict => simp [Reading.allowsOctet, imp_iff_not_or]

theorem readOctet?_eq_some_iff {reading : Reading} {cs : List Char} {octet : UInt8} :
    readOctet? reading cs = some octet ↔ OctetText reading octet cs := by
  constructor
  · intro read
    obtain ⟨n, numeral, rest⟩ := Option.bind_eq_some_iff.mp read
    obtain ⟨⟨short, allowed, isOctet⟩, same⟩ := Option.ite_none_right_eq_some.mp rest
    obtain rfl := Option.some.inj same
    have value : (UInt8.ofNat n).toNat = n := UInt8.toNat_ofNat_of_lt' isOctet
    refine ⟨?_, short, allowsOctet_iff.mp allowed⟩
    rw [value]
    exact Text.Decimal.read?_eq_some_iff.mp numeral
  · rintro ⟨numeral, short, unpadded⟩
    rw [readOctet?, Text.Decimal.read?_eq_some_iff.mpr numeral]
    show (if _ then some (UInt8.ofNat octet.toNat) else none) = some octet
    rw [if_pos ⟨short, allowsOctet_iff.mpr unpadded, octet.toNat_lt⟩, UInt8.ofNat_toNat]

/-- Octets are written with digits and dots. -/
theorem OctetsText.isDigit {reading : Reading} {octets : Vector UInt8 4} {cs : List Char}
    (text : OctetsText reading octets cs) {c : Char} (member : c ∈ cs) :
    c = '.' ∨ c.isDigit = true := by
  obtain ⟨fields, rfl, written⟩ := text
  rcases mem_intercalate member with same | ⟨field, among, inside⟩
  · exact .inl same
  · obtain ⟨octet, isOctet⟩ := exists_of_mem_forall₂ written _ among
    exact .inr (isOctet.numeral.digits c inside)

/-- **Four octets** are read from the texts that write them. -/
theorem readOctets?_eq_some_iff {reading : Reading} {cs : List Char} {octets : Vector UInt8 4} :
    readOctets? reading cs = some octets ↔ OctetsText reading octets cs := by
  constructor
  · intro read
    obtain ⟨list, all, rest⟩ := Option.bind_eq_some_iff.mp read
    obtain ⟨four, same⟩ := Option.dite_none_right_eq_some.mp rest
    obtain rfl := Option.some.inj same
    refine ⟨fields '.' cs, (Text.intercalate_fields '.' cs).symm, ?_⟩
    exact (mapM_eq_some_iff.mp all).imp fun _ _ => readOctet?_eq_some_iff.mp
  · rintro ⟨parts, rfl, written⟩
    have split : fields '.' (['.'].intercalate parts) = parts := by
      refine fields_eq_iff.mpr ⟨?_, rfl, ?_⟩
      · rintro rfl
        cases written.length_eq.trans octets.length_toList
      · intro part among dot
        obtain ⟨octet, isOctet⟩ := exists_of_mem_forall₂ written _ among
        exact absurd (isOctet.numeral.digits _ dot) (by decide)
    have all : parts.mapM (readOctet? reading) = some octets.toList :=
      mapM_eq_some_iff.mpr (written.imp fun _ _ => readOctet?_eq_some_iff.mpr)
    rw [readOctets?, split, all]
    exact dif_pos octets.length_toList

/-- A text with a colon in it is not one of octets. -/
theorem readOctets?_eq_none (reading : Reading) {cs : List Char} (colon : ':' ∈ cs) :
    readOctets? reading cs = none := by
  refine Option.eq_none_iff_forall_ne_some.mpr fun octets read => ?_
  rcases (readOctets?_eq_some_iff.mp read).isDigit colon with same | digit
  · exact absurd same (by decide)
  · exact absurd digit (by decide)

/-! ### Groups

A list of groups may be empty, since two colons may stand at either end of an address.  Only the
list that ends the address may have four octets for its last two groups. -/

/-- Whether characters **write a group**: a hexadecimal numeral of one to four digits. -/
structure GroupText (group : UInt16) (cs : List Char) : Prop where
  numeral : Text.Hexadecimal.Numeral cs group.toNat
  length : 1 ≤ cs.length ∧ cs.length ≤ 4

theorem readGroup?_eq_some_iff {cs : List Char} {group : UInt16} :
    readGroup? cs = some group ↔ GroupText group cs := by
  constructor
  · intro read
    obtain ⟨n, numeral, rest⟩ := Option.bind_eq_some_iff.mp read
    obtain ⟨length, same⟩ := Option.ite_none_right_eq_some.mp rest
    obtain rfl := Option.some.inj same
    have isGroup : n < 65536 := by
      calc n
        _ < (0 + 1) * 16 ^ cs.length := Text.Hexadecimal.readOnto?_lt numeral
        _ = 16 ^ cs.length := by rw [Nat.zero_add, Nat.one_mul]
        _ ≤ 16 ^ 4 := Nat.pow_le_pow_right (by decide) length.2
    have value : (UInt16.ofNat n).toNat = n := UInt16.toNat_ofNat_of_lt' isGroup
    refine ⟨?_, length⟩
    rw [value]
    exact Text.Hexadecimal.readOnto?_eq_some_iff.mp numeral
  · rintro ⟨numeral, length⟩
    rw [readGroup?, Text.Hexadecimal.readOnto?_eq_some_iff.mpr numeral]
    show (if _ then some (UInt16.ofNat group.toNat) else none) = some group
    rw [if_pos length, UInt16.ofNat_toNat]

/-- A group is written with digits. -/
theorem GroupText.isSome_digit? {group : UInt16} {cs : List Char} (text : GroupText group cs)
    {c : Char} (member : c ∈ cs) : (Text.Hexadecimal.digit? c).isSome = true := by
  obtain ⟨ds, digits, -⟩ := text.numeral
  obtain ⟨d, isDigit⟩ := exists_of_mem_forall₂ digits c member
  rw [isDigit]
  rfl

/-- What is read as a group has no dot. -/
theorem readGroup?_eq_none {cs : List Char} (dot : '.' ∈ cs) : readGroup? cs = none := by
  refine Option.eq_none_iff_forall_ne_some.mpr fun group read => ?_
  exact absurd ((readGroup?_eq_some_iff.mp read).isSome_digit? dot) (by decide)

/-- Whether fields **write groups** between colons.  The last field may write two of them as octets
where they end the address. -/
inductive GroupFields (reading : Reading) : Bool → List UInt16 → List (List Char) → Prop
  | nil {final : Bool} : GroupFields reading final [] []
  | group {final : Bool} {group : UInt16} {groups : List UInt16} {field : List Char}
      {fields : List (List Char)} (first : GroupText group field)
      (rest : GroupFields reading final groups fields) :
      GroupFields reading final (group :: groups) (field :: fields)
  | octets {octets : Vector UInt8 4} {field : List Char} (text : OctetsText reading octets field) :
      GroupFields reading true (groupsOfOctets octets) [field]

/-- Whether characters write groups with colons between them, or no group. -/
def GroupsText (reading : Reading) (final : Bool) (groups : List UInt16) (cs : List Char) : Prop :=
  ∃ fields, cs = [':'].intercalate fields ∧ GroupFields reading final groups fields

/-- Octets have a dot between the first two, so they are no group. -/
theorem OctetsText.dot_mem {reading : Reading} {octets : Vector UInt8 4} {cs : List Char}
    (text : OctetsText reading octets cs) : '.' ∈ cs := by
  obtain ⟨fields, rfl, written⟩ := text
  have four : fields.length = 4 := written.length_eq.trans octets.length_toList
  obtain _ | ⟨first, _ | ⟨second, fields⟩⟩ := fields
  · cases four
  · cases four
  · exact mem_intercalate_cons_cons '.' first second fields

/-- The **groups of fields** are read where they are written.  By induction on the fields; only the
last of them may be octets, and those stand for two groups. -/
theorem readFields?_eq_some_iff {reading : Reading} {final : Bool} {parts : List (List Char)}
    {groups : List UInt16} :
    readFields? reading final parts = some groups ↔ GroupFields reading final groups parts := by
  induction parts generalizing groups with
  | nil =>
    rw [readFields?]
    constructor
    · rintro ⟨⟩
      exact .nil
    · rintro ⟨⟩
      rfl
  | cons field parts ih =>
    -- Only the last field may be four octets, which is why the recursion stops at one field.
    cases parts with
    | nil =>
      rw [readFields?]
      constructor
      · intro read
        cases isGroup : readGroup? field with
        | some group =>
          rw [isGroup] at read
          cases read
          exact .group (readGroup?_eq_some_iff.mp isGroup) .nil
        | none =>
          rw [isGroup] at read
          obtain ⟨rfl, read⟩ := Option.ite_none_right_eq_some.mp read
          obtain ⟨octets, isOctets, rfl⟩ := Option.map_eq_some_iff.mp read
          exact .octets (readOctets?_eq_some_iff.mp isOctets)
      · rintro (_ | ⟨first, ⟨⟩⟩ | text)
        · rw [readGroup?_eq_some_iff.mpr first]
        · rw [readGroup?_eq_none text.dot_mem, readOctets?_eq_some_iff.mpr text]
          rfl
    | cons second parts =>
      rw [readFields?]
      · constructor
        · intro read
          obtain ⟨group, isGroup, read⟩ := Option.bind_eq_some_iff.mp read
          obtain ⟨others, rest, same⟩ := Option.bind_eq_some_iff.mp read
          cases same
          exact .group (readGroup?_eq_some_iff.mp isGroup) (ih.mp rest)
        · rintro (_ | ⟨first, rest⟩)
          rw [readGroup?_eq_some_iff.mpr first, ih.mpr rest]
          rfl
      · intro empty
        cases empty

/-- Fields of groups are written with digits and dots. -/
theorem GroupFields.mem {reading : Reading} {final : Bool} {groups : List UInt16}
    {parts : List (List Char)} (fields : GroupFields reading final groups parts) :
    ∀ part ∈ parts, ∀ c ∈ part, c = '.' ∨ (Text.Hexadecimal.digit? c).isSome = true := by
  induction fields with
  | nil => exact fun _ => nofun
  | group first rest ih =>
    exact List.forall_mem_cons.mpr ⟨fun c member => .inr (first.isSome_digit? member), ih⟩
  | octets text =>
    refine List.forall_mem_singleton.mpr fun c member => ?_
    exact (text.isDigit member).imp_right Text.Hexadecimal.isSome_digit?_of_isDigit

/-- Fields of groups are not empty, and have no colon in them. -/
theorem GroupFields.free {reading : Reading} {final : Bool} {groups : List UInt16}
    {parts : List (List Char)} (fields : GroupFields reading final groups parts) :
    ∀ part ∈ parts, part ≠ [] ∧ ':' ∉ part := by
  intro part among
  refine ⟨?_, fun colon => absurd (fields.mem part among ':' colon) (by decide)⟩
  induction fields with
  | nil => cases among
  | group first rest ih =>
    rcases List.mem_cons.mp among with rfl | later
    · exact List.ne_nil_of_length_pos first.length.1
    · exact ih later
  | octets text =>
    rw [List.mem_singleton.mp among]
    exact List.ne_nil_of_mem text.dot_mem

/-- A field writes two groups at most, and only the last one does. -/
theorem GroupFields.length_le {reading : Reading} {final : Bool} {groups : List UInt16}
    {parts : List (List Char)} (fields : GroupFields reading final groups parts) :
    groups.length ≤ parts.length + 1 := by
  induction fields with
  | nil => exact Nat.zero_le _
  | group first rest ih => exact Nat.succ_le_succ ih
  | octets text => exact Nat.le_refl 2

/-- **Groups are read** from the texts that write them.  An empty text has no groups; any other is
cut at its colons. -/
theorem readGroups?_eq_some_iff {reading : Reading} {final : Bool} {cs : List Char}
    {groups : List UInt16} :
    readGroups? reading final cs = some groups ↔ GroupsText reading final groups cs := by
  rw [readGroups?]
  constructor
  · intro read
    cases cs with
    | nil =>
      cases read
      exact ⟨[], rfl, .nil⟩
    | cons c cs =>
      exact ⟨fields ':' (c :: cs), (Text.intercalate_fields ':' _).symm,
        readFields?_eq_some_iff.mp read⟩
  · rintro ⟨parts, rfl, written⟩
    cases parts with
    | nil =>
      cases written
      rfl
    | cons first parts =>
      have free := written.free
      have split : fields ':' ([':'].intercalate (first :: parts)) = first :: parts :=
        fields_eq_iff.mpr ⟨List.cons_ne_nil _ _, rfl, fun part among => (free part among).2⟩
      have nonempty : ([':'].intercalate (first :: parts)).isEmpty = false := by
        obtain ⟨c, rest, rfl⟩ := List.exists_cons_of_ne_nil (free first List.mem_cons_self).1
        rw [Text.intercalate_cons]
        rfl
      rw [nonempty, if_neg Bool.false_ne_true, split]
      exact readFields?_eq_some_iff.mpr written

/-- Groups have no doubled colon in them, and no colon at the end. -/
theorem GroupsText.single {reading : Reading} {final : Bool} {groups : List UInt16} {cs : List Char}
    (text : GroupsText reading final groups cs) : Text.Single ':' cs := by
  obtain ⟨parts, rfl, written⟩ := text
  exact Text.Single.intercalate written.free

/-- Groups are written with digits, dots and colons. -/
theorem GroupsText.mem {reading : Reading} {final : Bool} {groups : List UInt16} {cs : List Char}
    (text : GroupsText reading final groups cs) {c : Char} (member : c ∈ cs) :
    c = '.' ∨ c = ':' ∨ (Text.Hexadecimal.digit? c).isSome = true := by
  obtain ⟨parts, rfl, written⟩ := text
  rcases mem_intercalate member with same | ⟨part, among, inside⟩
  · exact .inr (.inl same)
  · exact (written.mem part among c inside).imp_right .inr

/-! ### Addresses

An address has dots or colons, and never both unless its last two groups are octets, so the two
families of addresses are told apart by their texts. -/

/-- Whether characters **write the eight groups of an address**: all of them, or those around two
colons, which stand for a run of zero groups.  Seven groups at most stand before the colons. -/
inductive SixteenBitText (reading : Reading) (groups : List UInt16) : List Char → Prop
  | whole {cs : List Char} (text : GroupsText reading true groups cs) :
      SixteenBitText reading groups cs
  | shortened {before after : List Char} {head tail : List UInt16} {run : Nat}
      (headText : GroupsText reading false head before)
      (tailText : GroupsText reading true tail after)
      (zeros : groups = head ++ List.replicate run 0 ++ tail) (least : reading.leastRun ≤ run)
      (short : head.length ≤ 7) : SixteenBitText reading groups (before ++ ':' :: ':' :: after)

/-- **Sixteen-bit groups** are read from their texts, whole or shortened.  There are eight of them,
which is what the length of the run left out is found from. -/
theorem readSixteenBit?_eq_some_iff {reading : Reading} {cs : List Char} {groups : List UInt16}
    (eight : groups.length = 8) :
    readSixteenBit? reading cs = some groups ↔ SixteenBitText reading groups cs := by
  constructor
  · intro read
    unfold readSixteenBit? at read
    split at read
    · exact .whole (readGroups?_eq_some_iff.mp read)
    · next before after cut =>
      obtain ⟨head, headRead, read⟩ := Option.bind_eq_some_iff.mp read
      obtain ⟨tail, tailRead, read⟩ := Option.bind_eq_some_iff.mp read
      obtain ⟨⟨short, room⟩, same⟩ := Option.ite_none_right_eq_some.mp read
      rw [Text.cutAtDouble?_eq_some cut]
      refine .shortened (readGroups?_eq_some_iff.mp headRead) (readGroups?_eq_some_iff.mp tailRead)
        (Option.some.inj same).symm ?_ short
      omega
  · intro text
    cases text with
    | whole text =>
      rw [readSixteenBit?, Text.cutAtDouble?_eq_none text.single]
      exact readGroups?_eq_some_iff.mpr text
    | @shortened before after head tail run headText tailText zeros least short =>
      -- Eight groups in all leave one length for the run, the one the reader fills in.
      have lengths : head.length + run + tail.length = 8 := by
        rw [zeros] at eight
        simpa [Nat.add_assoc] using eight
      have expanded : expand head tail = groups := by
        have left : 8 - head.length - tail.length = run := by omega
        rw [expand, left, zeros]
      rw [readSixteenBit?, Text.cutAtDouble?_append headText.single]
      show (readGroups? reading false before).bind _ = _
      rw [readGroups?_eq_some_iff.mpr headText, Option.bind_some]
      show (readGroups? reading true after).bind _ = _
      rw [readGroups?_eq_some_iff.mpr tailText, Option.bind_some, expanded]
      exact if_pos ⟨short, by omega⟩

/-- Eight groups have a colon between the first two. -/
theorem SixteenBitText.colon_mem {reading : Reading} {groups : List UInt16} {cs : List Char}
    (text : SixteenBitText reading groups cs) (eight : groups.length = 8) : ':' ∈ cs := by
  cases text with
  | whole text =>
    obtain ⟨parts, rfl, written⟩ := text
    have several : 7 ≤ parts.length := by
      have length := written.length_le
      omega
    obtain _ | ⟨first, _ | ⟨second, parts⟩⟩ := parts
    · cases several
    · exact absurd several (Nat.not_le_of_lt (by simp))
    · exact mem_intercalate_cons_cons ':' first second parts
  | shortened headText tailText zeros least short =>
    exact List.mem_append_right _ List.mem_cons_self

/-- Whether characters **write an address**, for a reading. -/
def IsText (reading : Reading) : Address → List Char → Prop
  | v4 octets => OctetsText reading octets
  | v6 groups => SixteenBitText reading groups.toList

/-- **Addresses are read from the texts that write them**, and from no others. -/
theorem read?_eq_some_iff {reading : Reading} {cs : List Char} {address : Address} :
    read? reading cs = some address ↔ IsText reading address cs := by
  constructor
  · intro read
    unfold read? at read
    split at read
    · next octets isOctets =>
      cases read
      exact readOctets?_eq_some_iff.mp isOctets
    · obtain ⟨list, isGroups, read⟩ := Option.bind_eq_some_iff.mp read
      obtain ⟨eight, same⟩ := Option.dite_none_right_eq_some.mp read
      cases same
      exact (readSixteenBit?_eq_some_iff eight).mp isGroups
  · intro text
    cases address with
    | v4 octets => rw [read?, readOctets?_eq_some_iff.mpr text]
    | v6 groups =>
      have eight : groups.toList.length = 8 := groups.length_toList
      have noOctets := readOctets?_eq_none reading (SixteenBitText.colon_mem text eight)
      simp only [read?, noOctets, (readSixteenBit?_eq_some_iff eight).mpr text]
      exact dif_pos eight

/-- An address is written with digits, dots and colons. -/
theorem IsText.mem {reading : Reading} {address : Address} {cs : List Char}
    (text : IsText reading address cs) {c : Char} (member : c ∈ cs) :
    c = '.' ∨ c = ':' ∨ (Text.Hexadecimal.digit? c).isSome = true := by
  cases address with
  | v4 octets =>
    refine (OctetsText.isDigit text member).imp_right fun digit => .inr ?_
    exact Text.Hexadecimal.isSome_digit?_of_isDigit digit
  | v6 eight =>
    obtain text | ⟨headText, tailText, -, -, -⟩ := text
    · exact text.mem member
    · rcases List.mem_append.mp member with inHead | behind
      · exact headText.mem inHead
      · rcases List.mem_cons.mp behind with same | behind
        · exact .inr (.inl same)
        · rcases List.mem_cons.mp behind with same | inTail
          · exact .inr (.inl same)
          · exact tailText.mem inTail

/-- No address is written with a slash. -/
theorem IsText.slash_notMem {reading : Reading} {address : Address} {cs : List Char}
    (text : IsText reading address cs) : '/' ∉ cs := by
  intro slash
  rcases text.mem slash with same | same | digit
  · exact absurd same (by decide)
  · exact absurd same (by decide)
  · exact absurd digit (by decide)

end Address

/-! ### Networks

The number of leading bits is a numeral behind the slash and has a bound that depends on the
family of the address. -/

namespace Network

/-- Whether characters **write a network**: an address alone, or an address as the reading allows, a
slash and the number of leading bits, in not more digits than it may have. -/
inductive IsText (inFront : Address.Reading) (n : Network) : List Char → Prop
  | host {cs : List Char} (single : n.length = n.address.width)
      (text : n.address.IsText .strict cs) : IsText inFront n cs
  | bits {front digits : List Char} (text : n.address.IsText inFront front)
      (numeral : Text.Numeral digits n.length) (few : digits.length ≤ lengthDigits n.address) :
      IsText inFront n (front ++ '/' :: digits)

theorem withLength?_eq_some_iff {address : Address} {digits : List Char} {n : Network} :
    withLength? address digits = some n ↔
      n.address = address ∧ Text.Numeral digits n.length ∧
        digits.length ≤ lengthDigits address := by
  constructor
  · intro read
    obtain ⟨length, numeral, read⟩ := Option.bind_eq_some_iff.mp read
    obtain ⟨few, read⟩ := Option.ite_none_right_eq_some.mp read
    obtain ⟨fits, same⟩ := Option.dite_none_right_eq_some.mp read
    cases same
    exact ⟨rfl, Text.Decimal.read?_eq_some_iff.mp numeral, few⟩
  · rintro ⟨rfl, numeral, few⟩
    rw [withLength?, Text.Decimal.read?_eq_some_iff.mpr numeral]
    show (if _ then (if fits : n.length ≤ n.address.width then some ⟨n.address, n.length, fits⟩
      else none) else none) = some n
    rw [if_pos few, dif_pos n.length_le]

/-- **Networks are read from the texts that write them**, and from no others. -/
theorem read?_eq_some_iff {cs : List Char} {n : Network} :
    read? cs = some n ↔ IsText .lenient n cs := by
  constructor
  · intro read
    unfold read? at read
    split at read
    · obtain ⟨address, isAddress, rfl⟩ := Option.map_eq_some_iff.mp read
      exact .host rfl (Address.read?_eq_some_iff.mp isAddress)
    · next front digits cut =>
      obtain ⟨address, isAddress, read⟩ := Option.bind_eq_some_iff.mp read
      obtain ⟨rfl, numeral, few⟩ := withLength?_eq_some_iff.mp read
      rw [(Text.cutAt?_eq_some cut).1]
      exact .bits (Address.read?_eq_some_iff.mp isAddress) numeral few
  · rintro (⟨single, text⟩ | ⟨text, numeral, few⟩)
    · obtain ⟨address, length, fits⟩ := n
      obtain rfl : length = address.width := single
      rw [read?, Text.cutAt?_eq_none text.slash_notMem]
      show (Address.read? .strict cs).map host = _
      rw [Address.read?_eq_some_iff.mpr text]
      rfl
    · rw [read?, Text.cutAt?_append text.slash_notMem]
      show (Address.read? .lenient _).bind _ = _
      rw [Address.read?_eq_some_iff.mpr text, Option.bind_some]
      exact withLength?_eq_some_iff.mpr ⟨rfl, numeral, few⟩

/-- Two colons between eight groups, in front of a slash and without it. -/
example : (read? "1:2:3:4::5:6:7:8/64".toList).isSome = true ∧
    read? "1:2:3:4::5:6:7:8".toList = none := by
  decide +kernel

end Network

end WafRules
