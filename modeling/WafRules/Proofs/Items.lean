import WafRules.Proofs.Network
import WafRules.Proofs.Phrases

/-!
# Items of comma lists

Networks and ranges of byte values are listed with commas between them.  What an item is written
with are digits, letters and a few marks, among them neither a comma nor a space, so that a list is
cut into its items again and each of them is read back.

## Main Definitions

* `Text.StandsInItem` — the characters that items are written with.

## Main Statements

* `ByteRange.read?_render` — a range of byte values is read back.
* `Operand.items_of_intercalate` — a list of items is read back.
-/

namespace WafRules

/-- Parts that are read one by one from what each of them is written as. -/
theorem mapM_map_eq_pure {m : Type → Type} [Monad m] [LawfulMonad m] {α β : Type} {write : α → β}
    {read : β → m α} (values : List α) (back : ∀ a ∈ values, read (write a) = pure a) :
    (values.map write).mapM read = pure values := by
  induction values with
  | nil => rfl
  | cons a values ih =>
    obtain ⟨here, later⟩ := List.forall_mem_cons.mp back
    rw [List.map_cons, List.mapM_cons, here, ih later, pure_bind, pure_bind]

/-! ### The characters of items

Digits, letters and marks are given as ranges of code points, so that whether a range contains a
comma, a space or another blank is settled by computing with the ends of the ranges. -/

namespace Text

/-- The characters of items: digits, letters that may be hexadecimal digits, and the marks between
them. -/
def itemRanges : CodeRanges :=
  [('-'.toNat, ':'.toNat), ('A'.toNat, 'F'.toNat), ('a'.toNat, 'f'.toNat)]

/-- Whether a character may stand in an item. -/
def StandsInItem (c : Char) : Prop := itemRanges.has c = true

instance (c : Char) : Decidable (StandsInItem c) := inferInstanceAs (Decidable (_ = _))

/-- Sets of code points without common ones have no common members. -/
theorem CodeRanges.has_eq_false_of_disjoint {first second : CodeRanges}
    (disjoint : ∀ a ∈ first, ∀ b ∈ second, a.2 < b.1 ∨ b.2 < a.1) {c : Char}
    (within : first.has c = true) : second.has c = false := by
  rw [Bool.eq_false_iff]
  intro within'
  obtain ⟨a, listed, least, most⟩ := (CodeRanges.has_iff first c).mp within
  obtain ⟨b, listed', least', most'⟩ := (CodeRanges.has_iff second c).mp within'
  have apart := disjoint a listed b listed'
  omega

theorem StandsInItem.isSpace {c : Char} (inItem : StandsInItem c) : isSpace c = false :=
  CodeRanges.has_eq_false_of_disjoint (by decide) inItem

theorem StandsInItem.isBlank {c : Char} (inItem : StandsInItem c) : isBlank c = false :=
  Bool.eq_false_iff.mpr fun blank => by
    have space := isSpace_of_isBlank c blank
    rw [inItem.isSpace] at space
    cases space

theorem standsInItem_of_digit? {c : Char} (isDigit : (Hexadecimal.digit? c).isSome) :
    StandsInItem c := by
  refine (CodeRanges.has_iff itemRanges c).mpr ?_
  unfold Hexadecimal.digit? at isDigit
  split at isDigit
  · next decimal =>
    rw [Char.isDigit, Bool.and_eq_true, decide_eq_true_eq, decide_eq_true_eq] at decimal
    have least : 48 ≤ c.toNat := decimal.1
    have most : c.toNat ≤ 57 := decimal.2
    exact ⟨('-'.toNat, ':'.toNat), by simp [itemRanges],
      Nat.le_trans (by decide) least, Nat.le_trans most (by decide)⟩
  · split at isDigit
    · next small => exact ⟨('a'.toNat, 'f'.toNat), by simp [itemRanges], small⟩
    · split at isDigit
      · next capital => exact ⟨('A'.toNat, 'F'.toNat), by simp [itemRanges], capital⟩
      · cases isDigit

/-- A text without spaces has none at its ends. -/
theorem trimList_eq_self {cs : List Char} (noSpace : ∀ c ∈ cs, isSpace c = false) :
    trimList cs = cs := by
  have kept {cs : List Char} (noSpace : ∀ c ∈ cs, isSpace c = false) :
      cs.dropWhile isSpace = cs := by
    cases cs with
    | nil => rfl
    | cons c cs => exact List.dropWhile_cons_of_neg (by simp [noSpace c])
  rw [trimList, kept noSpace, kept (by simpa using noSpace), List.reverse_reverse]

end Text

open Text (StandsInItem)

/-! ### What items are written with

Trimming an item changes nothing when no space stands in it, and the commas of the list are those
between items when none stands in an item; then the items are the fields of the text. -/

theorem standsInItem_toDigits {n : Nat} {c : Char} (member : c ∈ Nat.toDigits 10 n) :
    StandsInItem c := by
  have digit := Nat.isDigit_of_mem_toDigits (by decide) (by decide) member
  exact Text.standsInItem_of_digit? (Text.Hexadecimal.isSome_digit?_of_isDigit digit)

theorem Network.standsInItem_render {n : Network} {c : Char} (member : c ∈ n.render.toList) :
    StandsInItem c := by
  have address {address : Address} (member : c ∈ address.render.toList) : StandsInItem c := by
    rcases Address.mem_render member with rfl | rfl | digit
    · decide
    · decide
    · exact Text.standsInItem_of_digit? digit
  unfold render at member
  split at member
  · exact address member
  · rw [renderFull, String.toList_append, String.toList_append, List.mem_append,
      List.mem_append] at member
    rcases member with (inAddress | mark) | digits
    · exact address inAddress
    · obtain rfl : c = '/' := List.mem_singleton.mp mark
      decide
    · exact standsInItem_toDigits (Nat.toList_repr ▸ digits)

namespace ByteRange

theorem standsInItem_render {r : ByteRange} {c : Char} (member : c ∈ r.render.toList) :
    StandsInItem c := by
  unfold render at member
  split at member
  · exact standsInItem_toDigits (Nat.toList_repr ▸ member)
  · rw [String.toList_append, String.toList_append, List.mem_append, List.mem_append] at member
    rcases member with (first | mark) | last
    · exact standsInItem_toDigits (Nat.toList_repr ▸ first)
    · obtain rfl : c = '-' := List.mem_singleton.mp mark
      decide
    · exact standsInItem_toDigits (Nat.toList_repr ▸ last)

theorem readByte?_toDigits {n : Nat} (isByte : n ≤ 255) :
    readByte? (Nat.toDigits 10 n) = some n := by
  have noSpace : ∀ c ∈ Nat.toDigits 10 n, Text.isSpace c = false :=
    fun c member => (standsInItem_toDigits member).isSpace
  rw [readByte?, Text.trimList_eq_self noSpace, Text.Decimal.readCount?_toDigits,
    Text.Decimal.atMost?]
  exact Option.filter_some_pos (by simpa using isByte)

/-- A **range of byte values is read back.** -/
theorem read?_render {r : ByteRange} (sound : r.WellFormed) : read? r.render.toList = some r := by
  obtain ⟨first, last⟩ := r
  obtain ⟨ordered, isByte⟩ := sound
  have noMinus (n : Nat) : '-' ∉ Nat.toDigits 10 n := fun minus =>
    absurd (Nat.isDigit_of_mem_toDigits (by decide) (by decide) minus) (by decide)
  have readFirst := readByte?_toDigits (Nat.le_trans ordered isByte)
  have readLast := readByte?_toDigits isByte
  have read {cs : List Char} (cut : (Text.cutAt? '-' cs).getD (cs, cs) =
      (Nat.toDigits 10 first, Nat.toDigits 10 last)) : read? cs = some ⟨first, last⟩ := by
    simp only [read?, cut, readFirst, readLast, Option.bind_eq_bind, Option.bind_some]
    exact if_pos ordered
  unfold render
  split
  · next single =>
    obtain rfl : first = last := single
    have text : (toString first).toList = Nat.toDigits 10 first := Nat.toList_repr
    exact read (by rw [text, Text.cutAt?_eq_none (noMinus first), Option.getD_none])
  · have text : (toString first ++ "-" ++ toString last).toList =
        Nat.toDigits 10 first ++ '-' :: Nat.toDigits 10 last := by
      rw [String.toList_append, String.toList_append, List.append_assoc]
      exact congrArg₂ (· ++ '-' :: ·) Nat.toList_repr Nat.toList_repr
    exact read (by rw [text, Text.cutAt?_append (noMinus first), Option.getD_some])

end ByteRange

namespace Operand

/-- A **list of items is read back** from its items with commas between them.  No item has a comma
or a blank in it, so the commas are those between the items and nothing is trimmed; and the empty
text is no item, so there is a token at least. -/
theorem items_of_intercalate {α : Type} {write : α → String} {read? : List Char → Option α}
    {values : List α} (filled : values ≠ []) (back : ∀ a ∈ values, read? (write a).toList = some a)
    (inItem : ∀ a ∈ values, ∀ c ∈ (write a).toList, StandsInItem c) (empty : read? [] = none)
    {o : Operand} (solid : ∀ t ∈ o.window.tokens, t.isBlanks = false)
    (text : (o.window.tokens.flatMap fun t => t.value.toList) =
      (String.intercalate "," (values.map write)).toList) (what : ListItem) :
    o.items what read? = .ok values := by
  have fields : Text.fields ',' (o.window.tokens.flatMap fun t => t.value.toList) =
      values.map fun a => (write a).toList := by
    rw [text, String.toList_intercalate, List.map_map]
    refine Text.fields_intercalate (mt List.map_eq_nil_iff.mp filled) ?_
    refine List.forall_mem_map.mpr fun a member comma => ?_
    exact absurd (inItem a member ',' comma) (by decide)
  have present : o.window.tokens ≠ [] := by
    -- no tokens would be a single item that says nothing
    intro none
    obtain ⟨a, others, rfl⟩ := List.exists_cons_of_ne_nil filled
    rw [none, List.map_cons] at fields
    have blank : [] = (write a).toList := (List.cons.inj fields).1
    have readBack := back a List.mem_cons_self
    rw [← blank, empty] at readBack
    cases readBack
  have whole : o.window.tokens.rdropWhile Token.isBlanks = o.window.tokens :=
    List.rdropWhile_eq_self_iff.mpr fun _ => Bool.eq_false_iff.mp (solid _ (List.getLast_mem _))
  have required := required_of_ne_nil (o := o) (by rwa [whole])
  refine bind_eq_ok_iff.mpr ⟨_, required, ?_⟩
  rw [Window.text, String.toList_ofList, Window.trimEnd_tokens, whole, fields]
  refine mapM_map_eq_pure values fun a member => ?_
  have trimmed : Text.trimList (write a).toList = (write a).toList :=
    Text.trimList_eq_self fun c inside => (inItem a member c inside).isSpace
  dsimp only
  rw [trimmed, back a member]
  rfl

end Operand

end WafRules
