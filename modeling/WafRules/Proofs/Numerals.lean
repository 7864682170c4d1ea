import Mathlib.Algebra.GroupWithZero.Nat
import Mathlib.Data.List.Forall2
import WafRules.Text.Decimal
import WafRules.Text.Fields
import WafRules.Text.Hexadecimal

/-!
# Written numerals and fields

Numbers are written in decimal and hexadecimal digits, and lists with a separator between their
parts.  What is written is read back: a numeral as the number, a list as its parts.

The statements are equivalences where they can be: a reader takes exactly the texts that a
description allows, with the number they denote.  Other modules then reason about the texts and come
back to the reader by one rewriting step.

## Main Definitions

* `Text.Numeral`, `Text.Hexadecimal.Numeral` — the numerals of a number.

## Main Statements

* `Text.Decimal.read?_eq_some_iff`, `Text.Hexadecimal.readOnto?_eq_some_iff` — what is read as a
  number.
* `Text.Decimal.read?_toDigits`, `Text.Hexadecimal.readOnto?_digits` — numerals are read back.
* `Text.fields_eq_iff` — the fields of a list are the parts without the separator that make it up.
* `Text.cutAt?_append`, `Text.cutAtDouble?_append` — where a text is cut.
-/

namespace WafRules

/-! ### Parts that are read one by one

A list is read when each of its parts is, and the values stand in the order of the parts. -/

/-- Parts are all read when each of them is. -/
theorem mapM_eq_some_iff {α β : Type} {read : α → Option β} {parts : List α} {values : List β} :
    parts.mapM read = some values ↔
      List.Forall₂ (fun part value => read part = some value) parts values := by
  induction parts generalizing values with
  | nil =>
    rw [List.mapM_nil]
    constructor
    · rintro ⟨⟩
      exact .nil
    · rintro ⟨⟩
      rfl
  | cons part parts ih =>
    rw [List.mapM_cons]
    constructor
    · intro all
      obtain ⟨value, here, all⟩ := Option.bind_eq_some_iff.mp all
      obtain ⟨others, later, same⟩ := Option.bind_eq_some_iff.mp all
      cases same
      exact .cons here (ih.mp later)
    · rintro (- | ⟨here, later⟩)
      rw [here, ih.mpr later]
      rfl

/-- Each of the parts that are related one by one is related to something. -/
theorem exists_of_mem_forall₂ {α β : Type} {R : α → β → Prop} {parts : List α} {values : List β}
    (related : List.Forall₂ R parts values) : ∀ part ∈ parts, ∃ value, R part value := by
  induction related with
  | nil => exact fun _ => nofun
  | cons here _ ih => exact List.forall_mem_cons.mpr ⟨⟨_, here⟩, ih⟩

namespace Text

/-! ### Numerals

Decimal numerals may have any number of digits and zeros in front.  Hexadecimal ones are read onto a
number that is already there, which is the form in which the recursion goes through; they have upper
and lower case digits, and written ones are in lower case without zeros in front. -/

/-- Whether characters are a **numeral** of a number: ASCII digits, any number of them but none at
all, that denote it. -/
structure Numeral (cs : List Char) (n : Nat) : Prop where
  nonempty : cs ≠ []
  digits : ∀ c ∈ cs, c.isDigit = true
  denotes : Nat.ofDigitChars 10 cs 0 = n

theorem Numeral.unique {cs : List Char} {m n : Nat} (first : Numeral cs m)
    (second : Numeral cs n) : m = n :=
  first.denotes.symm.trans second.denotes

theorem Decimal.read?_eq_some_iff {cs : List Char} {n : Nat} :
    Decimal.read? cs = some n ↔ Numeral cs n := by
  unfold Decimal.read?
  constructor
  · intro read
    obtain ⟨numeral, value⟩ := Option.ite_none_right_eq_some.mp read
    obtain ⟨nonempty, digits⟩ := Bool.and_eq_true_iff.mp numeral
    exact ⟨by simpa using nonempty, List.all_eq_true.mp digits, Option.some.inj value⟩
  · rintro ⟨nonempty, digits, denotes⟩
    have numeral : Decimal.isNumeral cs = true := by
      rw [Decimal.isNumeral, Bool.and_eq_true]
      exact ⟨by simpa using nonempty, List.all_eq_true.mpr digits⟩
    rw [if_pos numeral]
    exact congrArg some denotes

namespace Decimal

/-- A **decimal numeral is read back.** -/
theorem read?_toDigits (n : Nat) : read? (Nat.toDigits 10 n) = some n := by
  have numeral : isNumeral (Nat.toDigits 10 n) = true := by
    rw [isNumeral, Bool.and_eq_true]
    refine ⟨by simp [Nat.toDigits_ne_nil], List.all_eq_true.mpr fun c member => ?_⟩
    exact Nat.isDigit_of_mem_toDigits (by decide) (by decide) member
  rw [read?, if_pos numeral]
  exact congrArg some Nat.ofDigitChars_ten_toDigits

/-- A decimal numeral has no sign. -/
theorem readCount?_toDigits (n : Nat) : readCount? (Nat.toDigits 10 n) = some n := by
  have noSign : ∀ digits, Nat.toDigits 10 n ≠ '+' :: digits := by
    intro digits same
    have sign : '+' ∈ Nat.toDigits 10 n := same ▸ List.mem_cons_self
    exact absurd (Nat.isDigit_of_mem_toDigits (by decide) (by decide) sign) (by decide)
  rw [readCount?]
  · exact read?_toDigits n
  · exact noSign

/-- Numbers with the same decimal digits are the same. -/
theorem toDigits_inj {m n : Nat} (same : Nat.toDigits 10 m = Nat.toDigits 10 n) : m = n := by
  have read := read?_toDigits m
  rw [same, read?_toDigits] at read
  exact (Option.some.inj read).symm

end Decimal

namespace Hexadecimal

theorem digit?_digitChar {d : Nat} (isDigit : d < 16) : digit? (Nat.digitChar d) = some d := by
  have table : ∀ d < 16, digit? (Nat.digitChar d) = some d := by decide
  exact table d isDigit

theorem readOnto?_append (total : Nat) (front back : List Char) :
    readOnto? total (front ++ back) =
      (readOnto? total front).bind fun total => readOnto? total back := by
  induction front generalizing total with
  | nil => rfl
  | cons c front ih =>
    rw [List.cons_append, readOnto?, readOnto?]
    cases digit? c with
    | none => rfl
    | some d => exact ih (16 * total + d)

/-- A **hexadecimal numeral is read back.**  By induction on the number of its digits. -/
theorem readOnto?_digits (n : Nat) : readOnto? 0 (digits n) = some n := by
  unfold digits
  induction n using Nat.base_induction 16 (by decide) with
  | single m small =>
    rw [Nat.toDigits_of_lt_base small, readOnto?, digit?_digitChar small]
    show readOnto? (16 * 0 + m) [] = some m
    rw [readOnto?, Nat.mul_zero, Nat.zero_add]
  | digit m d small positive ih =>
    rw [← Nat.toDigits_append_toDigits (by decide) positive small, readOnto?_append, ih,
      Nat.toDigits_of_lt_base small, Option.bind_some, readOnto?, digit?_digitChar small]
    rfl

/-- Whether characters are a **hexadecimal numeral** of a number. -/
def Numeral (cs : List Char) (n : Nat) : Prop :=
  ∃ ds, List.Forall₂ (fun c d => digit? c = some d) cs ds ∧
    ds.foldl (fun total d => 16 * total + d) 0 = n

theorem readOnto?_eq_some_iff {total n : Nat} {cs : List Char} :
    readOnto? total cs = some n ↔
      ∃ ds, List.Forall₂ (fun c d => digit? c = some d) cs ds ∧
        ds.foldl (fun total d => 16 * total + d) total = n := by
  induction cs generalizing total with
  | nil =>
    rw [readOnto?]
    constructor
    · rintro ⟨⟩
      exact ⟨[], .nil, rfl⟩
    · rintro ⟨_, ⟨⟩, rfl⟩
      rfl
  | cons c cs ih =>
    rw [readOnto?]
    constructor
    · intro read
      obtain ⟨d, isDigit, rest⟩ := Option.bind_eq_some_iff.mp read
      obtain ⟨ds, digits, value⟩ := ih.mp rest
      exact ⟨d :: ds, .cons isDigit digits, value⟩
    · rintro ⟨_, isDigit | ⟨isDigit, digits⟩, value⟩
      rw [isDigit]
      exact ih.mpr ⟨_, digits, value⟩

theorem digit?_lt {c : Char} {d : Nat} (isDigit : digit? c = some d) : d < 16 := by
  unfold digit? at isDigit
  split_ifs at isDigit with decimal lower upper
  · have most : c.toNat ≤ 57 := (Char.isDigit_iff_toNat.mp decimal).2
    obtain rfl := Option.some.inj isDigit
    show c.toNat - 48 < 16
    omega
  · have most : c.toNat ≤ 102 := lower.2
    obtain rfl := Option.some.inj isDigit
    show c.toNat - 97 + 10 < 16
    omega
  · have most : c.toNat ≤ 70 := upper.2
    obtain rfl := Option.some.inj isDigit
    show c.toNat - 65 + 10 < 16
    omega

theorem isSome_digit?_of_isDigit {c : Char} (decimal : c.isDigit = true) :
    (digit? c).isSome = true := by
  rw [digit?, if_pos decimal]
  rfl

/-- A numeral of so many digits is less than that power of sixteen. -/
theorem readOnto?_lt {total n : Nat} {cs : List Char} (read : readOnto? total cs = some n) :
    n < (total + 1) * 16 ^ cs.length := by
  induction cs generalizing total with
  | nil =>
    cases read
    simp
  | cons c cs ih =>
    rw [readOnto?] at read
    obtain ⟨d, isDigit, rest⟩ := Option.bind_eq_some_iff.mp read
    have small := digit?_lt isDigit
    calc n
      _ < (16 * total + d + 1) * 16 ^ cs.length := ih rest
      _ ≤ (total + 1) * 16 * 16 ^ cs.length := Nat.mul_le_mul_right _ (by omega)
      _ = (total + 1) * 16 ^ (cs.length + 1) := by rw [Nat.pow_succ', Nat.mul_assoc]

end Hexadecimal

/-! ### Fields

A text is cut at every separator, so it always has one more field than it has separators, and the
empty text has one empty field. -/

/-- Parts one after the other, the first without a separator before it. -/
theorem intercalate_cons {separator first : List Char} (parts : List (List Char)) :
    separator.intercalate (first :: parts) =
      first ++ parts.flatMap fun part => separator ++ part := by
  induction parts generalizing first with
  | nil => simp
  | cons second parts ih => rw [List.intercalate_cons_cons, ih, List.flatMap_cons]; simp

/-- A text without the separator in front of more text belongs to the first field. -/
theorem fields_append {separator : Char} {front : List Char} (free : separator ∉ front)
    (cs : List Char) :
    ∃ first rest, fields separator cs = first :: rest ∧
      fields separator (front ++ cs) = (front ++ first) :: rest := by
  obtain ⟨first, rest, split⟩ := List.exists_cons_of_ne_nil (fields_ne_nil separator cs)
  refine ⟨first, rest, split, ?_⟩
  induction front with
  | nil => exact split
  | cons c front ih =>
    obtain ⟨other, freeRest⟩ := List.ne_and_not_mem_of_not_mem_cons free
    rw [List.cons_append, fields, if_neg (Ne.symm other), ih freeRest]
    rfl

theorem fields_eq_singleton {separator : Char} {cs : List Char} (free : separator ∉ cs) :
    fields separator cs = [cs] := by
  obtain ⟨first, rest, nothing, whole⟩ := fields_append free []
  obtain ⟨rfl, rfl⟩ := List.cons.inj (show [[]] = first :: rest from nothing)
  simpa using whole

/-- **Parts without the separator are the fields** of the text they make. -/
theorem fields_intercalate {separator : Char} {parts : List (List Char)} (some : parts ≠ [])
    (free : ∀ part ∈ parts, separator ∉ part) :
    fields separator ([separator].intercalate parts) = parts := by
  obtain ⟨first, parts, rfl⟩ := List.exists_cons_of_ne_nil some
  obtain ⟨freeFirst, freeParts⟩ := List.forall_mem_cons.mp free
  clear some free
  rw [intercalate_cons]
  induction parts generalizing first with
  | nil => simpa using fields_eq_singleton freeFirst
  | cons second parts ih =>
    obtain ⟨freeSecond, freeRest⟩ := List.forall_mem_cons.mp freeParts
    obtain ⟨empty, rest, split, whole⟩ := fields_append freeFirst
      (separator :: (second ++ parts.flatMap fun part => [separator] ++ part))
    rw [fields, if_pos rfl, ih second freeSecond freeRest] at split
    obtain ⟨rfl, rfl⟩ := List.cons.inj split
    simpa using whole

/-- The fields of a text make it up again. -/
theorem intercalate_fields (separator : Char) (cs : List Char) :
    [separator].intercalate (fields separator cs) = cs := by
  induction cs with
  | nil => rfl
  | cons c cs ih =>
    obtain ⟨first, rest, split⟩ := List.exists_cons_of_ne_nil (fields_ne_nil separator cs)
    rw [split] at ih
    rw [fields, split]
    by_cases same : c = separator
    · rw [if_pos same, List.intercalate_cons_cons, ih, same]
      rfl
    · rw [intercalate_cons] at ih
      rw [if_neg same, intercalate_cons, List.cons_append, ih]

theorem notMem_of_mem_fields {separator : Char} {cs : List Char} :
    ∀ field ∈ fields separator cs, separator ∉ field := by
  induction cs with
  | nil =>
    intro field member
    rw [List.mem_singleton.mp member]
    exact List.not_mem_nil
  | cons c cs ih =>
    obtain ⟨first, rest, split⟩ := List.exists_cons_of_ne_nil (fields_ne_nil separator cs)
    rw [split] at ih
    rw [fields, split]
    by_cases same : c = separator
    · rw [if_pos same]
      exact List.forall_mem_cons.mpr ⟨List.not_mem_nil, ih⟩
    · rw [if_neg same]
      obtain ⟨here, later⟩ := List.forall_mem_cons.mp ih
      refine List.forall_mem_cons.mpr ⟨fun member => ?_, later⟩
      rcases List.mem_cons.mp member with isFirst | inside
      · exact same isFirst.symm
      · exact here inside

/-- The **fields of a text** are the only parts without the separator that make it up. -/
theorem fields_eq_iff {separator : Char} {cs : List Char} {parts : List (List Char)} :
    fields separator cs = parts ↔
      parts ≠ [] ∧ cs = [separator].intercalate parts ∧ ∀ part ∈ parts, separator ∉ part := by
  constructor
  · rintro rfl
    exact ⟨fields_ne_nil separator cs, (intercalate_fields separator cs).symm, notMem_of_mem_fields⟩
  · rintro ⟨filled, rfl, free⟩
    exact fields_intercalate filled free

/-- A character of a list is a separator or stands in a part. -/
theorem mem_intercalate {separator c : Char} {parts : List (List Char)}
    (member : c ∈ [separator].intercalate parts) :
    c = separator ∨ ∃ part ∈ parts, c ∈ part := by
  cases parts with
  | nil => exact absurd member List.not_mem_nil
  | cons first parts =>
    rw [intercalate_cons] at member
    rcases List.mem_append.mp member with inFirst | behind
    · exact .inr ⟨first, List.mem_cons_self, inFirst⟩
    · obtain ⟨part, among, inside⟩ := List.mem_flatMap.mp behind
      rcases List.mem_cons.mp inside with same | inPart
      · exact .inl same
      · exact .inr ⟨part, List.mem_cons_of_mem _ among, inPart⟩

/-- Parts with a separator between the first two. -/
theorem mem_intercalate_cons_cons (separator : Char) (first second : List Char)
    (parts : List (List Char)) :
    separator ∈ [separator].intercalate (first :: second :: parts) := by
  rw [List.intercalate_cons_cons]
  exact List.mem_append_left _ (List.mem_append_right _ List.mem_cons_self)

/-! ### Cuts

A text may also be cut at the first separator, or at the first two that stand side by side.  For the
second one it matters how the text in front ends: a separator there would make the cut one
earlier. -/

/-- What a cut at a doubled separator removes is the two alone. -/
theorem cutAtDouble?_eq_some {separator : Char} {cs before after : List Char}
    (cut : cutAtDouble? separator cs = some (before, after)) :
    cs = before ++ separator :: separator :: after := by
  induction cs generalizing before with
  | nil => cases cut
  | cons c cs ih =>
    cases cs with
    | nil => cases cut
    | cons d cs =>
      rw [cutAtDouble?] at cut
      split at cut
      · next same =>
        cases cut
        rw [same.1, same.2]
        rfl
      · obtain ⟨⟨front, back⟩, inner, same⟩ := Option.map_eq_some_iff.mp cut
        cases same
        rw [ih inner]
        rfl

/-- A text is cut at the first separator. -/
theorem cutAt?_append {separator : Char} {before : List Char} (free : separator ∉ before)
    (after : List Char) :
    cutAt? separator (before ++ separator :: after) = some (before, after) := by
  induction before with
  | nil => rw [List.nil_append, cutAt?, if_pos rfl]
  | cons c before ih =>
    obtain ⟨other, freeRest⟩ := List.ne_and_not_mem_of_not_mem_cons free
    rw [List.cons_append, cutAt?, if_neg (Ne.symm other), ih freeRest]
    rfl

/-- A text without the separator is not cut. -/
theorem cutAt?_eq_none {separator : Char} {cs : List Char} (free : separator ∉ cs) :
    cutAt? separator cs = none := by
  cases cut : cutAt? separator cs with
  | none => rfl
  | some parts =>
    obtain ⟨same, -⟩ := cutAt?_eq_some cut
    rw [same] at free
    exact absurd (List.mem_append_right _ List.mem_cons_self) free

/-- Whether no two separators stand side by side, nor one at the end. -/
def Single (separator : Char) : List Char → Prop
  | [] => True
  | [c] => c ≠ separator
  | c :: d :: cs => (c = separator → d ≠ separator) ∧ Single separator (d :: cs)

/-- A text is cut at the first doubled separator. -/
theorem cutAtDouble?_append {separator : Char} {before : List Char}
    (single : Single separator before) (after : List Char) :
    cutAtDouble? separator (before ++ separator :: separator :: after) = some (before, after) := by
  induction before with
  | nil => rw [List.nil_append, cutAtDouble?, if_pos ⟨rfl, rfl⟩]
  | cons c before ih =>
    cases before with
    | nil =>
      have other : c ≠ separator := single
      rw [List.cons_append, List.nil_append, cutAtDouble?, if_neg fun both => other both.1]
      exact congrArg (Option.map _) (ih trivial)
    | cons d before =>
      obtain ⟨apart, singleRest⟩ := single
      rw [List.cons_append, List.cons_append, cutAtDouble?,
        if_neg fun both => apart both.1 both.2]
      exact congrArg (Option.map _) (ih singleRest)

/-- Without a doubled separator a text is not cut. -/
theorem cutAtDouble?_eq_none {separator : Char} {cs : List Char} (single : Single separator cs) :
    cutAtDouble? separator cs = none := by
  induction cs with
  | nil => rfl
  | cons c cs ih =>
    cases cs with
    | nil => rfl
    | cons d cs =>
      obtain ⟨apart, singleRest⟩ := single
      rw [cutAtDouble?, if_neg fun both => apart both.1 both.2, ih singleRest]
      rfl

/-- A text without separator in front of another one. -/
theorem Single.append {separator : Char} {front cs : List Char} (free : separator ∉ front)
    (single : Single separator cs) : Single separator (front ++ cs) := by
  induction front with
  | nil => exact single
  | cons c front ih =>
    obtain ⟨other, freeRest⟩ := List.ne_and_not_mem_of_not_mem_cons free
    have rest := ih freeRest
    rw [List.cons_append]
    cases whole : front ++ cs with
    | nil => exact Ne.symm other
    | cons d tail =>
      rw [whole] at rest
      exact ⟨fun same => absurd same.symm other, rest⟩

/-- Parts that are not empty keep separators apart. -/
theorem Single.intercalate {separator : Char} {parts : List (List Char)}
    (free : ∀ part ∈ parts, part ≠ [] ∧ separator ∉ part) :
    Single separator ([separator].intercalate parts) := by
  induction parts with
  | nil => trivial
  | cons first parts ih =>
    obtain ⟨⟨-, freeFirst⟩, freeParts⟩ := List.forall_mem_cons.mp free
    cases parts with
    | nil =>
      rw [List.intercalate_singleton, ← List.append_nil first]
      exact Single.append freeFirst trivial
    | cons second parts =>
      have rest := ih freeParts
      rw [List.intercalate_cons_cons, List.append_assoc]
      refine Single.append freeFirst ?_
      obtain ⟨⟨nonempty, freeSecond⟩, -⟩ := List.forall_mem_cons.mp freeParts
      obtain ⟨c, second, rfl⟩ := List.exists_cons_of_ne_nil nonempty
      rw [intercalate_cons, List.cons_append] at rest ⊢
      exact ⟨fun _ same => freeSecond (same ▸ List.mem_cons_self), rest⟩

end Text

end WafRules
