import Mathlib.Data.List.Basic
import WafRules.Json
import WafRules.Proofs.Numerals

/-!
# Reading values off written JSON

Both written forms of a value say the same and differ only in blanks.  They are described here as
one form with a choice of spacing, and a value is recovered from what is written: the first
character tells the kind of the value, an escape tells its character, and a number ends where its
digits do.  So no value is written like another one, whatever text follows it.

A number is the only value whose end shows in the text behind it.  That text is therefore not to
begin with a digit, which a comma, a bracket, a line end or nothing never do.

The two forms are first proved equal to the one form, each by an induction over the value, and from
there on no statement speaks of either.  What is proved of the one form is `Decodes`: if two texts
begin with written values and are equal, then so are the values and what follows them.  Only with
texts that follow does the induction go through, since the items of a list stand one behind the
other; and from that it is a short way to values that are written differently.

## Main Definitions

* `Json.Spacing`, `Json.Spacing.write` — the blanks of a written form, and the form.
* `Json.Decodes` — what is written for a value is that of no other value, whatever follows.

## Main Statements

* `Json.Spacing.decodes_write` — every value is recovered from what is written for it.
* `Json.compact_injective`, `Json.pretty_injective` — different values are written differently.
-/

namespace WafRules.Json

/-- A property of values that lists and objects inherit from the values in them. -/
@[elab_as_elim]
theorem memInduction {motive : Json → Prop} (null : motive .null)
    (bool : ∀ value, motive (.bool value)) (number : ∀ value, motive (.number value))
    (text : ∀ value, motive (.text value))
    (list : ∀ items : List Json, (∀ item ∈ items, motive item) → motive (.list items))
    (object : ∀ fields : List (String × Json), (∀ field ∈ fields, motive field.2) →
      motive (.object fields))
    (json : Json) : motive json :=
  @Json.rec motive (fun items => ∀ item ∈ items, motive item)
    (fun fields => ∀ field ∈ fields, motive field.2) (fun field => motive field.2)
    null bool number text list object
    (by simp) (fun _ _ first rest => List.forall_mem_cons.mpr ⟨first, rest⟩)
    (by simp) (fun _ _ first rest => List.forall_mem_cons.mpr ⟨first, rest⟩)
    (fun _ _ value => value) json

/-! ### One form for both

The form with a parameter.  Its two instances are proved equal to the written forms of the program,
and the rest of the module is about the parameter alone. -/

/-- The blanks of a written form: what stands before a part at a level of indentation, and what
stands between a key and its value. -/
structure Spacing where
  newline : Nat → List Char
  colon : List Char
  /-- No part is set apart by anything but blanks. -/
  blank : ∀ level, ∀ c ∈ newline level, c = ' ' ∨ c = '\n'

namespace Spacing

/-- Parts between brackets. -/
def enclose (spacing : Spacing) (level : Nat) (opening closing : Char)
    (parts : List (List Char)) : List Char :=
  if parts.isEmpty then [opening, closing]
  else
    opening :: spacing.newline (level + 1) ++
      (',' :: spacing.newline (level + 1)).intercalate parts ++ spacing.newline level ++ [closing]

mutual

/-- A value with the blanks of a form. -/
def write (spacing : Spacing) (level : Nat) : Json → List Char
  | null => ['n', 'u', 'l', 'l']
  | bool value => if value then ['t', 'r', 'u', 'e'] else ['f', 'a', 'l', 's', 'e']
  | number value => Nat.toDigits 10 value
  | text value => (quote value).toList
  | list items => spacing.enclose level '[' ']' (writeItems spacing level items)
  | object fields => spacing.enclose level '\x7b' '\x7d' (writeFields spacing level fields)

/-- The items of a list, one level deeper. -/
def writeItems (spacing : Spacing) (level : Nat) : List Json → List (List Char)
  | [] => []
  | item :: items => write spacing (level + 1) item :: writeItems spacing level items

/-- The fields of an object, one level deeper. -/
def writeFields (spacing : Spacing) (level : Nat) : List (String × Json) → List (List Char)
  | [] => []
  | (key, value) :: fields =>
    ((quote key).toList ++ spacing.colon ++ write spacing (level + 1) value) ::
      writeFields spacing level fields

end

/-- A field of an object. -/
def writeField (spacing : Spacing) (level : Nat) (field : String × Json) : List Char :=
  (quote field.1).toList ++ spacing.colon ++ spacing.write level field.2

/-- A **list** with its items written by the same function, one level deeper. -/
theorem write_list (spacing : Spacing) (level : Nat) (items : List Json) :
    spacing.write level (list items) =
      spacing.enclose level '[' ']' (items.map (spacing.write (level + 1))) := by
  have parts : spacing.writeItems level items = items.map (spacing.write (level + 1)) := by
    induction items with
    | nil => rfl
    | cons item items ih => rw [writeItems, ih, List.map_cons]
  rw [write, parts]

/-- An **object** with its fields, one level deeper. -/
theorem write_object (spacing : Spacing) (level : Nat) (fields : List (String × Json)) :
    spacing.write level (object fields) =
      spacing.enclose level '\x7b' '\x7d' (fields.map (spacing.writeField (level + 1))) := by
  have parts : spacing.writeFields level fields = fields.map (spacing.writeField (level + 1)) := by
    induction fields with
    | nil => rfl
    | cons field fields ih =>
      rw [writeFields, ih, List.map_cons]
      rfl
  rw [write, parts]

/-- The form without blanks. -/
def tight : Spacing where
  newline _ := []
  colon := [':']
  blank _ _ member := absurd member List.not_mem_nil

/-- The form with every item and field on a line of its own. -/
def indented : Spacing where
  newline level := (Json.newline level).toList
  colon := [':', ' ']
  blank level c member := by
    rw [Json.newline, String.toList_append] at member
    rcases List.mem_append.mp member with lineFeed | indentation
    · exact .inr (by simpa using lineFeed)
    · rw [String.toList_ofList] at indentation
      exact .inl (List.eq_of_mem_replicate indentation)

end Spacing

/-- The compact forms of items are those of a map.  The written forms recurse into lists by
functions of their own, which this and the next three lemmas do away with. -/
theorem compactItems_eq_map (items : List Json) : compactItems items = items.map compact := by
  induction items with
  | nil => rfl
  | cons item items ih => rw [compactItems, ih, List.map_cons]

theorem compactFields_eq_map (fields : List (String × Json)) :
    compactFields fields = fields.map fun field => quote field.1 ++ ":" ++ field.2.compact := by
  induction fields with
  | nil => rfl
  | cons field fields ih => rw [compactFields, ih, List.map_cons]

theorem prettyItems_eq_map (level : Nat) (items : List Json) :
    prettyItems level items = items.map (prettyAt (level + 1)) := by
  induction items with
  | nil => rfl
  | cons item items ih => rw [prettyItems, ih, List.map_cons]

theorem prettyFields_eq_map (level : Nat) (fields : List (String × Json)) :
    prettyFields level fields =
      fields.map fun field => quote field.1 ++ ": " ++ field.2.prettyAt (level + 1) := by
  induction fields with
  | nil => rfl
  | cons field fields ih => rw [prettyFields, ih, List.map_cons]

/-- A **number** is written with its decimal digits. -/
theorem toList_toString_number (n : Nat) : (toString n).toList = Nat.toDigits 10 n :=
  Nat.toList_repr

/-- The compact form is the form without blanks, at whatever level.  By induction on the value: with
nothing between the parts the level plays no part. -/
theorem toList_compact (json : Json) :
    ∀ level, json.compact.toList = Spacing.tight.write level json := by
  induction json using memInduction with
  | null => intro level; rfl
  | bool value => intro level; cases value <;> rfl
  | number value => intro level; exact toList_toString_number value
  | text value => intro level; rfl
  | list items ih =>
    intro level
    have parts : (compactItems items).map String.toList =
        items.map (Spacing.tight.write (level + 1)) := by
      rw [compactItems_eq_map, List.map_map]
      exact List.map_congr_left fun item member => ih item member (level + 1)
    rw [Spacing.write_list, ← parts, compact, String.toList_append, String.toList_append,
      String.toList_intercalate]
    cases compactItems items <;> simp [Spacing.enclose, Spacing.tight]
  | object fields ih =>
    intro level
    have parts : (compactFields fields).map String.toList =
        fields.map (Spacing.tight.writeField (level + 1)) := by
      rw [compactFields_eq_map, List.map_map]
      refine List.map_congr_left fun field member => ?_
      rw [Function.comp_apply, String.toList_append, String.toList_append,
        ih field member (level + 1)]
      rfl
    rw [Spacing.write_object, ← parts, compact, String.toList_append, String.toList_append,
      String.toList_intercalate]
    cases compactFields fields <;> simp [Spacing.enclose, Spacing.tight]

/-- Parts in a block. -/
theorem toList_block (level : Nat) (opening closing : Char) (parts : List String) :
    (block level (String.singleton opening) (String.singleton closing) parts).toList =
      Spacing.indented.enclose level opening closing (parts.map String.toList) := by
  cases parts with
  | nil => simp [block, Spacing.enclose]
  | cons first parts =>
    rw [block, Spacing.enclose, if_neg (by simp), if_neg (by simp)]
    simp [String.toList_intercalate, Spacing.indented]

/-- The pretty form is the form with indentation.  By induction on the value, for all levels, since
every part is written one level further in. -/
theorem toList_prettyAt (json : Json) :
    ∀ level, (json.prettyAt level).toList = Spacing.indented.write level json := by
  induction json using memInduction with
  | null => intro level; rw [prettyAt]; rfl
  | bool value => intro level; rw [prettyAt]; cases value <;> rfl
  | number value => intro level; rw [prettyAt]; exact toList_toString_number value
  | text value => intro level; rw [prettyAt]; rfl
  | list items ih =>
    intro level
    have parts : (prettyItems level items).map String.toList =
        items.map (Spacing.indented.write (level + 1)) := by
      rw [prettyItems_eq_map, List.map_map]
      exact List.map_congr_left fun item member => ih item member (level + 1)
    rw [Spacing.write_list, ← parts, prettyAt]
    exact toList_block level '[' ']' _
  | object fields ih =>
    intro level
    have parts : (prettyFields level fields).map String.toList =
        fields.map (Spacing.indented.writeField (level + 1)) := by
      rw [prettyFields_eq_map, List.map_map]
      refine List.map_congr_left fun field member => ?_
      rw [Function.comp_apply, String.toList_append, String.toList_append,
        ih field member (level + 1)]
      rfl
    rw [Spacing.write_object, ← parts, prettyAt]
    exact toList_block level '\x7b' '\x7d' _

/-! ### Reading off texts and numbers

The two kinds of values whose written form has an unbounded number of characters of its own.  A text
ends at a quote that no escape covers; a number ends where its digits end, so it is the only value
that needs to know what follows. -/

/-- The letters of short escapes, with their characters. -/
def shortEscapes : List (Char × Char) :=
  [('b', '\x08'), ('f', '\x0c'), ('n', '\n'), ('r', '\r'), ('t', '\t')]

/-- The first character inside double quotes, and the rest of the text. -/
def readEscaped? : List Char → Option (Char × List Char)
  | '\\' :: 'u' :: '0' :: '0' :: high :: low :: cs => do
    return (Char.ofNat (16 * (← Text.Hexadecimal.digit? high) +
      (← Text.Hexadecimal.digit? low)), cs)
  | '\\' :: c :: cs => some ((shortEscapes.lookup c).getD c, cs)
  | '\x22' :: _ => none
  | c :: cs => some (c, cs)
  | [] => none

/-- An **escape tells its character**, whatever follows. -/
theorem readEscaped?_escape (c : Char) (cs : List Char) :
    readEscaped? (escape c ++ cs) = some (c, cs) := by
  unfold escape
  split_ifs with quote backslash backspace formFeed lineFeed carriageReturn tab control
  · subst quote; rfl
  · subst backslash; rfl
  · subst backspace; rfl
  · subst formFeed; rfl
  · subst lineFeed; rfl
  · subst carriageReturn; rfl
  · subst tab; rfl
  · show (Text.Hexadecimal.digit? _).bind _ = _
    rw [Text.Hexadecimal.digit?_digitChar (by omega), Option.bind_some]
    show (Text.Hexadecimal.digit? _).bind _ = _
    rw [Text.Hexadecimal.digit?_digitChar (by omega), Option.bind_some, Nat.div_add_mod,
      Char.ofNat_toNat]
    rfl
  · show readEscaped? (c :: cs) = _
    rw [readEscaped?]
    · exact fun _ _ _ same => absurd same backslash
    · exact fun _ _ same => absurd same backslash
    · exact quote

/-- Escaped characters up to a quote.  By induction on both texts, one character at a time. -/
theorem escaped_append_inj {t u r s : List Char}
    (same : t.flatMap escape ++ '\x22' :: r = u.flatMap escape ++ '\x22' :: s) :
    t = u ∧ r = s := by
  induction t generalizing u with
  | nil =>
    cases u with
    | nil => exact ⟨rfl, (List.cons.inj same).2⟩
    | cons d u =>
      have read := congrArg readEscaped? same
      rw [List.flatMap_cons, List.append_assoc, readEscaped?_escape] at read
      cases read
  | cons c t ih =>
    have read := congrArg readEscaped? same
    rw [List.flatMap_cons, List.append_assoc, readEscaped?_escape] at read
    cases u with
    | nil => cases read
    | cons d u =>
      rw [List.flatMap_cons, List.append_assoc, readEscaped?_escape] at read
      obtain ⟨rfl, rest⟩ := Prod.mk.inj (Option.some.inj read)
      obtain ⟨rfl, rfl⟩ := ih rest
      exact ⟨rfl, rfl⟩

/-- A **text in quotes** ends where it says. -/
theorem quote_append_inj {t u : String} {r s : List Char}
    (same : (quote t).toList ++ r = (quote u).toList ++ s) : t = u ∧ r = s := by
  rw [quote, quote, String.toList_ofList, String.toList_ofList, List.cons_append, List.cons_append,
    List.cons_append, List.cons_append, List.append_assoc, List.append_assoc] at same
  obtain ⟨texts, rests⟩ := escaped_append_inj (List.cons.inj same).2
  exact ⟨String.toList_inj.mp texts, rests⟩

/-- Whether a text does not go on with a digit. -/
def Stops (cs : List Char) : Prop := cs.takeWhile Char.isDigit = []

/-- **Nothing** is no digit. -/
theorem stops_nil : Stops [] := rfl

/-- A text that **begins with another character** than a digit. -/
theorem stops_cons {c : Char} (noDigit : c.isDigit = false) (cs : List Char) : Stops (c :: cs) := by
  rw [Stops, List.takeWhile_cons, noDigit]
  rfl

/-- A **number** ends where its digits do. -/
theorem toDigits_append_inj {m n : Nat} {r s : List Char} (stopsR : Stops r) (stopsS : Stops s)
    (same : Nat.toDigits 10 m ++ r = Nat.toDigits 10 n ++ s) : m = n ∧ r = s := by
  have digits (n : Nat) {r : List Char} (stops : Stops r) :
      (Nat.toDigits 10 n ++ r).takeWhile Char.isDigit = Nat.toDigits 10 n := by
    rw [List.takeWhile_append_of_pos, stops, List.append_nil]
    intro c member
    exact Nat.isDigit_of_mem_toDigits (by decide) (by decide) member
  have numerals : Nat.toDigits 10 m = Nat.toDigits 10 n := by
    rw [← digits m stopsR, same, digits n stopsS]
  rw [numerals] at same
  exact ⟨Text.Decimal.toDigits_inj numerals, List.append_cancel_left same⟩

/-! ### Reading off values

Lists and objects are read part by part.  Behind a part stands a comma or the closing bracket,
possibly with blanks in front, and neither is a digit, so each part is recovered whatever its kind;
and the comma tells whether there is another one. -/

/-- What the first character of a value tells. -/
inductive Kind
  | null | bool (value : Bool) | number | text | list | object

/-- The kind of a value. -/
def kind : Json → Kind
  | .null => .null
  | .bool value => .bool value
  | .number _ => .number
  | .text _ => .text
  | .list _ => .list
  | .object _ => .object

/-- The kind of the values that begin with a character. -/
def Kind.ofInitial? (c : Char) : Option Kind :=
  if c.isDigit then some number
  else if c = 'n' then some null
  else if c = 't' then some (bool true)
  else if c = 'f' then some (bool false)
  else if c = '\x22' then some text
  else if c = '[' then some list
  else if c = '\x7b' then some object
  else none

/-- What is written for a value is that of no other value, whatever follows. -/
def Decodes {α : Type} (write : α → List Char) (value : α) : Prop :=
  ∀ other r s, Stops r → Stops s → write value ++ r = write other ++ s → value = other ∧ r = s

namespace Spacing

variable (spacing : Spacing)

/-- Brackets stand around whatever they enclose. -/
theorem exists_enclose_eq_cons (level : Nat) (opening closing : Char) (parts : List (List Char)) :
    ∃ cs, spacing.enclose level opening closing parts = opening :: cs := by
  unfold enclose
  split
  · exact ⟨_, rfl⟩
  · exact ⟨_, rfl⟩

/-- The **first character of a value tells its kind.** -/
theorem exists_write_eq_cons (level : Nat) (json : Json) :
    ∃ c cs, spacing.write level json = c :: cs ∧ Kind.ofInitial? c = some json.kind := by
  cases json with
  | null => exact ⟨_, _, rfl, rfl⟩
  | bool value => cases value <;> exact ⟨_, _, rfl, rfl⟩
  | number value =>
    have nonempty : Nat.toDigits 10 value ≠ [] := Nat.toDigits_ne_nil
    obtain ⟨c, cs, digits⟩ := List.exists_cons_of_ne_nil nonempty
    have isDigit : c.isDigit = true :=
      Nat.isDigit_of_mem_toDigits (by decide) (by decide) (digits ▸ List.mem_cons_self)
    exact ⟨c, cs, digits, by rw [Kind.ofInitial?, if_pos isDigit]; rfl⟩
  | text value =>
    exact ⟨'\x22', _, by rw [write, quote, String.toList_ofList]; rfl, rfl⟩
  | list items =>
    obtain ⟨cs, brackets⟩ := spacing.exists_enclose_eq_cons level '[' ']' _
    exact ⟨_, cs, (spacing.write_list level items).trans brackets, rfl⟩
  | object fields =>
    obtain ⟨cs, brackets⟩ := spacing.exists_enclose_eq_cons level '\x7b' '\x7d' _
    exact ⟨_, cs, (spacing.write_object level fields).trans brackets, rfl⟩

/-- Values that are written alike are of the same kind. -/
theorem kind_eq_of_write_append_eq {level : Nat} {a b : Json} {r s : List Char}
    (same : spacing.write level a ++ r = spacing.write level b ++ s) : a.kind = b.kind := by
  obtain ⟨c, cs, writtenA, kindA⟩ := spacing.exists_write_eq_cons level a
  obtain ⟨d, ds, writtenB, kindB⟩ := spacing.exists_write_eq_cons level b
  rw [writtenA, writtenB] at same
  obtain ⟨rfl, -⟩ := List.cons.inj same
  exact Option.some.inj (kindA.symm.trans kindB)

/-- The characters that close brackets. -/
def IsClosing (c : Char) : Prop := c = ']' ∨ c = '\x7d'

/-- Blanks in front of a text show in its first character, if they do not leave it as it is. -/
theorem exists_newline_append_eq_cons (level : Nat) (c : Char) (cs : List Char) :
    ∃ d ds, spacing.newline level ++ c :: cs = d :: ds ∧ (d = c ∨ d = ' ' ∨ d = '\n') := by
  cases blanks : spacing.newline level with
  | nil => exact ⟨c, cs, rfl, .inl rfl⟩
  | cons d ds =>
    exact ⟨d, ds ++ c :: cs, rfl, .inr (spacing.blank level d (blanks ▸ List.mem_cons_self))⟩

/-- What follows a part: the other parts, the closing bracket, and the text behind it. -/
def remainder (level : Nat) (closing : Char) (parts : List (List Char)) (r : List Char) :
    List Char :=
  (parts.flatMap fun part => ',' :: spacing.newline (level + 1) ++ part) ++
    (spacing.newline level ++ closing :: r)

/-- What is enclosed is the **first part and what remains** behind it. -/
theorem enclose_cons_append (level : Nat) (opening closing : Char) (first : List Char)
    (parts : List (List Char)) (r : List Char) :
    spacing.enclose level opening closing (first :: parts) ++ r =
      opening :: (spacing.newline (level + 1) ++
        (first ++ spacing.remainder level closing parts r)) := by
  rw [enclose, if_neg (by simp), Text.intercalate_cons, remainder]
  simp

/-- What remains behind a part **begins with a comma** if another part follows. -/
theorem remainder_cons (level : Nat) (closing : Char) (part : List Char)
    (parts : List (List Char)) (r : List Char) :
    spacing.remainder level closing (part :: parts) r =
      ',' :: (spacing.newline (level + 1) ++
        (part ++ spacing.remainder level closing parts r)) := by
  simp [remainder]

/-- Neither a digit nor a comma begins what follows the last part. -/
theorem exists_remainder_nil_eq_cons (level : Nat) {closing : Char} (isClosing : IsClosing closing)
    (r : List Char) :
    ∃ d ds, spacing.remainder level closing [] r = d :: ds ∧ d.isDigit = false ∧ d ≠ ',' := by
  obtain ⟨d, ds, written, initial⟩ := spacing.exists_newline_append_eq_cons level closing r
  refine ⟨d, ds, written, ?_⟩
  rcases initial with rfl | rfl | rfl
  · rcases isClosing with rfl | rfl <;> decide
  · decide
  · decide

/-- No digit begins what remains behind a part, so a **number may stand last** in it. -/
theorem stops_remainder (level : Nat) {closing : Char} (isClosing : IsClosing closing)
    (parts : List (List Char)) (r : List Char) :
    Stops (spacing.remainder level closing parts r) := by
  cases parts with
  | nil =>
    obtain ⟨d, ds, written, noDigit, -⟩ := spacing.exists_remainder_nil_eq_cons level isClosing r
    rw [written]
    exact stops_cons noDigit ds
  | cons part parts =>
    rw [remainder_cons]
    exact stops_cons (by decide) _

section Parts

variable {α : Type} {part : α → List Char} {level : Nat} {closing : Char} {r s : List Char}

/-- The parts after the first.  By induction on the parts: a comma tells that there is one more,
and the part itself where it ends. -/
theorem remainder_inj (isClosing : IsClosing closing) {items others : List α}
    (decodes : ∀ item ∈ items, Decodes part item)
    (same : spacing.remainder level closing (items.map part) r =
      spacing.remainder level closing (others.map part) s) : items = others ∧ r = s := by
  induction items generalizing others with
  | nil =>
    cases others with
    | nil => exact ⟨rfl, (List.cons.inj (List.append_cancel_left same)).2⟩
    | cons other others =>
      obtain ⟨d, ds, written, -, noComma⟩ :=
        spacing.exists_remainder_nil_eq_cons level isClosing r
      rw [List.map_nil, written, List.map_cons, remainder_cons] at same
      exact absurd (List.cons.inj same).1 noComma
  | cons item items ih =>
    obtain ⟨first, rest⟩ := List.forall_mem_cons.mp decodes
    rw [List.map_cons, remainder_cons] at same
    cases others with
    | nil =>
      obtain ⟨d, ds, written, -, noComma⟩ :=
        spacing.exists_remainder_nil_eq_cons level isClosing s
      rw [List.map_nil, written] at same
      exact absurd (List.cons.inj same).1.symm noComma
    | cons other others =>
      rw [List.map_cons, remainder_cons] at same
      have parts := List.append_cancel_left (List.cons.inj same).2
      obtain ⟨rfl, remainders⟩ := first other _ _ (spacing.stops_remainder level isClosing _ _)
        (spacing.stops_remainder level isClosing _ _) parts
      obtain ⟨rfl, rfl⟩ := ih rest remainders
      exact ⟨rfl, rfl⟩

/-- **Parts between brackets** are recovered if each of them is, and none begins like the end.  The
first character behind the opening bracket tells whether there is a part at all, and from then on
each part is recovered together with what is behind it. -/
theorem enclose_append_inj (isClosing : IsClosing closing) {opening : Char}
    {items others : List α} (decodes : ∀ item ∈ items, Decodes part item)
    (begins : ∀ item, ∃ c cs, part item = c :: cs ∧ ¬ IsClosing c)
    (same : spacing.enclose level opening closing (items.map part) ++ r =
      spacing.enclose level opening closing (others.map part) ++ s) :
    items = others ∧ r = s := by
  -- a first part, or the blanks before it, cannot be taken for the end
  have noFirst {item : α} {rest r : List Char} :
      closing :: r ≠ spacing.newline (level + 1) ++ (part item ++ rest) := by
    intro first
    obtain ⟨c, cs, written, noEnd⟩ := begins item
    obtain ⟨d, ds, whole, initial⟩ :=
      spacing.exists_newline_append_eq_cons (level + 1) c (cs ++ rest)
    rw [written, List.cons_append, whole] at first
    obtain ⟨rfl, -⟩ := List.cons.inj first
    rcases initial with rfl | rfl | rfl
    · exact noEnd isClosing
    · exact absurd isClosing (by unfold IsClosing; decide)
    · exact absurd isClosing (by unfold IsClosing; decide)
  cases items with
  | nil =>
    cases others with
    | nil => exact ⟨rfl, (List.cons.inj (List.cons.inj same).2).2⟩
    | cons other others =>
      rw [List.map_cons, enclose_cons_append] at same
      exact absurd (List.cons.inj same).2 noFirst
  | cons item items =>
    obtain ⟨first, rest⟩ := List.forall_mem_cons.mp decodes
    rw [List.map_cons, enclose_cons_append] at same
    cases others with
    | nil => exact absurd (List.cons.inj same).2.symm noFirst
    | cons other others =>
      rw [List.map_cons, enclose_cons_append] at same
      have parts := List.append_cancel_left (List.cons.inj same).2
      obtain ⟨rfl, remainders⟩ := first other _ _ (spacing.stops_remainder level isClosing _ _)
        (spacing.stops_remainder level isClosing _ _) parts
      obtain ⟨rfl, rfl⟩ := spacing.remainder_inj isClosing rest remainders
      exact ⟨rfl, rfl⟩

end Parts

/-- A written value **does not begin like the end** of a list. -/
theorem write_begins (level : Nat) (json : Json) :
    ∃ c cs, spacing.write level json = c :: cs ∧ ¬ IsClosing c := by
  obtain ⟨c, cs, written, initial⟩ := spacing.exists_write_eq_cons level json
  refine ⟨c, cs, written, ?_⟩
  rintro (rfl | rfl)
  · cases initial
  · cases initial

/-- A written field **does not begin like the end** of an object. -/
theorem writeField_begins (level : Nat) (field : String × Json) :
    ∃ c cs, spacing.writeField level field = c :: cs ∧ ¬ IsClosing c := by
  refine ⟨'\x22', _, by rw [writeField, quote, String.toList_ofList]; rfl, ?_⟩
  rintro (same | same)
  · cases same
  · cases same

/-- A field is recovered if its value is. -/
theorem decodes_writeField {level : Nat} {field : String × Json}
    (value : Decodes (spacing.write level) field.2) :
    Decodes (spacing.writeField level) field := by
  intro other r s stopsR stopsS same
  rw [writeField, writeField, List.append_assoc, List.append_assoc, List.append_assoc,
    List.append_assoc] at same
  obtain ⟨keys, rests⟩ := quote_append_inj same
  obtain ⟨values, rfl⟩ := value other.2 r s stopsR stopsS (List.append_cancel_left rests)
  exact ⟨Prod.ext keys values, rfl⟩

/-- **Every value is recovered** from what is written for it.  By induction on the value; its
first character tells of what kind the other value is. -/
theorem decodes_write (json : Json) : ∀ level, Decodes (spacing.write level) json := by
  induction json using memInduction with
  | null =>
    intro level other r s _ _ same
    have kinds := spacing.kind_eq_of_write_append_eq same
    cases other with
    | null => exact ⟨rfl, List.append_cancel_left same⟩
    | _ => cases kinds
  | bool value =>
    intro level other r s _ _ same
    have kinds := spacing.kind_eq_of_write_append_eq same
    cases other with
    | bool other =>
      obtain rfl := Kind.bool.inj kinds
      exact ⟨rfl, List.append_cancel_left same⟩
    | _ => cases kinds
  | number value =>
    intro level other r s stopsR stopsS same
    have kinds := spacing.kind_eq_of_write_append_eq same
    cases other with
    | number other =>
      obtain ⟨rfl, rests⟩ := toDigits_append_inj stopsR stopsS same
      exact ⟨rfl, rests⟩
    | _ => cases kinds
  | text value =>
    intro level other r s _ _ same
    have kinds := spacing.kind_eq_of_write_append_eq same
    cases other with
    | text other =>
      obtain ⟨rfl, rests⟩ := quote_append_inj same
      exact ⟨rfl, rests⟩
    | _ => cases kinds
  | list items ih =>
    intro level other r s _ _ same
    have kinds := spacing.kind_eq_of_write_append_eq same
    cases other with
    | list others =>
      -- The members are one level further in, so the induction is for all levels.
      rw [write_list, write_list] at same
      obtain ⟨rfl, rests⟩ := spacing.enclose_append_inj (.inl rfl)
        (fun item member => ih item member (level + 1)) (spacing.write_begins (level + 1)) same
      exact ⟨rfl, rests⟩
    | _ => cases kinds
  | object fields ih =>
    intro level other r s _ _ same
    have kinds := spacing.kind_eq_of_write_append_eq same
    cases other with
    | object others =>
      rw [write_object, write_object] at same
      obtain ⟨rfl, rests⟩ := spacing.enclose_append_inj (.inr rfl)
        (fun field member => spacing.decodes_writeField (ih field member (level + 1)))
        (spacing.writeField_begins (level + 1)) same
      exact ⟨rfl, rests⟩
    | _ => cases kinds

/-- A form writes different values differently. -/
theorem write_injective (level : Nat) : Function.Injective (spacing.write level) := by
  intro a b same
  have whole : spacing.write level a ++ [] = spacing.write level b ++ [] := by rw [same]
  exact (spacing.decodes_write a level b [] [] stops_nil stops_nil whole).1

end Spacing

/-! ### Both forms

The two forms differ in what stands between the parts of a value.  In both it is blanks, and the
argument above has asked no more of a form. -/

/-- **Different values have different compact forms.** -/
theorem compact_injective : Function.Injective compact := by
  intro a b same
  apply Spacing.tight.write_injective 0
  rw [← toList_compact, ← toList_compact, same]

/-- **Different values have different pretty forms.** -/
theorem pretty_injective : Function.Injective pretty := by
  intro a b same
  apply Spacing.indented.write_injective 0
  rw [← toList_prettyAt, ← toList_prettyAt]
  exact congrArg String.toList same

end WafRules.Json
