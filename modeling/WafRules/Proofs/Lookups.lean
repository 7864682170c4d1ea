import Mathlib.Data.String.Basic
import Mathlib.Order.Monotone.Basic
import WafRules.LineIndex
import WafRules.Proofs.Place
import WafRules.Proofs.SourceOrder

/-!
# Lookups of offsets

A line index finds a place in two jumps: to a line, by counting the starts of lines, and from the
start of the line or from the last answer along it.  Both are places behind a stretch of the text,
and between them there is no line feed.  That the last answer is such a place is the invariant of a
line index; every lookup at the border of a character keeps it, so no history of lookups is ever
visible in an answer.

The line feeds are counted among the bytes of the text.  No byte of another character has the value
of a line feed, so they are the line feeds among its characters.

## Main Definitions

* `Position.atOffset` — the place of an offset, counted from the start of the text.
* `Landmark.behind` — the landmark behind a stretch of text.
* `LineIndex.Remembers` — the index of a text whose last answer is the landmark behind a stretch.

## Main Statements

* `LineIndex.exists_landmarkBefore` — the landmark that a lookup counts from.
* `LineIndex.locate_eq_behind` — one lookup.
* `LineIndex.lookupAll_ofText` — any sequence of lookups.
-/

namespace WafRules

open String (utf8Len utf8EncodeChar)

/-! ### The place of an offset

An offset counts bytes, a place counts characters.  Cutting the text at an offset is therefore done
on characters by the length of their encoding, and the number of bytes that are line feeds is the
number of characters that are, since the encoding of any other character has no such byte. -/

/-- The characters of a text that end at an offset or before it. -/
def charsBefore (offset : Nat) : List Char → List Char
  | [] => []
  | c :: cs => if c.utf8Size ≤ offset then c :: charsBefore (offset - c.utf8Size) cs else []

/-- The **place of an offset, counted from the start of the text**: its line is one more than the
number of line feeds among the bytes before the offset, its column one more than the number of
characters before the offset on that line.  Offsets past the end count as the end. -/
def Position.atOffset (file : Option String) (text : String) (offset : Nat) : Position :=
  let offset := min offset text.utf8ByteSize
  { file
    line := 1 + (text.toUTF8.data.toList.take offset).count '\n'.toUInt8
    column := 1 + ((charsBefore offset text.toList).reverse.takeWhile (· ≠ '\n')).length }

theorem charsBefore_append {before : List Char} {offset : Nat} (ends : offset = utf8Len before)
    (after : List Char) : charsBefore offset (before ++ after) = before := by
  subst ends
  induction before with
  | nil =>
    cases after with
    | nil => rfl
    | cons c after => exact if_neg (by simpa using Nat.ne_of_gt c.utf8Size_pos)
  | cons c before ih =>
    rw [List.cons_append, charsBefore, String.utf8Len_cons, if_pos (Nat.le_add_left _ _),
      Nat.add_sub_cancel, ih]

/-- Only a line feed has a byte with its value.  All bytes of an encoding of more than one byte have
their highest bit set. -/
theorem count_utf8EncodeChar (c : Char) :
    (utf8EncodeChar c).count '\n'.toUInt8 = if c = '\n' then 1 else 0 := by
  have value : c = '\n' ↔ c.val.toNat = 10 := by
    rw [← Char.val_inj, ← UInt32.toNat_inj]
    rfl
  have other {n : Nat} (high : 128 ≤ n) (byte : n < 256) : UInt8.ofNat n ≠ '\n'.toUInt8 := by
    intro same
    have same := congrArg UInt8.toNat same
    rw [UInt8.toNat_ofNat_of_lt' byte] at same
    have lineFeed : '\n'.toUInt8.toNat = 10 := rfl
    omega
  unfold utf8EncodeChar
  dsimp only
  split
  -- One byte is the code point itself; the bytes of a longer encoding all have the high bit.
  · next small =>
    rw [List.count_singleton]
    by_cases lineFeed : c = '\n'
    · subst lineFeed
      rfl
    · have byte : c.val.toNat < UInt8.size := Nat.lt_of_le_of_lt small (by decide)
      rw [if_neg lineFeed, if_neg]
      intro same
      have same := congrArg UInt8.toNat (beq_iff_eq.mp same)
      rw [UInt8.toNat_ofNat_of_lt' byte] at same
      exact lineFeed (value.mpr same)
  · next large =>
    rw [if_neg (mt value.mp (by omega)), List.count_eq_zero]
    split
    · simp only [List.mem_cons, List.not_mem_nil, or_false, not_or]
      exact ⟨(other (by omega) (by omega)).symm, (other (by omega) (by omega)).symm⟩
    · split
      · simp only [List.mem_cons, List.not_mem_nil, or_false, not_or]
        exact ⟨(other (by omega) (by omega)).symm, (other (by omega) (by omega)).symm,
          (other (by omega) (by omega)).symm⟩
      · simp only [List.mem_cons, List.not_mem_nil, or_false, not_or]
        exact ⟨(other (by omega) (by omega)).symm, (other (by omega) (by omega)).symm,
          (other (by omega) (by omega)).symm, (other (by omega) (by omega)).symm⟩

/-- The line feeds among the bytes of characters are those among the characters. -/
theorem count_utf8Encode (cs : List Char) :
    (cs.flatMap utf8EncodeChar).count '\n'.toUInt8 = cs.count '\n' := by
  induction cs with
  | nil => rfl
  | cons c cs ih =>
    rw [List.flatMap_cons, List.count_append, count_utf8EncodeChar, ih, List.count_cons,
      Nat.add_comm]
    simp only [beq_iff_eq]

theorem length_utf8Encode (cs : List Char) :
    (cs.flatMap utf8EncodeChar).length = utf8Len cs := by
  induction cs with
  | nil => rfl
  | cons c cs ih =>
    rw [List.flatMap_cons, List.length_append, ih, String.length_utf8EncodeChar,
      String.utf8Len_cons, Nat.add_comm]

/-- The **place of an offset between two stretches of a text** is the place behind the first. -/
theorem Position.atOffset_eq (file : Option String) {text : String} {before after : List Char}
    (split : text.toList = before ++ after) {offset : Nat}
    (between : min offset text.utf8ByteSize = utf8Len before) :
    atOffset file text offset = { placeAfter "" before with file } := by
  have bytes : text.toUTF8.data.toList.take (utf8Len before) = before.flatMap utf8EncodeChar := by
    have whole : text.toUTF8.data.toList = text.toList.flatMap utf8EncodeChar := by
      rw [show text.toUTF8 = text.toList.utf8Encode from String.utf8Encode_toList.symm]
      simp [List.utf8Encode]
    rw [whole, split, List.flatMap_append, ← length_utf8Encode, List.take_left]
  unfold atOffset
  rw [between]
  dsimp only
  rw [bytes, count_utf8Encode, split, charsBefore_append rfl]
  rfl

/-! ### The tables of a line index

The two tables are lists of offsets, behind line feeds and of characters.  Both can be cut where the
text is cut, the second part starting at the offset of the cut. -/

theorem lineFeedEnds_append (offset : Nat) (before after : List Char) :
    lineFeedEnds offset (before ++ after) =
      lineFeedEnds offset before ++ lineFeedEnds (offset + utf8Len before) after := by
  induction before generalizing offset with
  | nil => rfl
  | cons c before ih =>
    have place : offset + utf8Len (c :: before) = offset + c.utf8Size + utf8Len before := by
      rw [String.utf8Len_cons]
      omega
    rw [List.cons_append, lineFeedEnds, lineFeedEnds, ih, place]
    split <;> rfl

theorem length_lineFeedEnds (offset : Nat) (cs : List Char) :
    (lineFeedEnds offset cs).length = cs.count '\n' := by
  induction cs generalizing offset with
  | nil => rfl
  | cons c cs ih =>
    rw [lineFeedEnds, List.count_cons]
    split
    · next lineFeed => simp [ih, lineFeed]
    · next other => simp [ih, other]

/-- A line starts behind its line feed, within the text. -/
theorem mem_lineFeedEnds {offset start : Nat} {cs : List Char}
    (member : start ∈ lineFeedEnds offset cs) :
    offset < start ∧ start ≤ offset + utf8Len cs := by
  induction cs generalizing offset with
  | nil => cases member
  | cons c cs ih =>
    have size := c.utf8Size_pos
    rw [String.utf8Len_cons]
    have later (member : start ∈ lineFeedEnds (offset + c.utf8Size) cs) :
        offset < start ∧ start ≤ offset + (utf8Len cs + c.utf8Size) := by
      have := ih member
      omega
    rw [lineFeedEnds] at member
    split at member
    · rcases List.mem_cons.mp member with rfl | member
      · omega
      · exact later member
    · exact later member

theorem charStarts_append (offset : Nat) (before after : List Char) :
    ∃ starts, charStarts offset (before ++ after) =
        starts ++ charStarts (offset + utf8Len before) after ∧
      starts.length = before.length ∧ ∀ b ∈ starts, offset ≤ b ∧ b < offset + utf8Len before := by
  induction before generalizing offset with
  | nil => exact ⟨[], rfl, rfl, nofun⟩
  | cons c before ih =>
    obtain ⟨starts, split, length, within⟩ := ih (offset + c.utf8Size)
    have size := c.utf8Size_pos
    have place : offset + utf8Len (c :: before) = offset + c.utf8Size + utf8Len before := by
      rw [String.utf8Len_cons]
      omega
    refine ⟨offset :: starts, ?_, congrArg (· + 1) length, ?_⟩
    · rw [List.cons_append, charStarts, split, place]
      rfl
    · intro b member
      rw [place]
      rcases List.mem_cons.mp member with rfl | member
      · omega
      · have := within b member
        omega

theorem le_of_mem_charStarts {offset b : Nat} {cs : List Char} (member : b ∈ charStarts offset cs) :
    offset ≤ b := by
  induction cs generalizing offset with
  | nil => exact (List.mem_singleton.mp member).ge
  | cons c cs ih =>
    rcases List.mem_cons.mp member with rfl | member
    · exact le_rfl
    · exact (Nat.le_add_right _ _).trans (ih member)

theorem self_mem_charStarts (offset : Nat) (cs : List Char) : offset ∈ charStarts offset cs := by
  cases cs <;> exact List.mem_cons_self

/-! ### Landmarks

A landmark is a place with its offset.  There are two kinds of landmarks that a lookup may count
from, the start of the line and the last answer, and both are landmarks behind some stretch of the
text; what is counted from there on is the rest of that line. -/

/-- The characters of a stretch behind its last line feed. -/
def lastLine (before : List Char) : List Char := (before.reverse.takeWhile (· ≠ '\n')).reverse

/-- Characters without a line feed go on with the last line. -/
theorem lastLine_append {front line : List Char} (oneLine : '\n' ∉ line) :
    lastLine (front ++ line) = lastLine front ++ line := by
  have goesOn : ∀ c ∈ line.reverse, decide (c ≠ '\n') = true := by
    intro c member
    rw [decide_eq_true_iff]
    rintro rfl
    exact oneLine (List.mem_reverse.mp member)
  rw [lastLine, List.reverse_append, List.takeWhile_append_of_pos goesOn, List.reverse_append,
    List.reverse_reverse, lastLine]

/-- A stretch ends with its last line, in front of which there is nothing or a line feed. -/
theorem exists_lastLine (before : List Char) :
    ∃ front, before = front ++ lastLine before ∧ '\n' ∉ lastLine before ∧
      ∀ c ∈ front.getLast?, c = '\n' := by
  refine ⟨(before.reverse.dropWhile (· ≠ '\n')).reverse, ?_, ?_, ?_⟩
  · rw [lastLine, ← List.reverse_append, List.takeWhile_append_dropWhile, List.reverse_reverse]
  · intro member
    have other := List.mem_takeWhile_imp (List.mem_reverse.mp member)
    exact of_decide_eq_true other rfl
  · intro c last
    rw [List.getLast?_reverse] at last
    have := List.head?_dropWhile_not (· ≠ '\n') before.reverse
    rw [last] at this
    simpa using this

/-- The **landmark behind a stretch** of a text. -/
def Landmark.behind (before : List Char) : Landmark where
  line := before.count '\n'
  offset := utf8Len before
  column := (lastLine before).length

namespace LineIndex

/-- An index of a text **remembers a place of the text**: its tables are those of the text, and its
last answer is the landmark behind a stretch of it. -/
structure Remembers (index : LineIndex) (file : Option String) (text : String) : Prop where
  tables : index = { ofText file text with last := index.last }
  last : ∃ before, before <+: text.toList ∧ index.last = .behind before

theorem remembers_ofText (file : Option String) (text : String) :
    (ofText file text).Remembers file text := ⟨rfl, [], List.nil_prefix, rfl⟩

variable {file : Option String} {text : String} {before after : List Char}

/-- The line of an offset is the number of line feeds before it. -/
theorem lineOf_ofText (file : Option String) (split : text.toList = before ++ after) :
    (ofText file text).lineOf (utf8Len before) = before.count '\n' := by
  have front : ∀ start ∈ lineFeedEnds 0 before, decide (start ≤ utf8Len before) = true := by
    intro start member
    rw [decide_eq_true_iff, ← Nat.zero_add (utf8Len before)]
    exact (mem_lineFeedEnds member).2
  have back : ∀ start ∈ lineFeedEnds (0 + utf8Len before) after,
      ¬ decide (start ≤ utf8Len before) = true := by
    intro start member
    rw [decide_eq_true_iff, Nat.not_le, ← Nat.zero_add (utf8Len before)]
    exact (mem_lineFeedEnds member).1
  rw [lineOf, ofText]
  dsimp only
  rw [split, lineFeedEnds_append, List.countP_cons_of_pos (by simp), List.countP_append,
    List.countP_eq_length.mpr front, List.countP_eq_zero.mpr back, length_lineFeedEnds,
    Nat.add_zero, Nat.add_sub_cancel]

/-- A line starts behind the line feed that ends the one before it. -/
theorem lineStarts_ofText (file : Option String) (split : text.toList = before ++ after)
    (starts : ∀ c ∈ before.getLast?, c = '\n') :
    (ofText file text).lineStarts.getD (before.count '\n') 0 = utf8Len before := by
  rw [ofText]
  dsimp only
  rcases List.eq_nil_or_concat before with rfl | ⟨front, c, rfl⟩
  · rfl
  · rw [List.concat_eq_append] at *
    obtain rfl : c = '\n' := starts c (by simp)
    have ends : lineFeedEnds 0 (front ++ ['\n']) =
        lineFeedEnds 0 front ++ [utf8Len (front ++ ['\n'])] := by
      rw [lineFeedEnds_append, lineFeedEnds, if_pos rfl, lineFeedEnds, Nat.zero_add]
      simp
    rw [split, lineFeedEnds_append, ends, List.append_assoc, List.singleton_append,
      List.count_append, List.count_singleton_self, List.getD_cons_succ,
      List.getD_eq_getElem?_getD, List.getElem?_append_right (length_lineFeedEnds 0 front).le,
      length_lineFeedEnds, Nat.sub_self]
    rfl

/-- Between two places of a text there are the characters of the text between them.  The index
counts the borders of characters between two offsets, and there is one border in front of each
character. -/
theorem charsBetween_ofText (file : Option String) {front line : List Char}
    (split : text.toList = front ++ (line ++ after)) :
    (ofText file text).charsBetween (utf8Len front) (utf8Len (front ++ line)) = line.length := by
  obtain ⟨earlier, cut, -, below⟩ := charStarts_append 0 front (line ++ after)
  obtain ⟨starts, cut', length, within⟩ := charStarts_append (0 + utf8Len front) line after
  have place : 0 + utf8Len front + utf8Len line = utf8Len (front ++ line) := by
    rw [String.utf8Len_append, Nat.zero_add]
  rw [place] at within
  rw [place] at cut'
  rw [Nat.zero_add] at below within
  have boundaries : (ofText file text).boundaries =
      earlier ++ (starts ++ charStarts (utf8Len (front ++ line)) after) := by
    rw [ofText, split, cut, cut']
  have first : utf8Len front ∈ (ofText file text).boundaries := by
    rw [boundaries, ← cut', Nat.zero_add]
    exact List.mem_append_right _ (self_mem_charStarts _ _)
  have last : utf8Len (front ++ line) ∈ (ofText file text).boundaries := by
    rw [boundaries]
    exact List.mem_append_right _ (List.mem_append_right _ (self_mem_charStarts _ _))
  rw [charsBetween, if_pos ⟨first, last⟩, boundaries, List.countP_append, List.countP_append,
    ← length]
  -- The boundaries are those before the first place, those between and those from the second on.
  have none : earlier.countP
      (fun b => decide (utf8Len front ≤ b) && decide (b < utf8Len (front ++ line))) = 0 := by
    rw [List.countP_eq_zero]
    intro b member
    have := (below b member).2
    simp only [Bool.and_eq_true, decide_eq_true_eq]
    omega
  have all : starts.countP
      (fun b => decide (utf8Len front ≤ b) && decide (b < utf8Len (front ++ line))) =
        starts.length := by
    rw [List.countP_eq_length]
    intro b member
    simp only [Bool.and_eq_true, decide_eq_true_eq]
    exact within b member
  have beyond : (charStarts (utf8Len (front ++ line)) after).countP
      (fun b => decide (utf8Len front ≤ b) && decide (b < utf8Len (front ++ line))) = 0 := by
    rw [List.countP_eq_zero]
    intro b member
    have := le_of_mem_charStarts member
    simp only [Bool.and_eq_true, decide_eq_true_eq]
    omega
  rw [none, all, beyond, Nat.zero_add, Nat.add_zero]

/-- Of two stretches from the start of a text the one that ends first is part of the other. -/
theorem isPrefix_of_utf8Len_le {first second cs : List Char} (isPrefix : first <+: cs)
    (isPrefix' : second <+: cs) (le : utf8Len first ≤ utf8Len second) : first <+: second := by
  rcases List.prefix_or_prefix_of_prefix isPrefix isPrefix' with front | ⟨more, rfl⟩
  · exact front
  · rw [String.utf8Len_append] at le
    obtain rfl : more = [] := String.utf8Len_eq_zero.mp (by omega)
    rw [List.append_nil]

/-- The landmark that a **lookup counts from** is a place of the text with no line feed between it
and the offset, whether it is the last answer or the start of the line. -/
theorem exists_landmarkBefore {index : LineIndex} (remembers : index.Remembers file text)
    (split : text.toList = before ++ after) :
    ∃ front line, before = front ++ line ∧ '\n' ∉ line ∧
      index.landmarkBefore (before.count '\n') (utf8Len before) = .behind front := by
  obtain ⟨tables, last, isPrefix, isLast⟩ := remembers
  unfold landmarkBefore
  rw [isLast]
  split
  · next near =>
    obtain ⟨line, rfl⟩ := isPrefix_of_utf8Len_le isPrefix ⟨after, split.symm⟩ near.2
    refine ⟨last, line, rfl, ?_, rfl⟩
    have same : last.count '\n' = (last ++ line).count '\n' := near.1
    rw [List.count_append] at same
    exact List.count_eq_zero.mp (by omega)
  · obtain ⟨front, whole, oneLine, starts⟩ := exists_lastLine before
    have lines : before.count '\n' = front.count '\n' := by
      conv_lhs => rw [whole]
      rw [List.count_append, List.count_eq_zero.mpr oneLine, Nat.add_zero]
    have noLine : lastLine front = [] := by
      rw [lastLine, List.reverse_eq_nil_iff, List.takeWhile_eq_nil_iff]
      intro nonempty
      have first := starts front.reverse[0] (by simp [List.getLast?_eq_getElem?])
      simp [first]
    refine ⟨front, lastLine before, whole, oneLine, ?_⟩
    have split' : text.toList = front ++ (lastLine before ++ after) := by
      rw [split, ← List.append_assoc, ← whole]
    have lineStart := lineStarts_ofText file split' starts
    rw [tables, lines, Landmark.behind, noLine]
    exact congrArg (Landmark.mk _ · 0) lineStart

/-- **One lookup** at the border of a character finds the place behind the text before it. -/
theorem locate_eq_behind {index : LineIndex} (remembers : index.Remembers file text)
    (split : text.toList = before ++ after) :
    index.locate (utf8Len before) = .behind before := by
  have within : utf8Len before ≤ index.size := by
    have size : index.size = utf8Len text.toList := by
      rw [remembers.tables, ofText, String.utf8Len_toList]
    rw [size, split, String.utf8Len_append]
    exact Nat.le_add_right _ _
  have line : index.lineOf (utf8Len before) = before.count '\n' := by
    rw [remembers.tables]
    exact lineOf_ofText file split
  obtain ⟨front, rest, rfl, oneLine, landmark⟩ := exists_landmarkBefore remembers split
  have between : index.charsBetween (utf8Len front) (utf8Len (front ++ rest)) = rest.length := by
    rw [remembers.tables]
    exact charsBetween_ofText file (split.trans (List.append_assoc _ _ _))
  have column : (lastLine front).length + rest.length = (lastLine (front ++ rest)).length := by
    rw [lastLine_append oneLine, List.length_append]
  unfold locate
  dsimp only
  rw [Nat.min_eq_left within, line, landmark]
  exact congrArg (Landmark.mk _ _) ((congrArg (_ + ·) between).trans column)

/-- Whether an offset is the border of a character, or lies at the end of the text or past it. -/
def Addresses (text : String) (offset : Nat) : Prop :=
  String.Pos.Raw.IsValid text ⟨offset⟩ ∨ text.utf8ByteSize ≤ offset

instance (text : String) (offset : Nat) : Decidable (Addresses text offset) :=
  inferInstanceAs (Decidable (_ ∨ _))

/-- The border of a character lies between two stretches of the text. -/
theorem exists_split_of_isValid {offset : Nat} (isValid : String.Pos.Raw.IsValid text ⟨offset⟩) :
    ∃ before after, text.toList = before ++ after ∧ offset = utf8Len before ∧
      min offset text.utf8ByteSize = utf8Len before := by
  obtain ⟨front, back, rfl, place⟩ := String.Pos.Raw.isValid_iff_exists_append.mp isValid
  have same : offset = front.utf8ByteSize := congrArg String.Pos.Raw.byteIdx place
  refine ⟨front.toList, back.toList, String.toList_append, ?_, ?_⟩
  · rw [String.utf8Len_toList, same]
  · rw [String.utf8Len_toList, same, String.utf8ByteSize_append]
    exact Nat.min_eq_left (Nat.le_add_right _ _)

/-- An offset that is looked up counts as one between two stretches of the text. -/
theorem exists_split_of_addresses {offset : Nat} (addresses : Addresses text offset) :
    ∃ before after, text.toList = before ++ after ∧
      min offset text.utf8ByteSize = utf8Len before := by
  rcases addresses with isValid | beyond
  · obtain ⟨before, after, split, -, between⟩ := exists_split_of_isValid isValid
    exact ⟨before, after, split, between⟩
  · exact ⟨text.toList, [], (List.append_nil _).symm, by
      rw [Nat.min_eq_right beyond, String.utf8Len_toList]⟩

/-- A lookup answers with the place of the offset, and **remembers a place of the text** again. -/
theorem lookup_eq {index : LineIndex} (remembers : index.Remembers file text) {offset : Nat}
    (addresses : Addresses text offset) :
    (index.lookup offset).1 = Position.atOffset file text offset ∧
      (index.lookup offset).2.Remembers file text := by
  obtain ⟨before, after, split, between⟩ := exists_split_of_addresses addresses
  have located : index.locate offset = .behind before := by
    have size : index.size = text.utf8ByteSize := by
      rw [remembers.tables]
      rfl
    rw [← locate_eq_behind remembers split, ← between]
    unfold locate
    rw [size, Nat.min_assoc, Nat.min_self]
  have label : index.file = file := by
    rw [remembers.tables]
    rfl
  refine ⟨?_, ?_, before, ⟨after, split.symm⟩, located⟩
  · rw [Position.atOffset_eq file split between, lookup, located, label]
    simp [Landmark.behind, lastLine, Position.placeAfter, Nat.add_comm]
  · exact congrArg (fun known : LineIndex => { known with last := index.locate offset })
      remembers.tables

/-- Lookups on an index that remembers a place. -/
theorem lookupAll_eq {index : LineIndex} (remembers : index.Remembers file text)
    {offsets : List Nat} (addresses : ∀ offset ∈ offsets, Addresses text offset) :
    index.lookupAll offsets = offsets.map (Position.atOffset file text) := by
  induction offsets generalizing index with
  | nil => rfl
  | cons offset offsets ih =>
    obtain ⟨here, later⟩ := List.forall_mem_cons.mp addresses
    obtain ⟨found, remembers'⟩ := lookup_eq remembers here
    rw [lookupAll, List.map_cons, ← found, ← ih remembers' later]

/-- **Lookups answer with the places of their offsets**, in whatever order the offsets come and
whatever has been looked up before, if each is the border of a character or not before the end of
the text; and later borders have later places. -/
theorem lookupAll_ofText (file : Option String) (text : String) {offsets : List Nat}
    (addresses : ∀ offset ∈ offsets, Addresses text offset) :
    (ofText file text).lookupAll offsets = offsets.map (Position.atOffset file text) ∧
      StrictMonoOn (fun offset => (Position.atOffset file text offset).key)
        {offset | String.Pos.Raw.IsValid text ⟨offset⟩} := by
  refine ⟨lookupAll_eq (remembers_ofText file text) addresses, ?_⟩
  intro first isFirst second isSecond earlier
  obtain ⟨before, after, split, rfl, between⟩ := exists_split_of_isValid isFirst
  obtain ⟨before', after', split', rfl, between'⟩ := exists_split_of_isValid isSecond
  obtain ⟨more, rfl⟩ :=
    isPrefix_of_utf8Len_le ⟨after, split.symm⟩ ⟨after', split'.symm⟩ earlier.le
  have nonempty : more ≠ [] := by
    rintro rfl
    rw [List.append_nil] at earlier
    exact lt_irrefl _ earlier
  have later := ((Position.start "").advance before).key_lt_advance nonempty
  rw [← Position.advance_append, Position.advance_start, Position.advance_start] at later
  dsimp only
  rw [Position.atOffset_eq file split between, Position.atOffset_eq file split' between']
  exact later

/-- Lookups across a line feed, back to the start, behind a letter of two bytes and past the end. -/
theorem lookupAll_ofText_accent :
    (∀ offset ∈ [4, 0, 2, 9], Addresses "é\nx" offset) ∧
      (ofText none "é\nx").lookupAll [4, 0, 2, 9] =
        [⟨none, 2, 2⟩, ⟨none, 1, 1⟩, ⟨none, 1, 2⟩, ⟨none, 2, 2⟩] := by
  have addresses : ∀ offset ∈ [4, 0, 2, 9], Addresses "é\nx" offset := by decide
  refine ⟨addresses, ?_⟩
  rw [(lookupAll_ofText none "é\nx" addresses).1]
  decide +kernel

end LineIndex

end WafRules
