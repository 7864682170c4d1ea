import Mathlib.Data.List.Forall2
import WafRules.Proofs.Grammar.Tiling
import WafRules.Proofs.Lookups
import WafRules.Proofs.Numerals
import WafRules.Proofs.Relocation.Lexing

/-!
# Places as lookups

There are two ways to the place of a token.  The lexer of this library carries the place it has
reached along with it and notes it down.  A lexer that walks over byte offsets would ask a line
index instead: once for every token, when it completes the token, and once for the error that stops
it, with the offset at which the token or what is wrong begins.  The questions of such a lexer are
asked of one index, in the order of the tokens, and the last of them may go back to the start of an
argument that is never closed.  Both ways give the same places.

That a lexer which only notes places down reports no place but those it has been at follows from
how it commutes with moving places.  Take a motion that keeps the places of the text and moves all
others: it moves nothing that the lexer is given, so it moves nothing that the lexer reports.

## Main Definitions

* `Lexer.Scan.places` — the places that a scan reports.
* `StretchAt` — an offset at which the stretch of a token begins.

## Main Statements

* `Lexer.exists_prefix_of_mem_places` — they are places of the text.
* `LineIndex.lookupAll_scan` — they are the answers of one line index.
* `LineIndex.lookupAll_tokens` — with the offsets of the stretches of the tokens.
-/

namespace WafRules

open String (utf8Len)

namespace Lexer

/-- The **places that a scan reports,** in order: those of its tokens, and that of the error that
ends them if one does. -/
def Scan.places (scan : Scan) : List Position :=
  scan.tokens.map (fun t => t.position) ++ scan.failure.toList.map fun error => error.position

/-- Moving a scan moves the places that it reports. -/
theorem Scan.places_relocate (f : Position → Position) (scan : Scan) :
    (relocate f scan).places = scan.places.map f := by
  obtain ⟨tokens, failure⟩ := scan
  have moved : (relocate f tokens).map (fun t => t.position) =
      (tokens.map fun t => t.position).map f := by
    show (tokens.map (relocate f)).map (fun t => t.position) = _
    rw [List.map_map, List.map_map]
    rfl
  show (relocate f tokens).map _ ++ (relocate f failure).toList.map _ = _
  rw [moved, places, List.map_append]
  cases failure <;> rfl

/-- A scan **invents no places:** what holds of every place of a text holds of every place that the
scan of the text reports. -/
theorem mem_places_scanFrom {P : Position → Prop} {p : Position} {cs : List Char}
    (reached : ∀ front, front <+: cs → P (p.advance front)) :
    ∀ place ∈ (scanFrom p .lineStart cs).places, P place := by
  classical
  -- this motion keeps the places with the property and no other
  let f (place : Position) : Position := if P place then place else place.next 'x'
  have keeps {place : Position} (holds : P place) : f place = place := if_pos holds
  have kept {place : Position} (same : f place = place) : P place := by
    by_contra fails
    have moved : place.next 'x' = place := (if_neg fails).symm.trans same
    have columns : place.column + 1 = place.column := congrArg Position.column moved
    omega
  have follows (front : List Char) (c : Char) (back : List Char) (split : cs = front ++ c :: back) :
      f ((p.advance front).next c) = (f (p.advance front)).next c := by
    have behind : (p.advance front).next c = p.advance (front ++ [c]) :=
      (p.advance_concat front c).symm
    rw [keeps (reached front ⟨c :: back, split.symm⟩), behind]
    exact keeps (reached _ ⟨back, by rw [split, List.append_assoc]; rfl⟩)
  have moved := scanFrom_relocate_of_follows follows .lineStart
  have start : f p = p := keeps (reached [] List.nil_prefix)
  rw [start] at moved
  have places := congrArg Scan.places moved
  rw [Scan.places_relocate] at places
  intro place member
  have fixed := List.map_inj_left.mp (places.symm.trans (List.map_id _).symm)
  exact kept (fixed place member)

/-- The places that the scan of a text reports are **places of the text.** -/
theorem exists_prefix_of_mem_places {label text : String} {place : Position}
    (member : place ∈ (scan label text).places) :
    ∃ before, before <+: text.toList ∧ place = Position.placeAfter label before := by
  rw [scan_eq_scanFrom] at member
  let IsPlace (place : Position) : Prop :=
    ∃ before, before <+: text.toList ∧ place = Position.placeAfter label before
  have reached (front : List Char) (isPrefix : front <+: text.toList) :
      IsPlace ((Position.start label).advance front) :=
    ⟨front, isPrefix, Position.advance_start label front⟩
  exact mem_places_scanFrom reached place member

end Lexer

/-! ### The offsets of tokens

A token is spelled by a stretch of the text, so its place is that of the offset where the stretch
begins, and this offset is at the border of a character.  The index answers such offsets in any
order, and the order here is that of the tokens. -/

open Grammar (Spells Tiles)

/-- Whether an offset is where the stretch of text begins that a token takes, and the token is at
the place of that offset. -/
def StretchAt (label : String) (text : List Char) (offset : Nat) (t : Token) : Prop :=
  ∃ before taken rest, text = before ++ (taken ++ rest) ∧ offset = utf8Len before ∧
    t.position = Position.placeAfter label before ∧ Spells t taken rest

/-- Tokens that lay out a text behind another have **offsets one behind the other.** -/
theorem Grammar.Tiles.exists_offsets {label : String} {earlier source after : List Char}
    {p : Position} {tokens : List Token} (tiles : Tiles after p tokens source)
    (reached : p = (Position.start label).advance earlier) :
    ∃ offsets : List Nat,
      List.Forall₂ (StretchAt label (earlier ++ (source ++ after))) offsets tokens ∧
      offsets.Pairwise (· ≤ ·) ∧ ∀ offset ∈ offsets, utf8Len earlier ≤ offset := by
  induction tiles generalizing earlier with
  | nil p => exact ⟨[], .nil, .nil, nofun⟩
  | @skip p tokens gap source isGap others ih =>
    have moved : p.advance gap = (Position.start label).advance (earlier ++ gap) := by
      rw [Position.advance_append, reached]
    obtain ⟨offsets, found, ordered, behind⟩ := ih moved
    rw [List.append_assoc, ← List.append_assoc gap] at found
    refine ⟨offsets, found, ordered, fun offset member => ?_⟩
    exact Nat.le_trans (by simp) (behind offset member)
  | @take p t tokens taken source placed spells others ih =>
    have moved : p.advance taken = (Position.start label).advance (earlier ++ taken) := by
      rw [Position.advance_append, reached]
    obtain ⟨offsets, found, ordered, behind⟩ := ih moved
    rw [List.append_assoc, ← List.append_assoc taken] at found
    have later : ∀ offset ∈ offsets, utf8Len earlier ≤ offset := fun offset member =>
      Nat.le_trans (by simp) (behind offset member)
    refine ⟨utf8Len earlier :: offsets, .cons ?_ found, .cons later ordered, ?_⟩
    · refine ⟨earlier, taken, source ++ after, by rw [List.append_assoc], rfl, ?_, spells⟩
      rw [placed, reached, Position.advance_start]
    · exact List.forall_mem_cons.mpr ⟨Nat.le_refl _, later⟩

namespace LineIndex

/-- Whether an offset is the border behind a stretch of a text, and a place is the one there. -/
def BorderAt (label text : String) (offset : Nat) (place : Position) : Prop :=
  ∃ before after, text.toList = before ++ after ∧ offset = utf8Len before ∧
    place = Position.placeAfter label before

/-- Such an offset may be looked up, and the answer is the place. -/
theorem BorderAt.lookup {label text : String} {offset : Nat} {place : Position}
    (border : BorderAt label text offset place) : String.Pos.Raw.IsValid text ⟨offset⟩ ∧
      Position.atOffset (Position.start label).file text offset = place := by
  obtain ⟨before, after, split, rfl, rfl⟩ := border
  have whole : text = String.ofList before ++ String.ofList after := by
    rw [← String.toList_inj, String.toList_append, String.toList_ofList, String.toList_ofList,
      split]
  have ends : String.Pos.Raw.mk (utf8Len before) = (String.ofList before).rawEndPos := by
    refine congrArg String.Pos.Raw.mk ?_
    rw [← String.utf8Len_toList, String.toList_ofList]
  have within : min (utf8Len before) text.utf8ByteSize = utf8Len before := by
    rw [← String.utf8Len_toList, split, String.utf8Len_append]
    exact Nat.min_eq_left (Nat.le_add_right _ _)
  exact ⟨String.Pos.Raw.isValid_iff_exists_append.mpr ⟨_, _, whole, ends⟩,
    Position.atOffset_eq _ split within⟩

/-- Borders **looked up in turn on one index** answer with their places. -/
theorem lookupAll_of_forall₂ {label text : String} {offsets : List Nat} {places : List Position}
    (borders : List.Forall₂ (BorderAt label text) offsets places) :
    (ofText (Position.start label).file text).lookupAll offsets = places := by
  have addresses : ∀ offset ∈ offsets, Addresses text offset := by
    intro offset member
    obtain ⟨place, border⟩ := exists_of_mem_forall₂ borders offset member
    exact .inl border.lookup.1
  rw [lookupAll_eq (remembers_ofText _ text) addresses, ← List.forall₂_eq_eq_eq,
    List.forall₂_map_left_iff]
  exact borders.imp fun offset place border => border.lookup.2

/-- The **places that a scan reports are lookups.**  One index of the text, asked once for every
token and for the error that ends them, answers with their places. -/
theorem lookupAll_scan (label text : String) :
    ∃ offsets : List Nat, (∀ offset ∈ offsets, String.Pos.Raw.IsValid text ⟨offset⟩) ∧
      (ofText (Position.start label).file text).lookupAll offsets =
        (Lexer.scan label text).places := by
  have located : ∀ place ∈ (Lexer.scan label text).places,
      ∃ offset, BorderAt label text offset place := by
    intro place member
    obtain ⟨before, ⟨after, split⟩, same⟩ := Lexer.exists_prefix_of_mem_places member
    exact ⟨utf8Len before, before, after, split.symm, rfl, same⟩
  choose! offset border using located
  have borders : List.Forall₂ (BorderAt label text)
      ((Lexer.scan label text).places.map offset) (Lexer.scan label text).places := by
    rw [List.forall₂_map_left_iff, List.forall₂_same]
    exact border
  refine ⟨_, ?_, lookupAll_of_forall₂ borders⟩
  exact List.forall_mem_map.mpr fun place member => (border place member).lookup.1

/-- The **places of the tokens of a text are lookups** of the offsets at which their stretches
begin, one behind the other. -/
theorem lookupAll_tokens {label text : String} {tokens : List Token}
    (tokenized : tokenize label text = .ok tokens) :
    ∃ offsets : List Nat, List.Forall₂ (StretchAt label text.toList) offsets tokens ∧
      offsets.Pairwise (· ≤ ·) ∧
      (ofText (Position.start label).file text).lookupAll offsets =
        tokens.map fun t => t.position := by
  obtain ⟨layout, fits, source, rfl⟩ := tokenize_eq_ok_iff_layout.mp tokenized
  have tiles := Grammar.tiles_layoutSource (.start label) fits
  rw [source] at tiles
  have start : Position.start label = (Position.start label).advance [] := rfl
  obtain ⟨offsets, found, ordered, -⟩ := tiles.exists_offsets start
  rw [List.append_nil, List.nil_append] at found
  refine ⟨offsets, found, ordered, lookupAll_of_forall₂ ?_⟩
  rw [List.forall₂_map_right_iff]
  refine found.imp fun offset t stretch => ?_
  obtain ⟨before, taken, rest, split, same, place, -⟩ := stretch
  exact ⟨before, taken ++ rest, split, same, place⟩

end LineIndex

end WafRules
