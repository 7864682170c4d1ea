import Mathlib.Data.List.Chain
import WafRules.Proofs.Stretches

/-!
# Strings built piece by piece

A string is built by adding text and references at its end, one after the other.  Text that is added
behind text joins it, and empty text adds nothing, so a string does not remember in how many steps
its text was added: its parts are the pieces that were added, with neighbouring texts joined and
empty ones left out.  Every question to a string is answered from the pieces through this one fact.

## Main Definitions

* `StringPart.joinTexts` — pieces with neighbouring texts joined and empty ones left out.
* `ExpandableString.BuiltFrom` — what a string says that was built from a text and pieces.

## Main Statements

* `ExpandableString.parts_pushAll` — the parts of a string that is built from pieces.
* `ExpandableString.builtFrom_pushAll` — every string that is built says what was added to it.
* `ExpandableString.pushAll_eq_iff` — when two ways to build a string give the same.
-/

namespace WafRules

/-! ### Pieces with their texts joined

Joining is a function on pieces alone.  Its result has the properties that the parts of a string
have, and pieces that already have them are left as they are. -/

namespace StringPart

/-- Parts with a text in front, which joins the first of them if that is text too. -/
def consText (text : String) : List StringPart → List StringPart
  | literal next :: parts => literal (text ++ next) :: parts
  | parts => if text = "" then parts else literal text :: parts

/-- Pieces with **neighbouring texts joined and empty ones left out.** -/
def joinTexts : List StringPart → List StringPart
  | [] => []
  | literal text :: pieces => consText text (joinTexts pieces)
  | reference m :: pieces => reference m :: joinTexts pieces

/-- The two ways in which a text comes in front of parts, and the one in which it does not. -/
theorem consText_cases (text : String) (parts : List StringPart) :
    (∃ next rest, parts = literal next :: rest ∧
      consText text parts = literal (text ++ next) :: rest) ∨
    (text = "" ∧ consText text parts = parts) ∨
    (text ≠ "" ∧ (∀ first ∈ parts.head?, ¬ first.IsLiteral) ∧
      consText text parts = literal text :: parts) := by
  have apart (noLiteral : ∀ first ∈ parts.head?, ¬ first.IsLiteral)
      (other : consText text parts = if text = "" then parts else literal text :: parts) :
      (text = "" ∧ consText text parts = parts) ∨
      (text ≠ "" ∧ (∀ first ∈ parts.head?, ¬ first.IsLiteral) ∧
        consText text parts = literal text :: parts) := by
    by_cases empty : text = ""
    · exact .inl ⟨empty, other.trans (if_pos empty)⟩
    · exact .inr ⟨empty, noLiteral, other.trans (if_neg empty)⟩
  rcases parts with - | ⟨next | m, rest⟩
  · exact .inr (apart nofun rfl)
  · exact .inl ⟨next, rest, rfl, rfl⟩
  · refine .inr (apart ?_ rfl)
    rintro _ ⟨⟩ literal
    exact literal

/-- Parts are apart when neighbours are. -/
theorem separated_iff_isChain {parts : List StringPart} :
    Separated parts ↔ parts.IsChain fun first second => ¬ (first.IsLiteral ∧ second.IsLiteral) := by
  rw [List.isChain_iff_forall_rel_of_append_cons_cons]
  constructor
  · rintro separated first second before after rfl
    exact separated first second ⟨before, after, List.append_assoc _ _ _⟩
  · rintro apart first second ⟨before, after, rfl⟩
    exact apart (List.append_assoc _ _ _)

/-- No two texts are neighbours once they are joined. -/
theorem isChain_joinTexts (pieces : List StringPart) :
    (joinTexts pieces).IsChain fun first second => ¬ (first.IsLiteral ∧ second.IsLiteral) := by
  induction pieces with
  | nil => exact .nil
  | cons piece pieces ih =>
    cases piece with
    | reference m => exact List.isChain_cons.mpr ⟨fun _ _ both => both.1, ih⟩
    | literal text =>
      rw [joinTexts]
      rcases consText_cases text (joinTexts pieces) with
        ⟨next, rest, parts, joined⟩ | ⟨-, joined⟩ | ⟨-, noLiteral, joined⟩
      · rw [parts] at ih
        rw [joined]
        exact List.isChain_cons.mpr (List.isChain_cons.mp ih)
      · rwa [joined]
      · rw [joined]
        exact List.isChain_cons.mpr ⟨fun first isFirst both => noLiteral first isFirst both.2, ih⟩

/-- No text is empty once the empty ones are left out. -/
theorem ne_empty_of_mem_joinTexts {pieces : List StringPart} :
    ∀ part ∈ joinTexts pieces, part ≠ literal "" := by
  induction pieces with
  | nil => exact nofun
  | cons piece pieces ih =>
    cases piece with
    | reference m => exact List.forall_mem_cons.mpr ⟨nofun, ih⟩
    | literal text =>
      rw [joinTexts]
      rcases consText_cases text (joinTexts pieces) with
        ⟨next, rest, parts, joined⟩ | ⟨-, joined⟩ | ⟨nonempty, -, joined⟩
      · rw [parts] at ih
        obtain ⟨filled, others⟩ := List.forall_mem_cons.mp ih
        rw [joined]
        refine List.forall_mem_cons.mpr ⟨fun none => filled ?_, others⟩
        exact congrArg literal (String.append_eq_empty_iff.mp (literal.inj none)).2
      · rwa [joined]
      · rw [joined]
        exact List.forall_mem_cons.mpr ⟨fun none => nonempty (literal.inj none), ih⟩

/-- Joining texts leaves the references as they are. -/
theorem macros_joinTexts (pieces : List StringPart) :
    (joinTexts pieces).filterMap macro? = pieces.filterMap macro? := by
  induction pieces with
  | nil => rfl
  | cons piece pieces ih =>
    cases piece with
    | reference m => exact congrArg (m :: ·) ih
    | literal text =>
      have text_macro (text : String) (parts : List StringPart) :
          (literal text :: parts).filterMap macro? = parts.filterMap macro? := rfl
      rw [joinTexts, text_macro, ← ih]
      rcases consText_cases text (joinTexts pieces) with
        ⟨next, rest, parts, joined⟩ | ⟨-, joined⟩ | ⟨-, -, joined⟩
      · rw [joined, parts, text_macro, text_macro]
      · rw [joined]
      · rw [joined, text_macro]

/-- Nothing is left of pieces that are all empty texts, and of no others. -/
theorem joinTexts_eq_nil_iff {pieces : List StringPart} :
    joinTexts pieces = [] ↔ ∀ piece ∈ pieces, piece = literal "" := by
  induction pieces with
  | nil => exact ⟨fun _ => nofun, fun _ => rfl⟩
  | cons piece pieces ih =>
    rw [List.forall_mem_cons, ← ih]
    cases piece with
    | reference m => exact ⟨nofun, fun none => nomatch none.1⟩
    | literal text =>
      rw [joinTexts, literal.injEq]
      rcases consText_cases text (joinTexts pieces) with
        ⟨next, rest, parts, joined⟩ | ⟨empty, joined⟩ | ⟨nonempty, -, joined⟩
      · rw [joined, parts]
        exact ⟨nofun, fun none => nomatch none.2⟩
      · rw [joined]
        exact ⟨fun none => ⟨empty, none⟩, And.right⟩
      · rw [joined]
        exact ⟨nofun, fun none => absurd none.1 nonempty⟩

theorem macro?_eq_none_iff {piece : StringPart} : piece.macro? = none ↔ piece.IsLiteral := by
  cases piece with
  | literal text => exact ⟨fun _ => trivial, fun _ => rfl⟩
  | reference m => exact ⟨nofun, False.elim⟩

end StringPart

namespace ExpandableString

/-! ### Written forms

A string says what its pieces say, one behind the other, joined or not. -/

theorem render_push (s : ExpandableString) (part : StringPart) :
    (s.push part).render.toList = s.render.toList ++ part.render.toList := by
  obtain ⟨parts⟩ := s
  cases part with
  | reference m =>
    have pushed : push ⟨parts⟩ (.reference m) = ⟨parts ++ [.reference m]⟩ := rfl
    rw [pushed]
    simp [render]
  | literal text =>
    have pushed : push ⟨parts⟩ (.literal text) = pushLiteral ⟨parts⟩ text := rfl
    have said : (StringPart.literal text).render = text := rfl
    rw [pushed, said]
    by_cases none : text = ""
    · simp [none, pushLiteral_empty]
    · rw [pushLiteral_of_ne_empty _ none]
      rcases List.eq_nil_or_concat parts with rfl | ⟨before, last, rfl⟩
      · simp [render, appendText, StringPart.render]
      · rw [List.concat_eq_append]
        cases last with
        | literal other => simp [render, appendText_literal, StringPart.render]
        | reference m => simp [render, appendText_reference, StringPart.render]

theorem render_pushAll (s : ExpandableString) (parts : List StringPart) :
    (s.pushAll parts).render.toList =
      s.render.toList ++ parts.flatMap fun part => part.render.toList := by
  induction parts generalizing s with
  | nil => exact (List.append_nil _).symm
  | cons part parts ih => rw [pushAll_cons, ih, render_push, List.flatMap_cons, List.append_assoc]

theorem render_ofText (text : String) : (ofText text).render = text := by
  rw [← String.toList_inj]
  have pushed : ofText text = empty.push (.literal text) := rfl
  rw [pushed, render_push]
  simp [render, empty, StringPart.render]

/-! ### Parts

The parts of a string that is built from a text and pieces are the joined pieces with the text in
front of them. -/

/-- Texts may be joined before they are added. -/
theorem pushAll_joinTexts (s : ExpandableString) (pieces : List StringPart) :
    s.pushAll (StringPart.joinTexts pieces) = s.pushAll pieces := by
  induction pieces generalizing s with
  | nil => rfl
  | cons piece pieces ih =>
    cases piece with
    | reference m => exact ih (s.pushMacro m)
    | literal text =>
      rw [StringPart.joinTexts]
      show _ = (s.pushLiteral text).pushAll pieces
      rcases StringPart.consText_cases text (StringPart.joinTexts pieces) with
        ⟨next, rest, parts, joined⟩ | ⟨none, joined⟩ | ⟨-, -, joined⟩
      · rw [joined, ← ih, parts]
        show (s.pushLiteral (text ++ next)).pushAll rest =
          ((s.pushLiteral text).pushLiteral next).pushAll rest
        rw [pushLiteral_append]
      · rw [joined, ih, none, pushLiteral_empty]
      · rw [joined]
        exact ih (s.pushLiteral text)

/-- The **parts of a string that is built from pieces** are the pieces, with neighbouring texts
joined and empty ones left out. -/
theorem parts_pushAll (pieces : List StringPart) :
    (empty.pushAll pieces).parts = StringPart.joinTexts pieces := by
  rw [← pushAll_joinTexts]
  have joint : ∀ last ∈ empty.parts.getLast?, ∀ first ∈ (StringPart.joinTexts pieces).head?,
      ¬ (last.IsLiteral ∧ first.IsLiteral) := nofun
  exact pushAll_parts (StringPart.isChain_joinTexts pieces)
    (fun _ => StringPart.ne_empty_of_mem_joinTexts _) joint

/-- The text that a string begins with is its first piece. -/
theorem ofText_pushAll (start : String) (pieces : List StringPart) :
    (ofText start).pushAll pieces = empty.pushAll (.literal start :: pieces) := rfl

/-! ### Questions to a string

Whether a string has references, which ones, and whether it is a plain text are questions about its
parts, so they are questions about the pieces. -/

/-- A string has no references when all its parts are text. -/
theorem hasMacros_eq_false_iff {s : ExpandableString} :
    s.hasMacros = false ↔ s.macros = [] := by
  rw [hasMacros, Bool.not_eq_false', List.isEmpty_iff]

/-- A string whose texts are joined has at most one part if it has no references, so it is known to
be a **text alone** by the number and kind of its parts. -/
theorem asLiteral_eq {s : ExpandableString}
    (apart : s.parts.IsChain fun first second => ¬ (first.IsLiteral ∧ second.IsLiteral)) :
    s.asLiteral = if s.hasMacros then none else some s.render := by
  obtain ⟨parts⟩ := s
  rcases parts with - | ⟨text | m, - | ⟨second, parts⟩⟩
  · rfl
  · simp [asLiteral, hasMacros, macros, StringPart.macro?, render, StringPart.render]
  · obtain ⟨notBoth, -⟩ := List.isChain_cons_cons.mp apart
    cases second with
    | literal other => exact absurd ⟨trivial, trivial⟩ notBoth
    | reference m => rfl
  · rfl
  · rfl

/-- What a string **says that was built** from a text and pieces. -/
structure BuiltFrom (start : String) (pieces : List StringPart) (s : ExpandableString) : Prop where
  /-- No text of it is empty. -/
  filled : ∀ part ∈ s.parts, part ≠ .literal ""
  /-- No two texts of it stand side by side. -/
  separated : StringPart.Separated s.parts
  /-- It is written as the text and the pieces are, one after the other. -/
  render : s.render = start ++ String.join (pieces.map StringPart.render)
  /-- Its references are those of the pieces, in their order. -/
  macros : s.macros = pieces.filterMap StringPart.macro?
  /-- It has references exactly when a piece is one. -/
  hasMacros : s.hasMacros = false ↔ ∀ piece ∈ pieces, piece.IsLiteral
  /-- It is text alone exactly without references, and that text is its written form. -/
  asLiteral : s.asLiteral = if s.hasMacros then none else some s.render
  /-- It is empty exactly when no reference was added and no text but the empty one. -/
  isEmpty : s.isEmpty = true ↔ start = "" ∧ ∀ piece ∈ pieces, piece = .literal ""

/-- **Two ways to build a string** give the same one when they add the same after neighbouring texts
are joined and empty ones are left out. -/
theorem pushAll_eq_iff {start start' : String} {pieces pieces' : List StringPart} :
    (ofText start).pushAll pieces = (ofText start').pushAll pieces' ↔
      StringPart.joinTexts (.literal start :: pieces) =
        StringPart.joinTexts (.literal start' :: pieces') := by
  rw [ofText_pushAll, ofText_pushAll, ← parts_pushAll, ← parts_pushAll, ExpandableString.mk.injEq]

/-- Every **string that is built says what was added to it**, in whatever steps that was done, and
is told apart from others by nothing else.  Its parts are the text it starts with and the pieces,
with texts side by side joined and empty texts left out, so two strings are equal just when that is
the same for both. -/
theorem builtFrom_pushAll (start : String) (pieces : List StringPart) :
    BuiltFrom start pieces ((ofText start).pushAll pieces) ∧
      ∀ (start' : String) (pieces' : List StringPart),
        (ofText start).pushAll pieces = (ofText start').pushAll pieces' ↔
          StringPart.joinTexts (.literal start :: pieces) =
            StringPart.joinTexts (.literal start' :: pieces') := by
  refine ⟨?_, fun start' pieces' => pushAll_eq_iff⟩
  have parts : ((ofText start).pushAll pieces).parts =
      StringPart.joinTexts (.literal start :: pieces) := by
    rw [ofText_pushAll, parts_pushAll]
  have apart := StringPart.isChain_joinTexts (.literal start :: pieces)
  rw [← parts] at apart
  have references : ((ofText start).pushAll pieces).macros =
      pieces.filterMap StringPart.macro? := by
    rw [macros, parts, StringPart.macros_joinTexts]
    rfl
  refine ⟨?_, StringPart.separated_iff_isChain.mpr apart, ?_, references, ?_, asLiteral_eq apart,
    ?_⟩
  · rw [parts]
    exact StringPart.ne_empty_of_mem_joinTexts
  · rw [← String.toList_inj, render_pushAll, render_ofText]
    simp [String.toList_join, List.flatMap_map]
  · rw [hasMacros_eq_false_iff, references, List.filterMap_eq_nil_iff]
    exact forall₂_congr fun piece _ => StringPart.macro?_eq_none_iff
  · rw [isEmpty, List.isEmpty_iff, parts, StringPart.joinTexts_eq_nil_iff, List.forall_mem_cons,
      StringPart.literal.injEq]

end ExpandableString

end WafRules
