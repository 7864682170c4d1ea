import Mathlib.Data.List.Chain
import WafRules.Proofs.Phrases
import WafRules.Proofs.WellFormed.Operands

/-!
# Stretches of an expandable string

An expandable string is read token by token, and literal text is joined to literal text in front of
it.  The parts of the result therefore stand for stretches of tokens: those of one reference, and
between references as many others as there are.

The reader goes from the first token to the last and pushes what it reads onto the string so far.
Division into stretches goes the other way, from the last token to the first, because there it is a
function of what follows: a token joins the stretch behind it or begins one (`Stretch.cons`).  The
two are brought together where a string is read (`ExpandableString.readOnto_exists_cut`).

## Main Definitions

* `Stretch` — a reference, or tokens of literal text.
* `Cut` — how a window is cut into stretches.

## Main Statements

* `ExpandableString.exists_cut` — the parts of a string are those of the stretches of its window.
-/

namespace WafRules

/-- A stretch of the tokens of a string. -/
inductive Stretch
  | text (tokens : List Token)
  | reference (m : MacroRef)

namespace Stretch

/-- The part of a string that a stretch becomes. -/
def part : Stretch → StringPart
  | text tokens => .literal (tokensText tokens)
  | reference m => .reference m

/-- Whether a stretch is literal text. -/
def IsText : Stretch → Prop
  | text _ => True
  | reference _ => False

/-- Stretches behind one more token of literal text, which belongs to the first of them if that is
text. -/
def cons (t : Token) : List Stretch → List Stretch
  | text tokens :: stretches => text (t :: tokens) :: stretches
  | stretches => text [t] :: stretches

theorem cons_nil (t : Token) : cons t [] = [text [t]] := rfl

theorem cons_text (t : Token) (tokens : List Token) (stretches : List Stretch) :
    cons t (text tokens :: stretches) = text (t :: tokens) :: stretches := rfl

theorem cons_reference (t : Token) (m : MacroRef) (stretches : List Stretch) :
    cons t (reference m :: stretches) = text [t] :: reference m :: stretches := rfl

/-- The part of a stretch is literal text **just when the stretch is**. -/
theorem isLiteral_part (stretch : Stretch) : stretch.part.IsLiteral ↔ stretch.IsText := by
  cases stretch <;> exact Iff.rfl

end Stretch

open ExpandableString (startsMacro)

/-- How a window is **cut into stretches**: a reference is one, and tokens that begin no reference
are literal text as long as nothing but such tokens comes between them. -/
inductive Cut : Window → List Stretch → Prop
  | nil {closing : Token} : Cut ⟨[], closing⟩ []
  | reference {w rest : Window} {m : MacroRef} {stretches : List Stretch}
    (starts : startsMacro w = true) (read : MacroRef.read w = .ok (m, rest))
    (cut : Cut rest stretches) : Cut w (.reference m :: stretches)
  | token {t : Token} {tokens : List Token} {closing : Token} {stretches : List Stretch}
    (plain : startsMacro ⟨t :: tokens, closing⟩ = false) (cut : Cut ⟨tokens, closing⟩ stretches) :
    Cut ⟨t :: tokens, closing⟩ (Stretch.cons t stretches)

/-- What stands behind a reference is the end of its window. -/
theorem MacroRef.read_suffix {w rest : Window} {m : MacroRef}
    (read : MacroRef.read w = .ok (m, rest)) : rest.tokens <:+ w.tokens := by
  obtain ⟨⟨name, behind⟩, expected, read⟩ := bind_eq_ok_iff.mp read
  have start := (Window.expect_suffix expected).trans (w.drop_suffix 2)
  dsimp only at read
  split at read
  · have key : Yields (fun result => result.2.tokens <:+ (behind.drop 1).tokens)
        (MacroRef.readKey w.position name.value (behind.drop 1)) := by
      unfold MacroRef.readKey
      cases (behind.drop 1).index? (.punct .curlyClose) with
      | none => exact .error _
      | some close =>
        refine .ite (fun _ => .error _) fun _ => ?_
        split
        · exact .error _
        · exact .ok ((Window.drop_suffix _ 1).trans ((behind.drop 1).splitAt_suffix close))
    exact (key _ read).trans ((Window.drop_suffix _ 1).trans start)
  · obtain ⟨⟨close, last⟩, closed, same⟩ := bind_eq_ok_iff.mp read
    cases same
    exact (Window.expect_suffix closed).trans start

namespace Cut

variable {w : Window} {stretches : List Stretch}

/-- Literal text is in one stretch. -/
theorem isChain (cut : Cut w stretches) :
    stretches.IsChain fun first second => ¬ (first.IsText ∧ second.IsText) := by
  induction cut with
  | nil => exact .nil
  | @reference w rest m stretches _ _ _ ih =>
    cases stretches with
    | nil => exact .singleton _
    | cons first stretches => exact .cons_cons (fun both => both.1) ih
  | @token t tokens closing stretches _ _ ih =>
    rcases stretches with - | ⟨_ | m, stretches⟩
    · exact .singleton _
    · cases stretches with
      | nil => exact .singleton _
      | cons second stretches =>
        obtain ⟨apart, rest⟩ := List.isChain_cons_cons.mp ih
        exact .cons_cons apart rest
    · exact .cons_cons (fun both => both.2) ih

/-- Literal text in front is that of the first tokens. -/
theorem isPrefix_of_text {tokens : List Token} (cut : Cut w (.text tokens :: stretches)) :
    tokens ≠ [] ∧ tokens <+: w.tokens := by
  generalize whole : Stretch.text tokens :: stretches = all at cut
  induction cut generalizing tokens stretches with
  | nil => cases whole
  | reference => cases whole
  | @token t others closing behind _ _ ih =>
    rcases behind with - | ⟨first | m, behind⟩
    · cases whole
      exact ⟨List.cons_ne_nil _ _, (List.prefix_cons_inj t).mpr List.nil_prefix⟩
    · cases whole
      exact ⟨List.cons_ne_nil _ _, (List.prefix_cons_inj t).mpr (ih rfl).2⟩
    · cases whole
      exact ⟨List.cons_ne_nil _ _, (List.prefix_cons_inj t).mpr List.nil_prefix⟩

/-- The tokens of literal text are tokens of the window, one behind the other. -/
theorem isInfix_of_text_mem (cut : Cut w stretches) {tokens : List Token}
    (member : .text tokens ∈ stretches) : tokens ≠ [] ∧ tokens <:+: w.tokens := by
  induction cut generalizing tokens with
  | nil => cases member
  | reference _ read _ ih =>
    obtain ⟨nonempty, inside⟩ := ih (by simpa using member)
    exact ⟨nonempty, inside.trans (MacroRef.read_suffix read).isInfix⟩
  | @token t others closing behind plain cut ih =>
    have later {tokens : List Token} (member : .text tokens ∈ behind) :
        tokens ≠ [] ∧ tokens <:+: t :: others :=
      ⟨(ih member).1, (ih member).2.trans (List.suffix_cons t others).isInfix⟩
    have first {stretches : List Stretch}
        (front : Stretch.cons t behind = .text tokens :: stretches) :
        tokens ≠ [] ∧ tokens <:+: t :: others := by
      obtain ⟨nonempty, inFront⟩ := isPrefix_of_text (front ▸ Cut.token plain cut)
      exact ⟨nonempty, inFront.isInfix⟩
    rcases behind with - | ⟨text | m, behind⟩
    · have same : Stretch.text tokens = .text [t] := List.mem_singleton.mp member
      exact first (congrArg (fun only => [only]) same).symm
    · rcases List.mem_cons.mp member with same | inRest
      · exact first (congrArg (· :: behind) same).symm
      · exact later (List.mem_cons_of_mem _ inRest)
    · rcases List.mem_cons.mp member with same | inRest
      · exact first (congrArg (· :: _) same).symm
      · exact later inRest

end Cut

namespace ExpandableString

/-- A string with more pieces at its end. -/
def pushAll (s : ExpandableString) (parts : List StringPart) : ExpandableString :=
  parts.foldl push s

theorem pushAll_cons (s : ExpandableString) (part : StringPart) (parts : List StringPart) :
    s.pushAll (part :: parts) = (s.push part).pushAll parts := rfl

/-- Pushing a stretch of text pushes its text. -/
theorem push_text (s : ExpandableString) (tokens : List Token) :
    s.push (Stretch.text tokens).part = s.pushLiteral (tokensText tokens) := rfl

theorem pushLiteral_empty (s : ExpandableString) : s.pushLiteral "" = s := rfl

/-- Text that is not empty is put behind the parts, **joined or not**. -/
theorem pushLiteral_of_ne_empty (s : ExpandableString) {text : String} (nonempty : text ≠ "") :
    s.pushLiteral text = ⟨appendText text s.parts⟩ :=
  if_neg fun empty => nonempty (String.isEmpty_iff.mp empty)

/-- Texts that are pushed one after the other are joined. -/
theorem pushLiteral_append (s : ExpandableString) (first second : String) :
    (s.pushLiteral first).pushLiteral second = s.pushLiteral (first ++ second) := by
  by_cases noFirst : first = ""
  · rw [noFirst, pushLiteral_empty, String.empty_append]
  by_cases noSecond : second = ""
  · rw [noSecond, pushLiteral_empty, String.append_empty]
  have both : first ++ second ≠ "" := fun empty => noFirst (String.append_eq_empty_iff.mp empty).1
  rw [pushLiteral_of_ne_empty s noFirst, pushLiteral_of_ne_empty _ noSecond,
    pushLiteral_of_ne_empty s both]
  obtain ⟨parts⟩ := s
  dsimp only
  rcases List.eq_nil_or_concat parts with rfl | ⟨before, last, rfl⟩
  · rfl
  · rw [List.concat_eq_append]
    cases last with
    | literal text =>
      rw [appendText_literal, appendText_literal, appendText_literal, String.append_assoc]
    | reference m =>
      rw [appendText_reference, appendText_reference, List.append_cons, appendText_literal,
        List.append_assoc]
      rfl

/-- A token in front of stretches is pushed **with the stretch it joins**, which is the step that
the two directions have in common. -/
theorem pushAll_cons_text (s : ExpandableString) (t : Token) (stretches : List Stretch) :
    (s.pushLiteral t.value).pushAll (stretches.map Stretch.part) =
      s.pushAll ((Stretch.cons t stretches).map Stretch.part) := by
  have single : tokensText [t] = t.value := by
    rw [← String.toList_inj]
    simp [tokensText]
  rcases stretches with - | ⟨tokens | m, stretches⟩
  · rw [Stretch.cons_nil, List.map_cons, pushAll_cons, push_text, single]
  · have joined : tokensText (t :: tokens) = t.value ++ tokensText tokens := by
      rw [← String.toList_inj]
      simp [tokensText]
    rw [Stretch.cons_text, List.map_cons, List.map_cons, pushAll_cons, pushAll_cons, push_text,
      push_text, pushLiteral_append, joined]
  · rw [Stretch.cons_reference]
    conv_rhs => rw [List.map_cons, pushAll_cons, push_text, single]

/-- What is read behind a string are the **parts of stretches.**  By the recursion of the reader. -/
theorem readOnto_exists_cut {s r : ExpandableString} {w : Window} (read : readOnto s w = .ok r) :
    ∃ stretches, Cut w stretches ∧ r = s.pushAll (stretches.map Stretch.part) := by
  fun_induction readOnto s w with
  | case1 s w starts m rest found ih =>
    obtain ⟨stretches, cut, rfl⟩ := ih read
    exact ⟨_, .reference starts found cut, rfl⟩
  | case2 => cases read
  | case3 s w plain empty =>
    obtain ⟨tokens, closing⟩ := w
    obtain rfl : tokens = [] := empty
    exact ⟨[], .nil, (Except.ok.inj read).symm⟩
  | case4 s w plain t rest tokens ih =>
    obtain ⟨all, closing⟩ := w
    obtain rfl : all = t :: rest := tokens
    obtain ⟨stretches, cut, rfl⟩ := ih read
    exact ⟨_, .token (Bool.eq_false_iff.mpr plain) cut, pushAll_cons_text s t stretches⟩

/-- Pieces that are apart are the parts of the string they make.  Nothing is joined, as no two of
them are text, and none is dropped, as none is empty. -/
theorem pushAll_parts {s : ExpandableString} {parts : List StringPart}
    (apart : parts.IsChain fun first second => ¬ (first.IsLiteral ∧ second.IsLiteral))
    (filled : ∀ part ∈ parts, part ≠ .literal "")
    (joint : ∀ last ∈ s.parts.getLast?, ∀ first ∈ parts.head?,
      ¬ (last.IsLiteral ∧ first.IsLiteral)) :
    (s.pushAll parts).parts = s.parts ++ parts := by
  induction parts generalizing s with
  | nil => exact (List.append_nil _).symm
  | cons first parts ih =>
    obtain ⟨here, later⟩ := List.forall_mem_cons.mp filled
    have pushed : (s.push first).parts = s.parts ++ [first] := by
      cases first with
      | reference m => rfl
      | literal text =>
        have nonempty : text ≠ "" := fun none => here (congrArg StringPart.literal none)
        show (s.pushLiteral text).parts = _
        rw [pushLiteral_of_ne_empty s nonempty]
        obtain ⟨before⟩ := s
        dsimp only at joint ⊢
        rcases List.eq_nil_or_concat before with rfl | ⟨before, last, rfl⟩
        · rfl
        · rw [List.concat_eq_append] at joint ⊢
          cases last with
          | literal other =>
            -- only then would the text be joined to the part in front of it
            exact absurd ⟨trivial, trivial⟩ (joint (.literal other) (by simp) (.literal text) rfl)
          | reference m => rw [appendText_reference, List.append_assoc]; rfl
    rw [pushAll_cons, ih apart.tail later ?_, pushed, List.append_assoc]
    · rfl
    · rw [pushed, List.getLast?_concat]
      rintro _ ⟨⟩ second isSecond both
      obtain ⟨others, rfl⟩ := List.head?_eq_some_iff.mp isSecond
      exact (List.isChain_cons_cons.mp apart).1 both

/-- The **parts of a string** are those of the stretches of its window. -/
theorem exists_cut {w : Window} (solid : w.Solid) {s : ExpandableString}
    (read : ExpandableString.read w = .ok s) :
    ∃ stretches, Cut w stretches ∧ s.parts = stretches.map Stretch.part := by
  obtain ⟨stretches, cut, rfl⟩ := readOnto_exists_cut read
  have apart : (stretches.map Stretch.part).IsChain fun first second =>
      ¬ (first.IsLiteral ∧ second.IsLiteral) := by
    simp only [List.isChain_map, Stretch.isLiteral_part]
    exact cut.isChain
  refine ⟨stretches, cut, (pushAll_parts apart ?_ (by simp [empty])).trans (List.nil_append _)⟩
  refine List.forall_mem_map.mpr ?_
  rintro (tokens | m) member
  · obtain ⟨nonempty, inside⟩ := cut.isInfix_of_text_mem member
    have solidText : Window.Solid ⟨tokens, w.closing⟩ :=
      fun t inText => solid t (inside.subset inText)
    intro none
    exact solidText.text_ne_empty (fun empty => nonempty (List.isEmpty_iff.mp empty))
      (StringPart.literal.inj none)
  · exact nofun

end ExpandableString

end WafRules
