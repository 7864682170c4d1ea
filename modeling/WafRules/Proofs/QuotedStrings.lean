import WafRules.Proofs.ActionTexts
import WafRules.Proofs.EscapedQuotes
import WafRules.Proofs.Pieces
import WafRules.Proofs.References

/-!
# Strings between quotes

A string with references is written as the value of an action between single quotes, which stand
between the double quotes of an argument.  Quotes of its literal text, single or double, are written
with a backslash.  On the way back a pair of a double quote is read by the lexer, and a pair of a
single quote stays in its word, so that the value ends at the quote that closes it, until the
references are found and the literal text is put together.

References contain no quotes, so escaping a string is escaping its literal parts.  Each part is
written and read by itself: its tokens have a division into segments of their own, and the tokens of
all parts have these divisions one behind the other.  Two facts keep the parts apart: between two
literal parts there is a reference, and a reference begins with a percent sign, so that a literal
part in front of it cannot end in one that opens another.

## Main Definitions

* `ExpandableString.Quotable` — the strings that can be written between quotes.
* `quoted` — how their text is written.

## Main Statements

* `ExpandableString.readValue_units` — the tokens of a string are read to the string.
* `Document.parse_quotedAction` — a string survives from a text to its document.
-/

namespace WafRules

open Grammar (Atom bodyTokens StandsInWord)

/-! ### Strings that can be written

Conditions on the parts, each of which excludes what the text could not be read back from: empty
parts, backslashes and line ends, text that would open a reference, and names that are no words. -/

/-- Whether characters are those of a word. -/
def IsWord (cs : List Char) : Prop := cs ≠ [] ∧ ∀ c ∈ cs, StandsInWord c

instance (cs : List Char) : Decidable (IsWord cs) :=
  decidable_of_iff (cs ≠ [] ∧ cs.Forall StandsInWord)
    (and_congr_right fun _ => List.forall_iff_forall_mem)

/-- Whether a character can stand in the name of a member: it is no blank, and neither ends a line,
a text or a reference nor starts a pair or a reference. -/
def StandsInKey (c : Char) : Prop :=
  Text.isBlank c = false ∧ c ∉ ['\n', '\\', '\x22', '\x27', '%', '\x7b', '\x7d']

instance (c : Char) : Decidable (StandsInKey c) := inferInstanceAs (Decidable (_ ∧ _))

/-- A reference to a variable whose name is a word, or to a member of a collection named by one. -/
def MacroRef.Quotable (m : MacroRef) : Prop :=
  match m.collection with
  | none => IsWord m.name.toList
  | some collection =>
    IsWord collection.toList ∧ m.name.toList ≠ [] ∧ ∀ c ∈ m.name.toList, StandsInKey c

/-- Literal text on one line without backslashes, in which no reference starts, or a reference. -/
def StringPart.Quotable : StringPart → Prop
  | literal text => text ≠ "" ∧ '\\' ∉ text.toList ∧ '\n' ∉ text.toList ∧
      ¬ ['%', '\x7b'] <:+: text.toList
  | reference m => m.Quotable

/-- The **strings that can be written between quotes.** -/
structure ExpandableString.Quotable (s : ExpandableString) : Prop where
  parts : ∀ part ∈ s.parts, part.Quotable
  separated : StringPart.Separated s.parts

/-! ### How they are written

Two escapes are applied, one for the single quotes of the value and one for the double quotes of the
argument around it, and they do not meet since each puts its backslash in front of its own
quotes. -/

/-- A text with a backslash before every quote, single or double. -/
def quoted (cs : List Char) : List Char :=
  cs.flatMap fun c => if c = '\x22' ∨ c = '\x27' then ['\\', c] else [c]

/-- A text with a backslash before every single quote. -/
def escapedSingles (cs : List Char) : List Char :=
  cs.flatMap fun c => if c = '\x27' then ['\\', '\x27'] else [c]

/-- The unit that writes a character between quotes. -/
def quotedAtom (c : Char) : Atom := if c = '\x22' ∨ c = '\x27' then .pair c else .char c

theorem escapedSingles_quote (cs : List Char) :
    escapedSingles ('\x27' :: cs) = '\\' :: '\x27' :: escapedSingles cs := rfl

theorem escapedSingles_cons {c : Char} (notQuote : c ≠ '\x27') (cs : List Char) :
    escapedSingles (c :: cs) = c :: escapedSingles cs := by
  simp [escapedSingles, notQuote]

/-- A text without single quotes is left **as it is**. -/
theorem escapedSingles_of_notMem {cs : List Char} (noQuote : '\x27' ∉ cs) :
    escapedSingles cs = cs := by
  induction cs with
  | nil => rfl
  | cons c cs ih =>
    rw [List.mem_cons, not_or] at noQuote
    rw [escapedSingles_cons (Ne.symm noQuote.1), ih noQuote.2]

/-- Single quotes are escaped first, and then double ones. -/
theorem escaped_escapedSingles (cs : List Char) :
    Pattern.escaped (escapedSingles cs) = quoted cs := by
  induction cs with
  | nil => rfl
  | cons c cs ih =>
    by_cases single : c = '\x27'
    · subst single
      rw [escapedSingles_quote, Pattern.escaped_cons (by decide), Pattern.escaped_cons (by decide),
        ih]
      rfl
    · rw [escapedSingles_cons single]
      by_cases double : c = '\x22'
      · subst double
        show '\\' :: '\x22' :: Pattern.escaped (escapedSingles cs) = _
        rw [ih]
        rfl
      · rw [Pattern.escaped_cons double, ih]
        simp [quoted, single, double]

/-- The search for escaped quotes reads a text again. -/
theorem unescapeQuotes_escapedSingles {cs : List Char} (noBackslash : '\\' ∉ cs) :
    ExpandableString.unescapeQuotes (escapedSingles cs) = cs := by
  induction cs with
  | nil => rfl
  | cons c cs ih =>
    rw [List.mem_cons, not_or] at noBackslash
    by_cases single : c = '\x27'
    · subst single
      exact congrArg _ (ih noBackslash.2)
    · rw [escapedSingles_cons single,
        ExpandableString.unescapeQuotes_cons fun both => noBackslash.1 both.1.symm,
        ih noBackslash.2]

/-- Escaping starts no reference.  A backslash is put in front of quotes only, so none comes between
a percent sign and its brace, and none of the two is new. -/
theorem infix_of_escapedSingles {cs : List Char}
    (opens : ['%', '\x7b'] <:+: escapedSingles cs) : ['%', '\x7b'] <:+: cs := by
  induction cs with
  | nil => exact opens
  | cons c cs ih =>
    by_cases single : c = '\x27'
    · subst single
      rw [escapedSingles_quote] at opens
      have later : ['%', '\x7b'] <:+: escapedSingles cs := by
        simpa [List.infix_cons_iff, List.cons_prefix_cons] using opens
      exact List.infix_cons (ih later)
    · rw [escapedSingles_cons single, List.infix_cons_iff] at opens
      rcases opens with first | later
      · obtain ⟨rfl, brace⟩ := List.cons_prefix_cons.mp first
        cases cs with
        | nil => simp [escapedSingles] at brace
        | cons d cs =>
          by_cases single' : d = '\x27'
          · subst single'
            simp [escapedSingles_quote] at brace
          · rw [escapedSingles_cons single'] at brace
            obtain ⟨rfl, -⟩ := List.cons_prefix_cons.mp brace
            exact ⟨[], cs, rfl⟩
      · exact List.infix_cons (ih later)

namespace Pattern

variable {body : List Atom} {cs : List Char}

/-- The **empty text** is written by no units. -/
theorem Writes.nil : Writes [] [] := ⟨rfl, rfl, fun _ => trivial, by simp⟩

/-- A text behind another one that is written between quotes. -/
theorem Writes.quoted (writes : Writes body cs) {text : List Char} (noBackslash : '\\' ∉ text)
    (oneLine : '\n' ∉ text) :
    Writes (text.map quotedAtom ++ body) (escapedSingles text ++ cs) := by
  induction text with
  | nil => exact writes
  | cons c text ih =>
    rw [List.mem_cons, not_or] at noBackslash oneLine
    have rest := ih noBackslash.2 oneLine.2
    by_cases quote : c = '\x22' ∨ c = '\x27'
    · have pairs (after : List Char) : ¬ Grammar.Continues c after := by
        rcases quote with rfl | rfl <;> simp [Grammar.Continues]
      have atom : quotedAtom c = .pair c := if_pos quote
      rw [List.map_cons, atom, List.cons_append]
      rcases quote with rfl | rfl
      · exact rest.cons ['\x22'] rfl rfl (fun after => pairs _) fun _ => nofun
      · exact rest.cons ['\\', '\x27'] rfl rfl (fun after => pairs _) fun _ => nofun
    · have atom : quotedAtom c = .char c := if_neg quote
      rw [not_or] at quote
      rw [List.map_cons, atom, escapedSingles_cons quote.2]
      exact rest.char (Ne.symm oneLine.1) (Ne.symm noBackslash.1) quote.1

end Pattern

/-! ### The tokens of references

A reference is written as it is, and its marks and words are one token each. -/

namespace MacroRef

variable {m : MacroRef} {quoting : Lexer.Quoting} {body : List Atom}

/-- Characters of a word are written **without backslashes**. -/
theorem map_quotedAtom {cs : List Char} (inWord : ∀ c ∈ cs, StandsInWord c) :
    cs.map quotedAtom = cs.map .char := by
  refine List.map_congr_left fun c member => if_neg ?_
  rintro (rfl | rfl)
  · exact (inWord _ member).2.2.2.2 rfl
  · exact absurd (inWord _ member).2.1 (by decide)

/-- The name of a member is written as it is, and its tokens can stand in a reference. -/
theorem bodyTokens_key (opened p : Position) {cs : List Char} (inKey : ∀ c ∈ cs, StandsInKey c) :
    (∀ t ∈ bodyTokens (.quoted opened) p (cs.map quotedAtom), KeyToken t) ∧
      (bodyTokens (.quoted opened) p (cs.map quotedAtom)).flatMap (fun t => t.value.toList) =
        cs := by
  have other {c : Char} (excluded : c ∈ ['\n', '\\', '\x22', '\x27', '%', '\x7b', '\x7d']) :
      c ∉ cs :=
    fun member => (inKey c member).2 excluded
  have writes : Pattern.Writes (cs.map quotedAtom) cs := by
    have writes : Pattern.Writes (cs.map quotedAtom ++ []) (escapedSingles cs ++ []) :=
      Pattern.Writes.nil.quoted (other (by simp)) (other (by simp))
    rwa [List.append_nil, List.append_nil, escapedSingles_of_notMem (other (by simp))] at writes
  have noPunct {t : Token} (member : t ∈ bodyTokens (.quoted opened) p (cs.map quotedAtom))
      {punct : Punct} (excluded : punct.char ∈ ['\n', '\\', '\x22', '\x27', '%', '\x7b', '\x7d']) :
      t.kind ≠ .punct punct :=
    fun isPunct => other excluded (writes.mem_of_punct opened p member isPunct)
  refine ⟨fun t member => ⟨?_, noPunct member (by decide), noPunct member (by decide),
    noPunct member (by decide)⟩, writes.values opened p⟩
  intro isBlanks
  obtain ⟨c, inName, blank⟩ := writes.exists_blank opened p member isBlanks
  rw [(inKey c inName).1] at blank
  cases blank

/-- The tokens of a **reference in front of other units.**  A brace ends it, so no token of the
reference goes on with what stands behind. -/
theorem Quotable.bodyTokens_append (quotable : m.Quotable) (opened p : Position)
    (body : List Atom) :
    ∃ front q, bodyTokens (.quoted opened) p (m.render.toList.map quotedAtom ++ body) =
      front ++ bodyTokens (.quoted opened) q body ∧ m.Spells front := by
  obtain ⟨collection, name⟩ := m
  -- A bare name has to be one token, a word; the key of a member may be any number of tokens.
  cases collection with
  | none =>
    obtain ⟨nonempty, inWord⟩ : IsWord name.toList := quotable
    have units : (MacroRef.render ⟨none, name⟩).toList.map quotedAtom ++ body =
        .char '%' :: .char '\x7b' :: (name.toList.map .char ++ .char '\x7d' :: body) := by
      simp [MacroRef.render, map_quotedAtom inWord, quotedAtom]
    obtain ⟨q, r, tokens⟩ := Grammar.bodyTokens_word_punct (.quoted opened)
      ((p.next '%').next '\x7b') nonempty inWord .curlyClose body
    have close : Punct.curlyClose.char = '\x7d' := rfl
    rw [close] at tokens
    rw [units, Grammar.bodyTokens_punct _ _ (by decide : Punct.ofChar? '%' = some .percent),
      Grammar.bodyTokens_punct _ _ (by decide : Punct.ofChar? '\x7b' = some .curlyOpen), tokens,
      String.ofList_toList]
    exact ⟨[_, _, _, _], r, rfl, @Spells.plain _ _ (Lexer.token .word name _) _ ⟨rfl, rfl⟩ rfl rfl⟩
  | some collection =>
    obtain ⟨⟨nonempty, inWord⟩, someName, inKey⟩ :
        IsWord collection.toList ∧ name.toList ≠ [] ∧ ∀ c ∈ name.toList, StandsInKey c := quotable
    have units : (MacroRef.render ⟨some collection, name⟩).toList.map quotedAtom ++ body =
        .char '%' :: .char '\x7b' :: (collection.toList.map .char ++ .char '.' ::
          (name.toList.map quotedAtom ++ .char '\x7d' :: body)) := by
      simp [MacroRef.render, map_quotedAtom inWord, quotedAtom]
    obtain ⟨q, r, tokens⟩ := Grammar.bodyTokens_word_punct (.quoted opened)
      ((p.next '%').next '\x7b') nonempty inWord .dot
      (name.toList.map quotedAtom ++ .char '\x7d' :: body)
    have dot : Punct.dot.char = '.' := rfl
    rw [dot] at tokens
    rw [units, Grammar.bodyTokens_punct _ _ (by decide : Punct.ofChar? '%' = some .percent),
      Grammar.bodyTokens_punct _ _ (by decide : Punct.ofChar? '\x7b' = some .curlyOpen), tokens,
      String.ofList_toList, Grammar.bodyTokens_append_punct _ _ _
        (by decide : Punct.ofChar? '\x7d' = some .curlyClose)]
    obtain ⟨valid, values⟩ := bodyTokens_key opened r inKey
    have key : tokensText (bodyTokens (.quoted opened) r (name.toList.map quotedAtom)) = name := by
      rw [tokensText, values, String.ofList_toList]
    have someKey : bodyTokens (.quoted opened) r (name.toList.map quotedAtom) ≠ [] := by
      intro none
      rw [none] at values
      exact someName values.symm
    have spells := @Spells.member
      (Lexer.token (.punct .percent) '%'.toString p)
      (Lexer.token (.punct .curlyOpen) '\x7b'.toString (p.next '%'))
      (Lexer.token .word collection ((p.next '%').next '\x7b'))
      (Lexer.token (.punct .dot) '.'.toString q)
      (Lexer.token (.punct .curlyClose) '\x7d'.toString
        (r.advance (Grammar.bodySource (name.toList.map quotedAtom))))
      (bodyTokens (.quoted opened) r (name.toList.map quotedAtom))
      ⟨rfl, rfl⟩ rfl rfl someKey valid rfl
    rw [key] at spells
    refine
      ⟨_, (r.advance (Grammar.bodySource (name.toList.map quotedAtom))).next '\x7d', ?_, spells⟩
    simp only [List.cons_append, List.append_assoc, List.nil_append]

end MacroRef

/-! ### The tokens of strings

Part by part, from the first to the last, with the tokens of the parts behind as a parameter. -/

namespace StringPart

/-- A part as its tokens say it. -/
def escapedPart : StringPart → StringPart
  | literal text => .literal (String.ofList (escapedSingles text.toList))
  | reference m => .reference m

/-- The units that write parts. -/
def units (parts : List StringPart) : List Atom :=
  (parts.flatMap fun part => part.render.toList).map quotedAtom

theorem units_cons (part : StringPart) (parts : List StringPart) :
    units (part :: parts) = part.render.toList.map quotedAtom ++ units parts := by
  simp [units]

/-- An escaped part is **unescaped to itself**. -/
theorem unescapePart_escapedPart {part : StringPart} (quotable : part.Quotable) :
    ExpandableString.unescapePart part.escapedPart = part := by
  cases part with
  | reference m => rfl
  | literal text =>
    obtain ⟨-, noBackslash, -⟩ := quotable
    show literal (String.ofList (ExpandableString.unescapeQuotes
      (String.ofList (escapedSingles text.toList)).toList)) = _
    rw [String.toList_ofList, unescapeQuotes_escapedSingles noBackslash, String.ofList_toList]

end StringPart

/-- Tokens in which no reference starts are literal text. -/
theorem Divides.of_not_opens {tokens : List Token}
    (plain : ∀ rest, rest <:+ tokens → ¬ MacroRef.Opens rest) :
    Divides tokens (tokens.map Segment.text) := by
  induction tokens with
  | nil => exact .nil
  | cons t tokens ih =>
    exact .text (plain _ List.suffix_rfl) (ih fun rest behind =>
      plain rest (behind.trans (List.suffix_cons t tokens)))

namespace ExpandableString

/-- The tokens of literal text are pushed as that text. -/
theorem pushAll_text (s : ExpandableString) (tokens : List Token) :
    s.pushAll ((tokens.map Segment.text).map Segment.part) = s.pushLiteral (tokensText tokens) := by
  induction tokens generalizing s with
  | nil => rfl
  | cons t tokens ih =>
    have joined : tokensText (t :: tokens) = t.value ++ tokensText tokens := by
      rw [← String.toList_inj]
      simp [tokensText]
    rw [joined, ← pushLiteral_append]
    exact ih (s.pushLiteral t.value)

/-- Parts are pushed **one list behind the other**. -/
theorem pushAll_append (s : ExpandableString) (front back : List StringPart) :
    s.pushAll (front ++ back) = (s.pushAll front).pushAll back := List.foldl_append

/-- The tokens of literal text, in which no reference starts. -/
theorem divides_literal (opened p : Position) {cs : List Char} (noBackslash : '\\' ∉ cs)
    (oneLine : '\n' ∉ cs) (plain : ¬ ['%', '\x7b'] <:+: cs) :
    Divides (bodyTokens (.quoted opened) p (cs.map quotedAtom))
        ((bodyTokens (.quoted opened) p (cs.map quotedAtom)).map Segment.text) ∧
      tokensText (bodyTokens (.quoted opened) p (cs.map quotedAtom)) =
        String.ofList (escapedSingles cs) := by
  have writes : Pattern.Writes (cs.map quotedAtom) (escapedSingles cs) := by
    have writes := Pattern.Writes.nil.quoted noBackslash oneLine
    rwa [List.append_nil, List.append_nil] at writes
  have values := writes.values opened p
  refine ⟨Divides.of_not_opens fun rest behind opens => plain (infix_of_escapedSingles ?_),
    congrArg String.ofList values⟩
  obtain ⟨front, same⟩ := behind
  match rest, opens with
  | t :: u :: rest, opens =>
    have char {t : Token} {punct : Punct}
        (member : t ∈ bodyTokens (.quoted opened) p (cs.map quotedAtom))
        (isPunct : t.kind = .punct punct) : t.value.toList = [punct.char] := by
      obtain ⟨-, shape⟩ := writes.holds opened p t member
      rwa [isPunct] at shape
    rw [← same] at char values
    rw [List.flatMap_append, List.flatMap_cons, List.flatMap_cons, char (by simp) opens.1,
      char (by simp) opens.2] at values
    exact ⟨_, _, (List.append_assoc _ _ _).trans values⟩

/-- Literal text is followed by a reference or by nothing, so that its tokens are its own. -/
theorem bodyTokens_literal_append (opened p : Position) (body : List Atom) {parts : List StringPart}
    (first : ∀ part ∈ parts.head?, ¬ part.IsLiteral) :
    ∃ q, bodyTokens (.quoted opened) p (body ++ StringPart.units parts) =
        bodyTokens (.quoted opened) p body ++
          bodyTokens (.quoted opened) q (StringPart.units parts) ∧
      ∀ t ∈ (bodyTokens (.quoted opened) q (StringPart.units parts)).head?,
        t.kind ≠ .punct .curlyOpen := by
  cases parts with
  | nil =>
    refine ⟨p, ?_, fun t none => by cases none⟩
    rw [StringPart.units, List.flatMap_nil, List.map_nil, List.append_nil]
    exact (List.append_nil _).symm
  | cons part parts =>
    cases part with
    | literal text => exact absurd trivial (first _ rfl)
    | reference m =>
      obtain ⟨more, units⟩ :
          ∃ more, StringPart.units (.reference m :: parts) = .char '%' :: more := by
        obtain ⟨collection, name⟩ := m
        cases collection <;>
          simp [StringPart.units, StringPart.render, MacroRef.render, quotedAtom]
      have percent : Punct.ofChar? '%' = some .percent := by decide
      refine ⟨p.advance (Grammar.bodySource body), ?_, ?_⟩
      · rw [units, Grammar.bodyTokens_append_punct _ _ _ percent,
          Grammar.bodyTokens_punct _ _ percent]
      · rw [units, Grammar.bodyTokens_punct _ _ percent]
        rintro _ ⟨⟩ brace
        cases brace

/-- The tokens of parts have a division, and are pushed part by part.  By induction on the parts; a
literal part stands in front of a reference or at the end, and is divided by itself. -/
theorem exists_divides_units (opened : Position) {parts : List StringPart}
    (quotable : ∀ part ∈ parts, part.Quotable)
    (apart : parts.IsChain fun first second => ¬ (first.IsLiteral ∧ second.IsLiteral)) :
    ∀ p, ∃ segments, Divides (bodyTokens (.quoted opened) p (StringPart.units parts)) segments ∧
      ∀ s : ExpandableString, s.pushAll (segments.map Segment.part) =
        s.pushAll (parts.map StringPart.escapedPart) := by
  induction parts with
  | nil => exact fun p => ⟨[], .nil, fun s => rfl⟩
  | cons part parts ih =>
    intro p
    obtain ⟨here, later⟩ := List.forall_mem_cons.mp quotable
    have rest := ih later apart.tail
    rw [StringPart.units_cons]
    cases part with
    | reference m =>
      obtain ⟨front, q, tokens, spells⟩ :=
        MacroRef.Quotable.bodyTokens_append here opened p (StringPart.units parts)
      obtain ⟨segments, division, pushed⟩ := rest q
      have units : StringPart.render (.reference m) = m.render := rfl
      rw [units, tokens]
      exact ⟨_, .reference spells division, fun s => pushed (s.pushMacro m)⟩
    | literal text =>
      obtain ⟨-, noBackslash, oneLine, plain⟩ := here
      -- Behind a literal stands a percent sign or nothing, where no token runs on.
      have first : ∀ part ∈ parts.head?, ¬ part.IsLiteral := by
        intro next isNext isLiteral
        obtain ⟨others, rfl⟩ := List.head?_eq_some_iff.mp isNext
        exact (List.isChain_cons_cons.mp apart).1 ⟨trivial, isLiteral⟩
      obtain ⟨q, tokens, border⟩ :=
        bodyTokens_literal_append opened p (text.toList.map quotedAtom) first
      obtain ⟨divided, said⟩ := divides_literal opened p noBackslash oneLine plain
      obtain ⟨segments, division, pushed⟩ := rest q
      have units : StringPart.render (.literal text) = text := rfl
      rw [units, tokens]
      refine ⟨_, divided.append division border, fun s => ?_⟩
      rw [List.map_append, pushAll_append, pushAll_text, said]
      exact pushed _

/-- The tokens of a **string that can be written** are read to the string.  Escaping, cutting into
tokens and dividing are undone in the opposite order. -/
theorem readValue_units {s : ExpandableString} (quotable : s.Quotable) (opened p : Position)
    (closing : Token) :
    readValue ⟨bodyTokens (.quoted opened) p (StringPart.units s.parts), closing⟩ = .ok s := by
  obtain ⟨parts⟩ := s
  obtain ⟨sound, separated⟩ := quotable
  -- The parts come back escaped, in the form in which they stand in the text; they are still apart
  -- and none is empty, so reading them joins none, and each of them is then unescaped by itself.
  have apart := StringPart.separated_iff_isChain.mp separated
  have isLiteral (part : StringPart) : part.escapedPart.IsLiteral ↔ part.IsLiteral := by
    cases part <;> exact Iff.rfl
  have apart' : (parts.map StringPart.escapedPart).IsChain fun first second =>
      ¬ (first.IsLiteral ∧ second.IsLiteral) := by
    simpa only [List.isChain_map, isLiteral] using apart
  have filled : ∀ part ∈ parts.map StringPart.escapedPart, part ≠ .literal "" := by
    refine List.forall_mem_map.mpr fun part member empty => ?_
    cases part with
    | reference m => cases empty
    | literal text =>
      obtain ⟨nonempty, noBackslash, -⟩ := sound _ member
      have none : escapedSingles text.toList = [] :=
        String.ofList_eq_empty_iff.mp (StringPart.literal.inj empty)
      have unescaped := unescapeQuotes_escapedSingles noBackslash
      rw [none] at unescaped
      exact nonempty (String.toList_eq_nil_iff.mp unescaped.symm)
  obtain ⟨segments, division, pushed⟩ := exists_divides_units opened sound apart p
  have read := read_eq_ok_iff (w := ⟨_, closing⟩) |>.mpr ⟨segments, division, rfl⟩
  refine bind_eq_ok_iff.mpr ⟨_, read, ?_⟩
  have whole : (empty.pushAll (segments.map Segment.part)).parts =
      parts.map StringPart.escapedPart := by
    rw [pushed, pushAll_parts apart' filled (by simp [empty])]
    rfl
  have same : (parts.map StringPart.escapedPart).map unescapePart = parts := by
    rw [List.map_map]
    refine (List.map_congr_left fun part member => ?_).trans (List.map_id _)
    exact StringPart.unescapePart_escapedPart (sound part member)
  rw [whole, same]
  rfl

end ExpandableString

/-! ### Texts

What remains is the way from the tokens to a line with the action in it. -/

namespace StringPart

/-- No single quote of its own stands among the tokens of units that are written between quotes. -/
theorem noQuote_bodyTokens (opened p : Position) (cs : List Char) :
    ∀ t ∈ bodyTokens (.quoted opened) p (cs.map quotedAtom), t.kind ≠ .punct .singleQuote := by
  intro t member isQuote
  obtain ⟨taken, within, -, shape⟩ :=
    (Grammar.spelled_bodyTokens (.quoted opened) p (cs.map quotedAtom)).exists_takes member
  simp only [isQuote] at shape
  obtain ⟨c, -, same⟩ := List.mem_map.mp (within (shape ▸ List.mem_singleton_self _))
  unfold quotedAtom at same
  split at same
  · cases same
  · next notQuote =>
    obtain rfl : c = '\x27' := Atom.char.inj same
    exact notQuote (.inr rfl)

end StringPart

namespace MacroRef

/-- A reference that can be written has neither a backslash nor a line feed in it. -/
theorem Quotable.notMem_render {m : MacroRef} (quotable : m.Quotable) :
    '\\' ∉ m.render.toList ∧ '\n' ∉ m.render.toList := by
  have word {cs : List Char} (inWord : ∀ c ∈ cs, StandsInWord c) : '\\' ∉ cs ∧ '\n' ∉ cs :=
    ⟨fun member => (inWord _ member).2.2.2.1 rfl, fun member => (inWord _ member).2.2.1 rfl⟩
  obtain ⟨collection, name⟩ := m
  cases collection with
  | none =>
    obtain ⟨-, inWord⟩ : IsWord name.toList := quotable
    have name := word inWord
    simp [MacroRef.render, name.1, name.2]
  | some collection =>
    obtain ⟨⟨-, inWord⟩, -, inKey⟩ :
        IsWord collection.toList ∧ name.toList ≠ [] ∧ ∀ c ∈ name.toList, StandsInKey c := quotable
    have collection := word inWord
    have name : '\\' ∉ name.toList ∧ '\n' ∉ name.toList :=
      ⟨fun member => (inKey _ member).2 (by simp), fun member => (inKey _ member).2 (by simp)⟩
    simp [MacroRef.render, collection.1, collection.2, name.1, name.2]

end MacroRef

/-- A string that can be written has **neither backslashes nor line ends** in its text: literal
parts because that is asked of them, references because of what stands in names. -/
theorem ExpandableString.Quotable.notMem_render {s : ExpandableString} (quotable : s.Quotable) :
    '\\' ∉ s.render.toList ∧ '\n' ∉ s.render.toList := by
  have part (part : StringPart) (member : part ∈ s.parts) :
      '\\' ∉ part.render.toList ∧ '\n' ∉ part.render.toList := by
    have sound := quotable.parts part member
    cases part with
    | literal text => exact ⟨sound.2.1, sound.2.2.1⟩
    | reference m => exact MacroRef.Quotable.notMem_render sound
  rw [ExpandableString.render, String.toList_ofList]
  constructor
  · intro member
    obtain ⟨piece, inParts, inside⟩ := List.mem_flatMap.mp member
    exact (part piece inParts).1 inside
  · intro member
    obtain ⟨piece, inParts, inside⟩ := List.mem_flatMap.mp member
    exact (part piece inParts).2 inside

/-- The tokens of an action with a value between single quotes. -/
theorem Action.bodyTokens_quoted (opened p : Position) (keyword : Keyword) (units : List Atom) :
    ∃ name colon opening close q,
      bodyTokens (.quoted opened) p (keyword.spelling.toList.map .char ++ .char Punct.colon.char ::
          .char '\x27' :: (units ++ [.char '\x27'])) =
        name :: colon :: opening :: (bodyTokens (.quoted opened) q units ++ [close]) ∧
      name.kind = .word ∧ name.value = keyword.spelling ∧ name.position = p ∧
      colon.kind = .punct .colon ∧ opening.kind = .punct .singleQuote ∧
      close.kind = .punct .singleQuote := by
  obtain ⟨nonempty, inWord⟩ := keyword.spelling_standsInWord
  obtain ⟨q, r, tokens⟩ := Grammar.bodyTokens_word_punct (.quoted opened) p nonempty inWord .colon
    (.char '\x27' :: (units ++ [.char '\x27']))
  have quote : Punct.ofChar? '\x27' = some .singleQuote := by decide
  rw [Grammar.bodyTokens_punct _ _ quote, Grammar.bodyTokens_append_punct _ _ _ quote,
    String.ofList_toList] at tokens
  exact ⟨_, _, _, _, _, tokens, rfl, rfl, rfl, rfl, rfl, rfl⟩

/-- A **string survives from a text to its document** as the value of an action between single
quotes.  A string can be written like that if its literal parts are apart and hold no backslash, no
line feed and nothing that begins a reference, and if its references have names that are read back
as such. -/
theorem Document.parse_quotedAction (label : String) (which : TextAction) {s : ExpandableString}
    (quotable : s.Quotable) :
    parse label (Action.lineText
        ((Action.Keyword.text which).spelling.toList ++ ':' :: '\x27' ::
          (quoted s.render.toList ++ ['\x27']))) =
      .ok (Action.lineDocument label
        [⟨.text which s, ⟨(Position.start label).file, 1, 12⟩⟩]) := by
  let keyword : Action.Keyword := .text which
  let units : List Atom := s.render.toList.map quotedAtom
  obtain ⟨-, inWord⟩ := keyword.spelling_standsInWord
  obtain ⟨noBackslash, oneLine⟩ := quotable.notMem_render
  have writes : Pattern.Writes (keyword.spelling.toList.map .char ++ .char Punct.colon.char ::
        .char '\x27' :: (units ++ [.char '\x27']))
      (keyword.spelling.toList ++ ':' :: '\x27' :: (escapedSingles s.render.toList ++ ['\x27'])) :=
    ((((Pattern.Writes.nil.punct .singleQuote).quoted noBackslash oneLine).punct
      .singleQuote).punct .colon).word inWord
  have source : Pattern.escaped (keyword.spelling.toList ++ ':' :: '\x27' ::
  -- The value is what stands between the single quotes, and the reader of the value alone decides.
      (escapedSingles s.render.toList ++ ['\x27'])) =
        keyword.spelling.toList ++ ':' :: '\x27' :: (quoted s.render.toList ++ ['\x27']) := by
    rw [Pattern.escaped_append, Pattern.escaped_cons (by decide), Pattern.escaped_cons (by decide),
      Pattern.escaped_append, escaped_escapedSingles, Pattern.escaped_of_notMem fun member => ?_]
    · rfl
    · exact (inWord _ member).2.2.2.2 rfl
  have value (opened p : Position) (name close : Token) : Action.ofValue keyword
      ⟨name, some ⟨bodyTokens (.quoted opened) p units, close⟩⟩ = .ok (.text which s) := by
    have same : units = StringPart.units s.parts := by
      simp [units, StringPart.units, ExpandableString.render]
    show Action.text which <$> ExpandableString.readValue _ = _
    rw [same, ExpandableString.readValue_units quotable]
    rfl
  obtain ⟨closing, parsed⟩ := writes.parse_lineText label
  obtain ⟨name, colon, opening, close, q, tokens, isName, named, placed, isColon, opens, closes⟩ :=
    Action.bodyTokens_quoted ⟨(Position.start label).file, 1, 11⟩
      ⟨(Position.start label).file, 1, 12⟩ keyword units
  have known : Action.Keyword.ofName? name.value = some keyword := by
    rw [named]
    exact keyword.ofName?_spelling
  have noQuote := StringPart.noQuote_bodyTokens ⟨(Position.start label).file, 1, 11⟩ q
    s.render.toList
  rw [← source]
  refine parsed.trans ?_
  rw [tokens, Action.readList_quoted isName isColon opens closes noQuote known, value, ← placed]
  rfl

/-- A message with both quotes, a comma, a colon, a lone percent sign and two references. -/
theorem Document.parse_quotedAction_message :
    let s : ExpandableString := ⟨[.literal "it's \"50%\", or:%", .reference ⟨none, "x"⟩,
      .reference ⟨some "tx", "a.b=c"⟩]⟩
    s.Quotable ∧
      Action.lineText ("msg:'".toList ++ (quoted s.render.toList ++ ['\x27'])) =
        "SecAction \"msg:'it\\'s \\\"50%\\\", or:%%\x7bx\x7d%\x7btx.a.b=c\x7d'\"" ∧
      parse "" (Action.lineText ("msg:'".toList ++ (quoted s.render.toList ++ ['\x27']))) =
        .ok (Action.lineDocument "" [⟨.text .msg s, ⟨none, 1, 12⟩⟩]) := by
  intro s
  have quotable : s.Quotable := by
    refine ⟨?_, StringPart.separated_iff_isChain.mpr ?_⟩
    · rintro _ (_ | ⟨_, _ | ⟨_, _ | ⟨_, ⟨⟩⟩⟩⟩)
      · exact ⟨by decide, by decide, by decide, by decide⟩
      · show IsWord "x".toList
        decide
      · have inKey : "a.b=c".toList.Forall StandsInKey := by decide
        exact ⟨by decide, by decide, List.forall_iff_forall_mem.mp inKey⟩
    · exact .cons_cons (fun both => both.2) (.cons_cons (fun both => both.1) (.singleton _))
  refine ⟨quotable, by decide, ?_⟩
  exact parse_quotedAction "" .msg quotable

end WafRules
