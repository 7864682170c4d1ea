import WafRules.Proofs.ActionTexts
import WafRules.Proofs.Json
import WafRules.Proofs.NumericActions
import WafRules.Proofs.Numerals

/-!
# Rule ids

A rule is given its id by one action, and the control options name the rules they leave out by
single ids and by ranges.  The two should agree on what an id is.  They do but for a sign: a bound
of a range may have a plus in front of it, and an id may not.  Apart from it the same numerals are
taken, with the same numbers, and a range is taken when both of its bounds are ids and in order.

## Main Definitions

* `RuleIds.IdText` — the texts that may be written as an id or as a bound.
* `RuleIds.idText`, `RuleIds.rangeText` — a line that gives an id, and one that leaves out rules.
* `RuleIds.unsigned` — a text without the sign in front of it.

## Main Statements

* `IdRange.read?_eq_some_iff`, `IdRange.read?_append_eq_some_iff` — the ranges that texts denote.
* `Document.parse_ruleIds` — ids and bounds in the two actions.
-/

namespace WafRules

/-! ### Ranges of ids

A bound is a numeral, possibly behind a plus sign, that is positive and not greater than the
greatest id.  A range has one bound or two with a minus sign between them, and the first is not the
greater. -/

namespace RuleIds

/-- The text without a plus sign in front of it. -/
def unsigned : List Char → List Char
  | '+' :: digits => digits
  | cs => cs

/-- Only a plus sign is left out. -/
theorem unsigned_of_head? {cs : List Char} (noSign : cs.head? ≠ some '+') : unsigned cs = cs := by
  unfold unsigned
  split
  · exact absurd rfl noSign
  · rfl

end RuleIds

open RuleIds (unsigned)

namespace IdRange

theorem readBound?_eq_some_iff {cs : List Char} {n : Nat} :
    readBound? cs = some n ↔ Text.Numeral (unsigned cs) n ∧ n ≤ 4294967295 := by
  have count : Text.Decimal.readCount? cs = Text.Decimal.read? (unsigned cs) := by
    rcases cs with - | ⟨c, digits⟩
    · rfl
    · by_cases sign : c = '+' <;> simp [Text.Decimal.readCount?, unsigned, sign]
  rw [readBound?, count, Text.Decimal.atMost?, Option.filter_eq_some_iff,
    Text.Decimal.read?_eq_some_iff, decide_eq_true_iff]
  rfl

/-- The range between two bounds. -/
theorem between_eq_some_iff {u v : List Char} {r : IdRange} :
    (do
      let first ← readBound? u
      let last ← readBound? v
      if 1 ≤ first ∧ first ≤ last then return ⟨first, last⟩ else none) = some r ↔
      ∃ m n, Text.Numeral (unsigned u) m ∧ Text.Numeral (unsigned v) n ∧
        1 ≤ m ∧ m ≤ n ∧ n ≤ 4294967295 ∧ r = ⟨m, n⟩ := by
  constructor
  · intro read
    obtain ⟨m, first, read⟩ := Option.bind_eq_some_iff.mp read
    obtain ⟨n, last, read⟩ := Option.bind_eq_some_iff.mp read
    obtain ⟨⟨positive, ordered⟩, same⟩ := Option.ite_none_right_eq_some.mp read
    obtain ⟨numeral, bound⟩ := readBound?_eq_some_iff.mp last
    exact ⟨m, n, (readBound?_eq_some_iff.mp first).1, numeral, positive, ordered, bound,
      (Option.some.inj same).symm⟩
  · rintro ⟨m, n, first, last, positive, ordered, bound, rfl⟩
    refine Option.bind_eq_some_iff.mpr
      ⟨m, readBound?_eq_some_iff.mpr ⟨first, ordered.trans bound⟩, ?_⟩
    refine Option.bind_eq_some_iff.mpr ⟨n, readBound?_eq_some_iff.mpr ⟨last, bound⟩, ?_⟩
    exact if_pos ⟨positive, ordered⟩

/-- A text without a minus sign denotes a **single id.** -/
theorem read?_eq_some_iff {u : List Char} (single : '-' ∉ u) {r : IdRange} :
    read? u = some r ↔
      ∃ n, Text.Numeral (unsigned u) n ∧ 1 ≤ n ∧ n ≤ 4294967295 ∧ r = ⟨n, n⟩ := by
  rw [read?, Text.cutAt?_eq_none single]
  refine between_eq_some_iff.trans ?_
  constructor
  · rintro ⟨m, n, first, last, positive, -, bound, rfl⟩
    obtain rfl := first.unique last
    exact ⟨m, first, positive, bound, rfl⟩
  · rintro ⟨n, numeral, positive, bound, rfl⟩
    exact ⟨n, n, numeral, numeral, positive, le_rfl, bound, rfl⟩

/-- A text with a minus sign denotes the ids **between two bounds.** -/
theorem read?_append_eq_some_iff {u v : List Char} (single : '-' ∉ u) {r : IdRange} :
    read? (u ++ '-' :: v) = some r ↔
      ∃ m n, Text.Numeral (unsigned u) m ∧ Text.Numeral (unsigned v) n ∧
        1 ≤ m ∧ m ≤ n ∧ n ≤ 4294967295 ∧ r = ⟨m, n⟩ := by
  rw [read?, Text.cutAt?_append single]
  exact between_eq_some_iff

end IdRange

/-- The option that leaves out **rules by their ids** is read from what stands behind its equals
sign. -/
theorem CtlOption.read_ruleRemoveById {name equals : Token} (isName : name.kind = .word)
    (isRemoval : name.value = "ruleRemoveById") (isEquals : equals.kind = .punct .equals)
    (tokens : List Token) (closing : Token) :
    CtlOption.read ⟨name :: equals :: tokens, closing⟩ =
      CtlOption.ruleRemoveById <$> IdRange.read ⟨tokens, closing⟩ := by
  have reader : Text.lookup? CtlOption.readers "ruleRemoveById" =
      some fun w => CtlOption.ruleRemoveById <$> IdRange.read w := rfl
  simp [CtlOption.read, Window.expect, Window.startsWith, Token.isKind, isName, isEquals,
    Window.first, Window.drop, bind, Except.bind, isRemoval, reader]

/-- What such an action says when its ids are a text. -/
theorem Action.ofValue_ruleRemoveById_eq_ok_iff (name : Token) {word equals : Token}
    {tokens : List Token} {closing : Token} (isName : word.kind = .word)
    (isRemoval : word.value = "ruleRemoveById") (isEquals : equals.kind = .punct .equals)
    {cs : List Char}
    (text : Window.text ⟨tokens, closing⟩ = String.ofList cs) (a : Action) :
    ofValue .ctl ⟨name, some ⟨word :: equals :: tokens, closing⟩⟩ = .ok a ↔
      ∃ r, IdRange.read? cs = some r ∧ .ctl (.ruleRemoveById r) = a := by
  show (CtlOption.read _ >>= fun option => Except.ok (Action.ctl option)) = _ ↔ _
  rw [CtlOption.read_ruleRemoveById isName isRemoval isEquals, IdRange.read, text,
    String.toList_ofList]
  cases IdRange.read? cs with
  | none => exact ⟨nofun, nofun⟩
  | some r => simp [bind, Except.bind]

/-! ### Lines with ids

Both actions are written in a line of their own, so that texts can be compared: a line is read when
its value is, and the value is read when its text denotes an id or a range. -/

namespace RuleIds

open WafRules.Action (lineText lineDocument)

/-- Whether characters can be **written as an id** or as a bound: there is no minus sign among them,
no comma, quote, blank or line feed, and no backslash is left alone at the end. -/
structure IdText (cs : List Char) : Prop extends Pattern.Bare cs where
  paired : Pattern.Paired cs
  oneLine : '\n' ∉ cs
  noDouble : '\x22' ∉ cs
  noMinus : '-' ∉ cs

/-- A line that gives an id. -/
def idText (cs : List Char) : String := lineText ("id:".toList ++ cs)

/-- A line that leaves out rules by their ids. -/
def rangeText (cs : List Char) : String := lineText ("ctl:ruleRemoveById=".toList ++ cs)

/-- The document of a line that gives an id. -/
def idDocument (label : String) (n : Nat) : Document :=
  lineDocument label [⟨.number .id n, ⟨(Position.start label).file, 1, 12⟩⟩]

/-- The document of a line that leaves out rules. -/
def rangeDocument (label : String) (r : IdRange) : Document :=
  lineDocument label [⟨.ctl (.ruleRemoveById r), ⟨(Position.start label).file, 1, 12⟩⟩]

variable {u v : List Char}

/-- A line that gives an **id** has a document when its text is a numeral of one. -/
theorem parse_idText (label : String) (written : IdText u) (d : Document) :
    Document.parse label (idText u) = .ok d ↔
      ∃ n, Text.Numeral u n ∧ 1 ≤ n ∧ n ≤ 4294967295 ∧ d = idDocument label n := by
  obtain ⟨body, writes⟩ := Pattern.exists_writes written.paired written.oneLine
  obtain ⟨name, opened, p, closing, parsed⟩ :=
    writes.parse_bareAction_eq_ok_iff written.toBare written.noDouble (.number .id) label
  have text : Window.text ⟨Grammar.bodyTokens (.quoted opened) p body, closing⟩ =
      String.ofList u := congrArg String.ofList (writes.values opened p)
  have number := ActionValue.readNumeral_exact name.value 1 4294967295
    ⟨Grammar.bodyTokens (.quoted opened) p body, closing⟩
  rw [text, String.toList_ofList] at number
  refine (parsed d).trans ?_
  constructor
  · rintro ⟨a, taken, rfl⟩
    obtain ⟨n, read, rfl⟩ := map_eq_ok_iff.mp taken
    obtain ⟨numeral, least, most⟩ := (number.accepts n).mp read
    exact ⟨n, numeral, least, most, rfl⟩
  · rintro ⟨n, numeral, least, most, rfl⟩
    have read := (number.accepts n).mpr ⟨numeral, least, most⟩
    exact ⟨.number .id n, map_eq_ok_iff.mpr ⟨n, read, rfl⟩, rfl⟩

/-- The word in front of the ids. -/
theorem ctl_standsInWord : ∀ c ∈ "ruleRemoveById".toList, Grammar.StandsInWord c :=
  List.forall_iff_forall_mem.mp (by decide +kernel)

/-- A line that leaves out **rules** has a document when its text denotes a range.  The text goes
through the lexer in quotes, as the value of an action and then of an option; none of the three
changes it, since it has no mark in it that any of them looks for. -/
theorem parse_rangeText (label : String) {cs : List Char} (paired : Pattern.Paired cs)
    (oneLine : '\n' ∉ cs) (noDouble : '\x22' ∉ cs) (bare : Pattern.Bare cs) (d : Document) :
    Document.parse label (rangeText cs) = .ok d ↔
      ∃ r, IdRange.read? cs = some r ∧ d = rangeDocument label r := by
  obtain ⟨body, writes⟩ := Pattern.exists_writes paired oneLine
  have whole := (writes.punct .equals).word ctl_standsInWord
  have front : Pattern.Bare ("ruleRemoveById".toList ++ ['=']) := by decide +kernel
  have behind : ("ruleRemoveById".toList ++ ['=']) ++ cs =
      "ruleRemoveById".toList ++ '=' :: cs := List.append_cons _ _ _ |>.symm
  have frontNoDouble : '\x22' ∉ "ruleRemoveById".toList ++ ['='] := by decide +kernel
  obtain ⟨name, opened, p, closing, parsed⟩ := whole.parse_bareAction_eq_ok_iff
    (behind ▸ front.append bare) (behind ▸ List.not_mem_append frontNoDouble noDouble) .ctl label
  obtain ⟨q, q', tokens⟩ := Grammar.bodyTokens_word_punct (.quoted opened) p
    (by decide) ctl_standsInWord .equals body
  have text : Window.text ⟨Grammar.bodyTokens (.quoted opened) q' body, closing⟩ =
      String.ofList cs := congrArg String.ofList (writes.values opened q')
  have value := Action.ofValue_ruleRemoveById_eq_ok_iff name
    (rfl : (Lexer.token .word _ p).kind = .word) String.ofList_toList
    (rfl : (Lexer.token (.punct .equals) Punct.equals.char.toString q).kind = _) text
  rw [tokens] at parsed
  refine (parsed d).trans ?_
  constructor
  · rintro ⟨a, taken, rfl⟩
    obtain ⟨r, read, rfl⟩ := (value a).mp taken
    exact ⟨r, read, rfl⟩
  · rintro ⟨r, read, rfl⟩
    exact ⟨_, (value _).mpr ⟨r, read, rfl⟩, rfl⟩

/-- The text without its sign can be written as well. -/
theorem IdText.unsigned (written : IdText u) : IdText (unsigned u) := by
  rcases u with - | ⟨c, digits⟩
  · exact written
  · by_cases sign : c = '+'
    · subst sign
      have rest : Pattern.Paired digits := by
        cases written.paired with
        | char _ rest => exact rest
      exact {
        paired := rest
        oneLine := fun member => written.oneLine (List.mem_cons_of_mem _ member)
        noDouble := fun member => written.noDouble (List.mem_cons_of_mem _ member)
        noMinus := fun member => written.noMinus (List.mem_cons_of_mem _ member)
        noComma := fun member => written.noComma (List.mem_cons_of_mem _ member)
        noQuote := fun member => written.noQuote (List.mem_cons_of_mem _ member)
        noBlank := fun d member => written.noBlank d (List.mem_cons_of_mem _ member) }
    · have noSign : (c :: digits).head? ≠ some '+' := by simpa using sign
      rwa [unsigned_of_head? noSign]

/-- Digits can be written as an id. -/
theorem IdText.of_digits (digits : ∀ c ∈ u, c.isDigit = true) : IdText u := by
  have other {c : Char} (notDigit : c.isDigit = false) : c ∉ u := by
    intro member
    rw [digits c member] at notDigit
    cases notDigit
  have noBlank : ∀ c ∈ u, Text.isBlank c = false := by
    intro c member
    rw [Bool.eq_false_iff]
    intro blank
    refine other ?_ member
    simp only [Text.isBlank, Bool.or_eq_true, beq_iff_eq] at blank
    rcases blank with (((((rfl | rfl) | rfl) | rfl) | rfl) | rfl) | rfl <;> decide
  exact {
    paired := .of_notMem (other (by decide))
    oneLine := other (by decide)
    noDouble := other (by decide)
    noMinus := other (by decide)
    noComma := other (by decide)
    noQuote := other (by decide)
    noBlank := noBlank }

theorem idDocument_injective (label : String) : Function.Injective (idDocument label) := by
  intro m n same
  simpa [idDocument, lineDocument] using same

/-- A text gives a certain id when it is a numeral of it. -/
theorem parse_idText_eq_idDocument_iff (label : String) (written : IdText u) (n : Nat) :
    Document.parse label (idText u) = .ok (idDocument label n) ↔
      Text.Numeral u n ∧ 1 ≤ n ∧ n ≤ 4294967295 := by
  rw [parse_idText label written]
  constructor
  · rintro ⟨m, numeral, least, most, same⟩
    obtain rfl := idDocument_injective label same
    exact ⟨numeral, least, most⟩
  · rintro ⟨numeral, least, most⟩
    exact ⟨n, numeral, least, most, rfl⟩

/-- A **single id** is left out by a text that gives it without the sign. -/
theorem parse_rangeText_single (label : String) (written : IdText u) (d : Document) :
    Document.parse label (rangeText u) = .ok d ↔
      ∃ n, Document.parse label (idText (unsigned u)) = .ok (idDocument label n) ∧
        d = rangeDocument label ⟨n, n⟩ := by
  rw [parse_rangeText label written.paired written.oneLine written.noDouble written.toBare]
  simp only [IdRange.read?_eq_some_iff written.noMinus,
    parse_idText_eq_idDocument_iff label written.unsigned]
  constructor
  · rintro ⟨r, ⟨n, numeral, least, most, rfl⟩, rfl⟩
    exact ⟨n, ⟨numeral, least, most⟩, rfl⟩
  · rintro ⟨n, ⟨numeral, least, most⟩, rfl⟩
    exact ⟨_, ⟨n, numeral, least, most, rfl⟩, rfl⟩

/-- A **range of ids** is left out by two texts that give its bounds without their signs. -/
theorem parse_rangeText_append (label : String) (first : IdText u) (last : IdText v)
    (d : Document) :
    Document.parse label (rangeText (u ++ '-' :: v)) = .ok d ↔
      ∃ m n, Document.parse label (idText (unsigned u)) = .ok (idDocument label m) ∧
        Document.parse label (idText (unsigned v)) = .ok (idDocument label n) ∧ m ≤ n ∧
        d = rangeDocument label ⟨m, n⟩ := by
  have minus : Pattern.Bare ['-'] := by decide
  have paired : Pattern.Paired (u ++ '-' :: v) :=
    first.paired.append (.char (by decide) last.paired)
  have oneLine : '\n' ∉ u ++ '-' :: v := by simp [first.oneLine, last.oneLine]
  have noDouble : '\x22' ∉ u ++ '-' :: v := by simp [first.noDouble, last.noDouble]
  rw [parse_rangeText label paired oneLine noDouble
    (first.toBare.append (minus.append last.toBare))]
  simp only [IdRange.read?_append_eq_some_iff first.noMinus,
    parse_idText_eq_idDocument_iff label first.unsigned,
    parse_idText_eq_idDocument_iff label last.unsigned]
  constructor
  · rintro ⟨r, ⟨m, n, lower, upper, least, ordered, most, rfl⟩, rfl⟩
    exact ⟨m, n, ⟨lower, least, ordered.trans most⟩, ⟨upper, least.trans ordered, most⟩, ordered,
      rfl⟩
  · rintro ⟨m, n, ⟨lower, least, -⟩, ⟨upper, -, most⟩, ordered, rfl⟩
    exact ⟨_, ⟨m, n, lower, upper, least, ordered, most, rfl⟩, rfl⟩

/-- A **written range** is read back.  It is written without a sign, so its bounds are ids as they
stand. -/
theorem parse_rangeText_render (label : String) {r : IdRange} (sound : r.WellFormed) :
    Document.parse label (rangeText r.render.toList) = .ok (rangeDocument label r) := by
  obtain ⟨m, n⟩ := r
  obtain ⟨positive, ordered, isId⟩ := sound
  dsimp only at positive ordered isId
  have written (k : Nat) : IdText (Nat.toDigits 10 k) :=
    .of_digits fun c member => Nat.isDigit_of_mem_toDigits (by decide) (by decide) member
  have numeral (k : Nat) : Text.Numeral (unsigned (Nat.toDigits 10 k)) k := by
    have noSign : (Nat.toDigits 10 k).head? ≠ some '+' := by
      intro sign
      have digit := Nat.isDigit_of_mem_toDigits (by decide) (by decide)
        (List.mem_of_mem_head? (Option.mem_def.mpr sign))
      exact absurd digit (by decide)
    rw [unsigned_of_head? noSign]
    exact Text.Decimal.read?_eq_some_iff.mp (Text.Decimal.read?_toDigits k)
  have parsed {k : Nat} (least : 1 ≤ k) (most : k ≤ 4294967295) :
      Document.parse label (idText (unsigned (Nat.toDigits 10 k))) = .ok (idDocument label k) :=
    (parse_idText_eq_idDocument_iff label (written k).unsigned k).mpr ⟨numeral k, least, most⟩
  unfold IdRange.render
  dsimp only
  split
  · next single =>
    subst single
    rw [Json.toList_toString_number, parse_rangeText_single label (written m)]
    exact ⟨m, parsed positive isId, rfl⟩
  · have text : (toString m ++ "-" ++ toString n).toList =
        Nat.toDigits 10 m ++ '-' :: Nat.toDigits 10 n := by
      simp only [String.toList_append, Json.toList_toString_number]
      exact List.append_cons _ _ _ |>.symm
    rw [text, parse_rangeText_append label (written m) (written n)]
    exact ⟨m, n, parsed positive (ordered.trans isId), parsed (positive.trans ordered) isId,
      ordered, rfl⟩

end RuleIds

namespace Document

open RuleIds

/-- **Ids and bounds of ranges** are the same but for a plus sign: it is left out in front of a
bound, and refused in front of an id.  Otherwise a bound is an id, a single one stands for the range
of that id alone, and the first must not be greater than the last. -/
theorem parse_ruleIds (label : String) {u v : List Char} (first : IdText u) (last : IdText v) :
    (∀ d, parse label (idText u) = .ok d ↔
      ∃ n, Text.Numeral u n ∧ 1 ≤ n ∧ n ≤ 4294967295 ∧ d = idDocument label n) ∧
    (u.head? = some '+' → ∀ d, parse label (idText u) ≠ .ok d) ∧
    (∀ d, parse label (rangeText u) = .ok d ↔
      ∃ n, parse label (idText (unsigned u)) = .ok (idDocument label n) ∧
        d = rangeDocument label ⟨n, n⟩) ∧
    (∀ d, parse label (rangeText (u ++ '-' :: v)) = .ok d ↔
      ∃ m n, parse label (idText (unsigned u)) = .ok (idDocument label m) ∧
        parse label (idText (unsigned v)) = .ok (idDocument label n) ∧ m ≤ n ∧
        d = rangeDocument label ⟨m, n⟩) ∧
    ∀ r : IdRange, r.WellFormed →
      parse label (rangeText r.render.toList) = .ok (rangeDocument label r) := by
  refine ⟨parse_idText label first, fun sign d parsed => ?_, parse_rangeText_single label first,
    parse_rangeText_append label first last, fun r sound => parse_rangeText_render label sound⟩
  obtain ⟨n, numeral, -⟩ := (parse_idText label first d).mp parsed
  exact absurd (numeral.digits _ (List.mem_of_mem_head? sign)) (by decide)

/-- A bound with a sign and zeros in front, and a bound that is the greatest id. -/
theorem parse_ruleIds_signed :
    rangeText "+07-4294967295".toList =
        "SecAction \"ctl:ruleRemoveById=+07-4294967295\"" ∧
      parse "" (rangeText "+07-4294967295".toList) = .ok (rangeDocument "" ⟨7, 4294967295⟩) ∧
      parse "" (rangeText "7-4294967295".toList) = .ok (rangeDocument "" ⟨7, 4294967295⟩) := by
  have signed : IdText "+07".toList := {
    toBare := by decide
    paired := .of_notMem (by decide)
    oneLine := by decide
    noDouble := by decide
    noMinus := by decide }
  have greatest : IdText "4294967295".toList :=
    .of_digits (List.forall_iff_forall_mem.mp (by decide))
  obtain ⟨-, -, -, ranges, rendered⟩ := parse_ruleIds "" signed greatest
  have lower := (parse_ruleIds "" signed.unsigned greatest).1
  have upper := (parse_ruleIds "" greatest greatest).1
  have parsed := rendered ⟨7, 4294967295⟩ ⟨by decide, by decide, by decide⟩
  refine ⟨by decide, (ranges _).mpr ⟨7, 4294967295, (lower _).mpr ⟨7, ?_, ?_⟩,
    (upper _).mpr ⟨4294967295, ?_, ?_⟩, by decide, rfl⟩, ?_⟩
  · exact Text.Decimal.read?_eq_some_iff.mp (by decide)
  · exact ⟨by decide, by decide, rfl⟩
  · exact Text.Decimal.read?_eq_some_iff.mp (by decide +kernel)
  · exact ⟨by decide, by decide, rfl⟩
  · exact parsed

/-- A plus sign in front of a **single id**, which one of the actions takes and the other does
not. -/
theorem parse_ruleIds_plus :
    idText "+5".toList = "SecAction \"id:+5\"" ∧
      rangeText "+5".toList = "SecAction \"ctl:ruleRemoveById=+5\"" ∧
      IdText "+5".toList ∧ (∀ d, parse "" (idText "+5".toList) ≠ .ok d) ∧
      parse "" (rangeText "+5".toList) = .ok (rangeDocument "" ⟨5, 5⟩) := by
  have written : IdText "+5".toList := {
    toBare := by decide
    paired := .of_notMem (by decide)
    oneLine := by decide
    noDouble := by decide
    noMinus := by decide }
  refine ⟨by decide, by decide, written, fun d parsed => ?_, by decide +kernel⟩
  obtain ⟨n, numeral, -⟩ := (parse_idText "" written d).mp parsed
  exact absurd (numeral.digits '+' (by decide)) (by decide)

end Document

end WafRules
