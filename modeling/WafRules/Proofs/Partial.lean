import WafRules.Proofs.Grammar.Reading
import WafRules.Proofs.Stopping

/-!
# Partial documents

A document is read in one of two ways.  The strict one ends with the first error and gives nothing
else; the lenient one keeps what it has read before the error.  They agree on every text: where
the first gives a document the second gives the same one and no error, and where the first gives
an error the second gives the same error.

What the second keeps depends on the error.  When an entry is refused, it is the items before that
entry.  When the text is malformed, it is the partial document of the text before the cut.  An
error of an entry before the cut goes unreported then, and still ends the items.

## Main Statements

* `readEntries_error` — an entry that is refused, and the items before it.
* `Document.salvage_leavesOver` — the tokens of the complete entries before a cut.
* `Document.parsePartial_agrees` — both ways of reading a text.
-/

namespace WafRules

/-- An **entry that is refused ends the items.**  The items before it stay, and what comes behind it
is not looked at. -/
theorem readEntries_error {entries : List EntryTokens} {items : List Item} {e : SyntaxError}
    (read : readEntries entries = (items, some e)) :
    ∃ before failing after, entries = before ++ .directive failing :: after ∧
      before.map EntryTokens.read = items.map Except.ok ∧ failing.read = .error e := by
  induction entries generalizing items with
  | nil => cases read
  | cons entry entries ih =>
    cases result : entry.read with
    | error found =>
      rw [readEntries_cons_error entries result] at read
      cases read
      cases entry with
      | comment c => cases result
      | directive d =>
        refine ⟨[], d, entries, rfl, rfl, ?_⟩
        cases refused : d.read with
        | error e =>
          rw [EntryTokens.read, refused] at result
          cases result
          rfl
        | ok directive =>
          rw [EntryTokens.read, refused] at result
          cases result
    | ok item =>
      rw [readEntries_cons_ok entries result] at read
      obtain ⟨rfl, ended⟩ := Prod.mk.inj read
      obtain ⟨before, failing, after, rfl, items, refused⟩ := ih (Prod.ext rfl ended)
      refine ⟨entry :: before, failing, after, rfl, ?_, refused⟩
      rw [List.map_cons, List.map_cons, result, items]

namespace Document

/-! ### Texts with a token stream

When the lexer has no error both ways read the same entries, and differ only in what they make of an
entry that is refused. -/

/-- The items that are read from a token stream. -/
theorem readTokens_items (entries : List EntryTokens) (last : Token) :
    (readTokens (entryTokens entries ++ [last])).1.items.toList = (readEntries entries).1 := by
  rw [readTokens_entryTokens]
  exact Progress.addAll_items ⟨#[], #[]⟩ (readEntries entries).1

/-- The **partial document of a text with entries.** -/
theorem parsePartial_of_entryTokens {label text : String} {entries : List EntryTokens}
    {last : Token} (tokenized : tokenize label text = .ok (entryTokens entries ++ [last])) :
    parsePartial label text =
      ⟨⟨label, (readEntries entries).1⟩, (readEntries entries).2.map .structural⟩ := by
  have scanned : Lexer.scan label text = ⟨entryTokens entries ++ [last], none⟩ := by
    rw [Lexer.scan_eq_scanFrom]
    exact tokenize_eq_ok_iff.mp tokenized
  rw [parsePartial, parsePartialLogged, scanned]
  dsimp only
  rw [readTokens_items, readTokens_entryTokens]
  rfl

/-! ### Malformed texts

When it has one, the tokens are cut at the last name of a directive.  What the lexer leaves over
behind the last start of a line begins with that name or holds no name, so the cut leaves exactly
the entries of the text in front. -/

/-- Tokens behind the last name of a directive are dropped with it. -/
theorem beforeLastDirective_append_noName (front : List Token) {others : List Token}
    (noName : Lexer.NoName others) :
    beforeLastDirective (front ++ others) = beforeLastDirective front := by
  have passes : ∀ t ∈ others.reverse, (!t.isKind .directive) = true := by
    intro t member
    simpa [Token.isKind] using noName t (List.mem_reverse.mp member)
  rw [beforeLastDirective, beforeLastDirective, List.reverse_append,
    List.dropWhile_append_of_pos passes]

/-- What stands before the last name of a directive. -/
theorem beforeLastDirective_append (front : List Token) {name : Token} {others : List Token}
    (isName : name.kind = .directive) (noName : Lexer.NoName others) :
    beforeLastDirective (front ++ name :: others) = front := by
  have stops : List.dropWhile (fun t : Token => !t.isKind .directive) (name :: front.reverse) =
      name :: front.reverse := List.dropWhile_cons_of_neg (by simp [Token.isKind, isName])
  rw [List.append_cons, beforeLastDirective_append_noName _ noName, beforeLastDirective,
    List.reverse_append, List.reverse_singleton, List.singleton_append, stops,
    List.drop_succ_cons, List.drop_zero, List.reverse_reverse]

/-- The **tokens of the complete entries before a cut.** -/
theorem salvage_leavesOver (front : List Token) {others : List Token} {e : LexError}
    (leftOver : Lexer.LeavesOver others e) :
    salvage (front ++ others) e = front ++ [Lexer.token .endOfInput "" e.position] := by
  rcases leftOver with ⟨rfl, outside⟩ | ⟨name, others, rfl, isName, noName, inside⟩
  · rw [salvage, outside, List.append_nil]
    rfl
  · rw [salvage, inside, if_pos rfl, beforeLastDirective_append front isName noName]

/-- The tokens of the text before a cut. -/
theorem tokenize_beforeCut {label : String} {before : List Char}
    (atStart : (Lexer.run (.start label) .lineStart before).2 = .lineStart) :
    tokenize label (String.ofList before) =
      .ok ((Lexer.run (.start label) .lineStart before).1 ++
        [Lexer.token .endOfInput "" ((Position.start label).advance before)]) := by
  have whole := Lexer.scanFrom_append (.start label) .lineStart before []
  rw [List.append_nil, atStart] at whole
  rw [tokenize_eq_ok_iff, String.toList_ofList, whole]
  rfl

/-- The tokens of a malformed text: those of the whole entries before the cut, and what the lexer
has given of the entry behind it. -/
theorem exists_salvaged {label text : String} {e : LexError}
    (failed : (Lexer.scan label text).failure = some e) :
    ∃ before rest entries others last,
      text.toList = before ++ rest ∧ Lexer.StopsBehind label before rest e ∧
      tokenize label (String.ofList before) = .ok (entryTokens entries ++ [last]) ∧
      (Lexer.scan label text).tokens = entryTokens entries ++ others ∧
      Lexer.LeavesOver others e := by
  rw [Lexer.scan_eq_scanFrom] at failed ⊢
  obtain ⟨before, rest, split, stops, others, tokens, leftOver⟩ := Lexer.exists_stop failed
  have tokenized := tokenize_beforeCut stops.1
  -- the tokens before the cut are those of whole entries, because the text before it is well formed
  obtain ⟨entries, last, same⟩ := exists_entryTokens tokenized
  have complete : (Lexer.run (.start label) .lineStart before).1 = entryTokens entries :=
    (List.append_inj' same rfl).1
  rw [same] at tokenized
  rw [complete] at tokens
  exact ⟨before, rest, entries, others, last, split, stops, tokenized, tokens, leftOver⟩

/-- The partial document of a malformed text holds the items of its complete entries. -/
theorem parsePartial_of_leavesOver {label text : String} {entries : List EntryTokens}
    {others : List Token} {e : LexError}
    (scanned : Lexer.scan label text = ⟨entryTokens entries ++ others, some e⟩)
    (leftOver : Lexer.LeavesOver others e) :
    parsePartial label text = ⟨⟨label, (readEntries entries).1⟩, some (.lexical e)⟩ := by
  rw [parsePartial, parsePartialLogged, scanned]
  dsimp only
  rw [salvage_leavesOver _ leftOver, readTokens_items]
  rfl

/-- The **partial document of a malformed text** is that of the text before the cut. -/
theorem parsePartial_of_lexError {label text : String} {e : LexError}
    (malformed : tokenize label text = .error e) :
    ∃ before rest, text.toList = before ++ rest ∧ Lexer.StopsBehind label before rest e ∧
      parsePartial label text =
        ⟨(parsePartial label (String.ofList before)).document, some (.lexical e)⟩ := by
  have failed := tokenize_eq_error_iff.mp malformed
  rw [← Lexer.scan_eq_scanFrom] at failed
  obtain ⟨before, rest, entries, others, last, split, stops, tokenized, tokens, leftOver⟩ :=
    exists_salvaged failed
  refine ⟨before, rest, split, stops, ?_⟩
  have scanned : Lexer.scan label text = ⟨entryTokens entries ++ others, some e⟩ := by
    rw [← tokens, ← failed]
  rw [parsePartial_of_entryTokens tokenized, parsePartial_of_leavesOver scanned leftOver]

/-! ### Both ways of reading a text

The two cases are put together: the strict way is the lenient one with everything but the error or
the document forgotten. -/

/-- What is left of a partial document when an error is not tolerated. -/
def Partial.strict (p : Partial) : Except ParseError Document :=
  match p.failure with
  | none => .ok p.document
  | some e => .error e

theorem Partial.strict_eq_ok_iff {p : Partial} {d : Document} :
    p.strict = .ok d ↔ p = ⟨d, none⟩ := by
  obtain ⟨document, failure⟩ := p
  cases failure <;> simp [Partial.strict]

theorem Partial.strict_eq_error_iff {p : Partial} {e : ParseError} :
    p.strict = .error e ↔ ∃ d, p = ⟨d, some e⟩ := by
  obtain ⟨document, failure⟩ := p
  cases failure <;> simp [Partial.strict]

/-- The **document of a text is its partial document, unless there is an error.** -/
theorem parse_eq_strict (label text : String) :
    parse label text = (parsePartial label text).strict := by
  cases tokenized : tokenize label text with
  | error e =>
    obtain ⟨before, rest, -, -, read⟩ := parsePartial_of_lexError tokenized
    rw [parse_of_lexError tokenized, read]
    rfl
  | ok tokens =>
    obtain ⟨entries, last, rfl⟩ := exists_entryTokens tokenized
    rw [parse_of_entryTokens tokenized, parsePartial_of_entryTokens tokenized]
    cases readEntries entries with
    | mk items failure => cases failure <;> rfl

/-- When an entry is refused, the partial document holds the items before it. -/
theorem parsePartial_structural {label text : String} {d : Document} {e : SyntaxError}
    (read : parsePartial label text = ⟨d, some (.structural e)⟩) :
    ∃ before failing after last,
      tokenize label text = .ok (entryTokens (before ++ .directive failing :: after) ++ [last]) ∧
      before.map EntryTokens.read = d.items.map Except.ok ∧ failing.read = .error e := by
  cases tokenized : tokenize label text with
  | error lexError =>
    obtain ⟨before, rest, -, -, malformed⟩ := parsePartial_of_lexError tokenized
    rw [malformed] at read
    cases congrArg Partial.failure read
  | ok tokens =>
    obtain ⟨entries, last, rfl⟩ := exists_entryTokens tokenized
    rw [parsePartial_of_entryTokens tokenized] at read
    have items : (readEntries entries).1 = d.items :=
      congrArg (fun p => p.document.items) read
    have refused : (readEntries entries).2 = some e := by
      have failure : (readEntries entries).2.map ParseError.structural =
          some (.structural e) := congrArg Partial.failure read
      obtain ⟨found, some, same⟩ := Option.map_eq_some_iff.mp failure
      rw [some, ParseError.structural.inj same]
    obtain ⟨before, failing, after, rfl, complete, fails⟩ :=
      readEntries_error (Prod.ext items refused)
    exact ⟨before, failing, after, last, rfl, complete, fails⟩

/-- When a text is malformed, the partial document is that of the text before the cut. -/
theorem parsePartial_lexical {label text : String} {d : Document} {e : LexError}
    (read : parsePartial label text = ⟨d, some (.lexical e)⟩) :
    ∃ before rest, text.toList = before ++ rest ∧ Lexer.StopsBehind label before rest e ∧
      (parsePartial label (String.ofList before)).document = d := by
  cases tokenized : tokenize label text with
  | error found =>
    obtain ⟨before, rest, split, stops, malformed⟩ := parsePartial_of_lexError tokenized
    rw [malformed] at read
    have same : found = e := by
      injection congrArg Partial.failure read with lexical
      exact ParseError.lexical.inj lexical
    subst same
    exact ⟨before, rest, split, stops, congrArg Partial.document read⟩
  | ok tokens =>
    obtain ⟨entries, last, rfl⟩ := exists_entryTokens tokenized
    rw [parsePartial_of_entryTokens tokenized] at read
    have failure : (readEntries entries).2.map ParseError.structural = some (.lexical e) :=
      congrArg Partial.failure read
    obtain ⟨found, -, same⟩ := Option.map_eq_some_iff.mp failure
    cases same

/-- Both **ways of reading a text.**  The lenient one gives the document of the strict one and no
error, or its error and what precedes it: the items before an entry that is refused, or what the
text before the cut has when the text is malformed. -/
theorem parsePartial_agrees (label text : String) :
    (∀ d, parse label text = .ok d ↔ parsePartial label text = ⟨d, none⟩) ∧
    (∀ e, parse label text = .error e ↔ ∃ d, parsePartial label text = ⟨d, some e⟩) ∧
    (∀ d e, parsePartial label text = ⟨d, some (.structural e)⟩ →
      ∃ before failing after last,
        tokenize label text =
          .ok (entryTokens (before ++ .directive failing :: after) ++ [last]) ∧
        before.map EntryTokens.read = d.items.map Except.ok ∧ failing.read = .error e) ∧
    (∀ d e, parsePartial label text = ⟨d, some (.lexical e)⟩ →
      ∃ before rest, text.toList = before ++ rest ∧ Lexer.StopsBehind label before rest e ∧
        (parsePartial label (String.ofList before)).document = d) := by
  refine ⟨?_, ?_, ?_, ?_⟩
  · intro d
    rw [parse_eq_strict]
    exact Partial.strict_eq_ok_iff
  · intro e
    rw [parse_eq_strict]
    exact Partial.strict_eq_error_iff
  · intro d e
    exact parsePartial_structural
  · intro d e
    exact parsePartial_lexical

/-- A comment, and then a quote that is not closed. -/
theorem parsePartial_agrees_quote :
    parsePartial "a.conf" "# a\nSecRule \"" =
      ⟨⟨"a.conf", [.comment ⟨" a", ⟨some "a.conf", 1, 1⟩⟩]⟩,
        some (.lexical ⟨.unterminatedQuote, ⟨some "a.conf", 2, 9⟩⟩)⟩ ∧
    parse "a.conf" "# a\nSecRule \"" =
      .error (.lexical ⟨.unterminatedQuote, ⟨some "a.conf", 2, 9⟩⟩) ∧
    ∃ before rest, "# a\nSecRule \"".toList = before ++ rest ∧
      Lexer.StopsBehind "a.conf" before rest ⟨.unterminatedQuote, ⟨some "a.conf", 2, 9⟩⟩ ∧
      (parsePartial "a.conf" (String.ofList before)).document =
        ⟨"a.conf", [.comment ⟨" a", ⟨some "a.conf", 1, 1⟩⟩]⟩ := by
  have read : parsePartial "a.conf" "# a\nSecRule \"" =
      ⟨⟨"a.conf", [.comment ⟨" a", ⟨some "a.conf", 1, 1⟩⟩]⟩,
        some (.lexical ⟨.unterminatedQuote, ⟨some "a.conf", 2, 9⟩⟩)⟩ := by decide +kernel
  obtain ⟨-, errors, -, malformed⟩ := parsePartial_agrees "a.conf" "# a\nSecRule \""
  exact ⟨read, (errors _).mpr ⟨_, read⟩, malformed _ _ read⟩

end Document

end WafRules
