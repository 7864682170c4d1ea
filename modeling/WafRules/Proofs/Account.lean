import WafRules.Proofs.Entry.Groups
import WafRules.Proofs.Partial.Salvage
import WafRules.Proofs.WellFormed.Documents

/-!
# Accounts of a text

A document accounts for the tokens of its text: every token that begins an entry has an item of its
own, in order, and the item is read from the group of that token and from nothing else.  The log
accounts for the document: there is a record for every directive in it, written when the directive
was added, and one more for a document that is complete.

## Main Definitions

* `Comment.Records`, `Directive.Records`, `Item.Records` — items that are read from a group.
* `Directive.record` — the record of a directive.
* `Document.Progress.Tells` — a log that has the records of the directives read so far.

## Main Statements

* `EntryTokens.read_records` — the item of an entry is read from its group.
* `Document.readItems_tells` — a log stays true to the items, whatever ends them.
* `Document.parse_account` — the items and the log of a text.
-/

namespace WafRules

/-! ### Items and groups

What it means for an item to be read from a group of tokens: the place and the text of a comment are
those of its mark and text, and a directive has the name and as many arguments as its group has. -/

/-- Whether a comment is the one of a mark, with the text behind the mark if there is one. -/
structure Comment.Records (mark : Token) (behind : List Token) (c : Comment) : Prop where
  kind : mark.kind = .commentStart
  position : c.position = mark.position
  text : (behind = [] ∧ c.text = "") ∨ ∃ t, behind = [t] ∧ t.kind = .comment ∧ c.text = t.value

/-- Whether a directive is the one of a name, in any case, and has all of the arguments behind the
name: what is behind it are as many arguments as there are start marks, and nothing else. -/
structure Directive.Records (name : Token) (behind : List Token) (d : Directive) : Prop where
  kind : name.kind = .directive
  position : d.position = name.position
  keyword : Text.sameKeyword d.name name.value = true
  arguments : ∃ arguments, arguments.length = behind.countP (·.isKind .argumentStart) ∧
    (∀ closing, Argument.readAll ⟨behind, closing⟩ = .ok (arguments, ⟨[], closing⟩)) ∧
    Body.read? d.body.keyword arguments = some (.ok d.body)

/-- Whether an item is read from the token that begins it and the group behind that token. -/
def Item.Records (group : Token × List Token) : Item → Prop
  | comment c => c.Records group.1 group.2
  | directive d => d.Records group.1 group.2

/-- What a keyword says is said by a directive with that keyword. -/
theorem Directive.Body.read?_keyword {keyword : Keyword} {arguments : List Argument}
    {body : Except SyntaxError Body} (read : Body.read? keyword arguments = some body) :
    Yields (fun body => body.keyword = keyword) body := by
  by_cases isRule : keyword = .rule
  · subst isRule
    match arguments with
    | [_, _] | [_, _, _] =>
      obtain rfl := Option.some.inj read
      exact .map_of_forall fun _ => rfl
    | [] | [_] | _ :: _ :: _ :: _ :: _ => cases read
  · obtain ⟨a, rfl⟩ := Body.exists_argument isRule read
    cases keyword
    case rule => exact absurd rfl isRule
    all_goals
      obtain rfl := Option.some.inj read
      exact .map_of_forall fun _ => rfl

/-- An argument has one start mark. -/
theorem ArgumentTokens.countP_argumentStart (a : ArgumentTokens) :
    a.toList.countP (·.isKind .argumentStart) = 1 := by
  have body : a.body.countP (·.isKind .argumentStart) = 0 := by
    refine List.countP_eq_zero.mpr fun t member isStart => ?_
    have kind := a.body_kind t member
    rw [beq_iff_eq.mp isStart] at kind
    exact kind
  rw [ArgumentTokens.toList, List.countP_cons, List.countP_append, body, List.countP_singleton]
  simp [Token.isKind, a.start_kind, a.stop_kind]

theorem countP_argumentStart_arguments (arguments : List ArgumentTokens) :
    (arguments.flatMap ArgumentTokens.toList).countP (·.isKind .argumentStart) =
      arguments.length := by
  induction arguments with
  | nil => rfl
  | cons a arguments ih =>
    rw [List.flatMap_cons, List.countP_append, a.countP_argumentStart, ih, List.length_cons,
      Nat.add_comm]

theorem CommentTokens.read_records (c : CommentTokens) :
    c.read.Records c.mark c.text.toList := by
  refine ⟨c.mark_kind, rfl, ?_⟩
  obtain ⟨mark, text, -, textKind⟩ := c
  cases text with
  | none => exact .inl ⟨rfl, rfl⟩
  | some t => exact .inr ⟨t, rfl, textKind t rfl, rfl⟩

theorem DirectiveTokens.read_records {d : DirectiveTokens} {directive : Directive}
    (read : d.read = .ok directive) :
    directive.Records d.name (d.arguments.flatMap ArgumentTokens.toList) := by
  unfold DirectiveTokens.read at read
  split at read
  · cases read
  · next keyword found =>
    split at read
    · next body said =>
      cases body with
      | error e => cases read
      | ok body =>
        cases read
        -- the keyword of the body is the one found for the name
        have same : body.keyword = keyword := Directive.Body.read?_keyword said body rfl
        refine ⟨d.name_kind, rfl, ?_, d.arguments.map ArgumentTokens.argument, ?_, ?_, ?_⟩
        · show Text.sameKeyword body.keyword.spelling d.name.value = true
          rw [same]
          exact Text.sameKeyword_of_keyword? found
        · rw [countP_argumentStart_arguments, List.length_map]
        · intro closing
          have all := Argument.readOnto_argumentTokens #[] d.arguments [] closing startsEntries_nil
          rw [List.append_nil] at all
          exact all
        · show Directive.Body.read? body.keyword _ = _
          rw [same, said]
    · cases read

/-- The **item of an entry** is read from its group. -/
theorem EntryTokens.read_records {entry : EntryTokens} {item : Item}
    (read : entry.read = .ok item) : item.Records (entry.head, entry.tail) := by
  cases entry with
  | comment c =>
    cases read
    exact c.read_records
  | directive d =>
    cases result : d.read with
    | error e =>
      rw [EntryTokens.read, result] at read
      cases read
    | ok directive =>
      rw [EntryTokens.read, result] at read
      cases read
      exact DirectiveTokens.read_records result

/-- The items of entries, all of which are read. -/
theorem readEntries_records {entries : List EntryTokens}
    (complete : (readEntries entries).2 = none) :
    List.Forall₂ Item.Records (entries.map fun entry => (entry.head, entry.tail))
      (readEntries entries).1 := by
  induction entries with
  | nil => exact .nil
  | cons entry entries ih =>
    cases read : entry.read with
    | error e =>
      rw [readEntries_cons_error entries read] at complete
      cases complete
    | ok item =>
      rw [readEntries_cons_ok entries read] at complete ⊢
      exact .cons (EntryTokens.read_records read) (ih complete)

/-! ### The log

The log is written while the entries are read, so the invariant speaks of a log with the records of
the directives so far, and the reader keeps it with every item it adds. -/

/-- The record of a directive: its place and its keyword. -/
def Directive.record (d : Directive) : LogRecord :=
  ⟨.trace, d.position.render ++ " " ++ d.body.keyword.spelling⟩

/-- The records of items are those of the directives among them. -/
theorem flatMap_trace (items : List Item) :
    items.flatMap Item.trace = (items.filterMap Item.directive?).map Directive.record := by
  induction items with
  | nil => rfl
  | cons item items ih =>
    rw [List.flatMap_cons, ih]
    cases item <;> rfl

namespace Document

/-- Whether there is a record for every directive read so far, in order, and no other. -/
def Progress.Tells (progress : Progress) : Prop :=
  progress.log.toList = (progress.items.toList.filterMap Item.directive?).map Directive.record

/-- One more entry leaves its record. -/
theorem Progress.Tells.add {progress : Progress} (tells : progress.Tells) (item : Item) :
    (progress.add item).Tells := by
  unfold Progress.Tells at tells ⊢
  rw [← flatMap_trace] at tells ⊢
  simp [Progress.add, tells]

/-- The **log stays true to the items**, whatever the tokens are and whatever ends them. -/
theorem readItems_tells {progress : Progress} (tells : progress.Tells) (w : Window) :
    (readItems progress w).1.Tells := by
  fun_induction readItems progress w with
  | case1 progress w ended => exact tells
  | case2 progress w goesOn e read => exact tells
  | case3 progress w goesOn item rest read ih => exact ih (tells.add item)

theorem readTokens_tells (tokens : List Token) : (readTokens tokens).1.Tells := by
  have nothing : Progress.Tells ⟨#[], #[]⟩ := rfl
  unfold readTokens
  split
  · exact nothing
  · exact readItems_tells nothing _

variable {label text : String}

/-- The log of a partial document. -/
theorem parsePartialLogged_log (label text : String) :
    (parsePartialLogged label text).log =
      (parsePartial label text).document.directives.map Directive.record := by
  rw [parsePartial, parsePartialLogged_eq]
  exact readTokens_tells (partialTokens label text)

/-- The **three ways a strict reading ends**, with the log of each. -/
inductive Ends (label text : String) : Prop
  | malformed (e : LexError) (run : parseLogged label text = ⟨.error (.lexical e), []⟩)
  | refused (tokens : List Token) (progress : Progress) (e : SyntaxError)
      (tokenized : tokenize label text = .ok tokens)
      (read : readTokens tokens = (progress, some e))
      (run : parseLogged label text =
        ⟨.error (.structural e),
          (progress.items.toList.filterMap Item.directive?).map Directive.record⟩)
  | complete (tokens : List Token) (progress : Progress)
      (tokenized : tokenize label text = .ok tokens)
      (read : readTokens tokens = (progress, none))
      (run : parseLogged label text =
        ⟨.ok ⟨label, progress.items.toList⟩,
          (progress.items.toList.filterMap Item.directive?).map Directive.record ++
            [parsedRecord ⟨label, progress.items.toList⟩]⟩)

theorem parseLogged_ends (label text : String) : Ends label text := by
  cases tokenized : tokenize label text with
  | error e =>
    refine .malformed e ?_
    rw [parseLogged, tokenized]
    rfl
  | ok tokens =>
    have tells := readTokens_tells tokens
    cases read : readTokens tokens with
    | mk progress failure =>
      rw [read] at tells
      cases failure with
      | none =>
        refine .complete tokens progress tokenized read ?_
        rw [← tells, parseLogged, tokenized]
        dsimp only
        rw [read]
      | some e =>
        refine .refused tokens progress e tokenized read ?_
        rw [← tells, parseLogged, tokenized]
        dsimp only
        rw [read]

/-- The last record of a document is made exactly when the document is complete. -/
theorem exists_debug_iff (label text : String) :
    (∃ r ∈ (parseLogged label text).log, r.level = .debug) ↔ ∃ d, parse label text = .ok d := by
  have onlyTraces {ds : List Directive} {r : LogRecord} (member : r ∈ ds.map Directive.record) :
      r.level ≠ .debug := by
    obtain ⟨d, -, rfl⟩ := List.mem_map.mp member
    exact nofun
  -- the run decides both sides: only a complete one ends with a record of another level
  unfold parse
  cases parseLogged_ends label text with
  | malformed e run =>
    rw [run]
    exact iff_of_false (fun ⟨r, member, _⟩ => List.not_mem_nil member)
      (fun ⟨d, read⟩ => nomatch read)
  | refused tokens progress e tokenized read run =>
    rw [run]
    exact iff_of_false (fun ⟨r, member, debug⟩ => onlyTraces member debug)
      (fun ⟨d, read⟩ => nomatch read)
  | complete tokens progress tokenized read run =>
    rw [run]
    exact iff_of_true ⟨_, List.mem_append_right _ (List.mem_singleton.mpr rfl), rfl⟩ ⟨_, rfl⟩

/-! ### Both accounts

Groups and records are both in the order of the entries, which is the order of the text. -/

/-- The tokens with a group are the marks of comments and the names of directives. -/
theorem map_fst_entryGroups_isKind (tokens : List Token) :
    (entryGroups tokens).map Prod.fst =
      tokens.filter fun t => t.isKind .commentStart || t.isKind .directive := by
  rw [map_fst_entryGroups]
  refine List.filter_congr fun t _ => ?_
  unfold Token.isKind
  cases t.kind <;> rfl

/-- The items of a text that is read to its end. -/
theorem readTokens_records {tokens : List Token} {progress : Progress}
    (tokenized : tokenize label text = .ok tokens) (read : readTokens tokens = (progress, none)) :
    List.Forall₂ Item.Records (entryGroups tokens) progress.items.toList := by
  obtain ⟨entries, last, rfl, ending, -⟩ := exists_shapedEntries tokenized
  have items := readTokens_items entries last
  rw [read] at items
  rw [readTokens_entryTokens] at read
  -- tokens and groups are now both given by the entries, and these are all read
  rw [entryGroups_entryTokens entries ending, items]
  exact readEntries_records (congrArg Prod.snd read)

/-- The **items and the log of a text.**  When a text is read to its end, the items are read one by
one from the groups of its tokens, a group for each mark of a comment and each name of a directive;
the log has a record for each directive and one for the document.  When it is not, the log has the
records of the directives read before the end, and the same holds of a lenient reading. -/
theorem parse_account (label text : String) :
    (∀ d, parse label text = .ok d →
      ∃ tokens, tokenize label text = .ok tokens ∧
        (entryGroups tokens).map Prod.fst =
          tokens.filter (fun t => t.isKind .commentStart || t.isKind .directive) ∧
        List.Forall₂ Item.Records (entryGroups tokens) d.items ∧
        (parseLogged label text).log = d.directives.map Directive.record ++
          [⟨.debug, "parsed " ++ label ++ ": " ++ toString d.directives.length ++
            " directives, " ++ toString d.comments.length ++ " comments"⟩]) ∧
    (∀ e, parse label text = .error (.structural e) →
      ∃ tokens progress, tokenize label text = .ok tokens ∧
        readTokens tokens = (progress, some e) ∧
        (parseLogged label text).log =
          (progress.items.toList.filterMap Item.directive?).map Directive.record) ∧
    (∀ e, parse label text = .error (.lexical e) → (parseLogged label text).log = []) ∧
    (parsePartialLogged label text).log =
      (parsePartial label text).document.directives.map Directive.record ∧
    ((∃ r ∈ (parseLogged label text).log, r.level = .debug) ↔
      ∃ d, parse label text = .ok d) := by
  refine ⟨?_, ?_, ?_, parsePartialLogged_log label text, exists_debug_iff label text⟩
  · intro d read
    unfold parse at read
    cases parseLogged_ends label text with
    | malformed e run | refused tokens progress e tokenized refuses run =>
      rw [run] at read
      cases read
    | complete tokens progress tokenized complete run =>
      rw [run] at read ⊢
      cases read
      exact ⟨tokens, tokenized, map_fst_entryGroups_isKind tokens,
        readTokens_records tokenized complete, rfl⟩
  · intro e refused
    unfold parse at refused
    cases parseLogged_ends label text with
    | malformed found run | complete tokens progress tokenized complete run =>
      rw [run] at refused
      cases refused
    | refused tokens progress found tokenized refuses run =>
      rw [run] at refused ⊢
      cases refused
      exact ⟨tokens, progress, tokenized, refuses, rfl⟩
  · intro e refused
    unfold parse at refused
    cases parseLogged_ends label text with
    | malformed found run => rw [run]
    | refused tokens progress found tokenized refuses run
    | complete tokens progress tokenized complete run =>
      rw [run] at refused
      cases refused

/-- A directive in lower case between two comments, one of them empty. -/
theorem parse_account_marker :
    parse "r" "# a\nsecmarker x\n#" =
      .ok ⟨"r", [.comment ⟨" a", ⟨some "r", 1, 1⟩⟩,
        .directive ⟨.marker "x", ⟨some "r", 2, 1⟩⟩, .comment ⟨"", ⟨some "r", 3, 1⟩⟩]⟩ ∧
    (parseLogged "r" "# a\nsecmarker x\n#").log =
      [⟨.trace, "r:2:1 SecMarker"⟩, ⟨.debug, "parsed r: 1 directives, 2 comments"⟩] ∧
    ∃ tokens, tokenize "r" "# a\nsecmarker x\n#" = .ok tokens ∧
      (entryGroups tokens).map Prod.fst =
        tokens.filter (fun t => t.isKind .commentStart || t.isKind .directive) ∧
      List.Forall₂ Item.Records (entryGroups tokens)
        [.comment ⟨" a", ⟨some "r", 1, 1⟩⟩, .directive ⟨.marker "x", ⟨some "r", 2, 1⟩⟩,
          .comment ⟨"", ⟨some "r", 3, 1⟩⟩] := by
  have read : parse "r" "# a\nsecmarker x\n#" =
      .ok ⟨"r", [.comment ⟨" a", ⟨some "r", 1, 1⟩⟩,
        .directive ⟨.marker "x", ⟨some "r", 2, 1⟩⟩, .comment ⟨"", ⟨some "r", 3, 1⟩⟩]⟩ := by
    decide +kernel
  obtain ⟨tokens, tokenized, heads, records, log⟩ := (parse_account _ _).1 _ read
  exact ⟨read, by rw [log]; decide +kernel, tokens, tokenized, heads, records⟩

end Document

end WafRules
