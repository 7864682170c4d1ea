import WafRules.Proofs.Grammar.Shape
import WafRules.Proofs.Partial
import WafRules.Proofs.WellFormed.Actions

/-!
# Sound documents

No token between the marks of an argument is empty, so that every directive that is read from such
tokens is sound.  A malformed text adds nothing to this: its partial document is the one of the
text before the cut.

## Main Statements

* `exists_solidEntries` — the windows of the directives of a text.
* `DirectiveTokens.read_yields` — the directives of a text.
* `Document.parse_wellFormed` — the documents of a text, whole or partial.
-/

namespace WafRules

/-! ### The windows of arguments

Tokens inside of an argument have a text.  The empty ones are the marks of an argument without
quotes, and these stand outside of its window. -/

/-- The entries of a text, and that no window of theirs has an empty token. -/
theorem exists_solidEntries {label text : String} {tokens : List Token}
    (tokenized : tokenize label text = .ok tokens) :
    ∃ entries last, tokens = entryTokens entries ++ [last] ∧
      ∀ d, .directive d ∈ entries → ∀ a ∈ d.arguments, a.argument.window.Solid := by
  obtain ⟨entries, last, same, -, -, styles⟩ := exists_shapedEntries tokenized
  refine ⟨entries, last, same, ?_⟩
  intro d listed a member t inBody
  obtain ⟨style, writes⟩ := styles d listed a member
  exact (writes.holds t inBody).1

/-! ### Directives

A keyword has the reader of its own value, and what is read for it is sound by the lemma about that
reader; the rest is going from one directive to all of a document. -/

namespace Directive

theorem readRule_yields {selectors operator : Argument} {actions : Option Argument}
    (solidSelectors : selectors.window.Solid) (solidOperator : operator.window.Solid)
    (solidActions : ∀ a, actions = some a → a.window.Solid) :
    Yields Rule.WellFormed (readRule selectors operator actions) := by
  refine (Selector.readList_yields solidSelectors).bind fun s selectorsSound => ?_
  refine (Operator.read_yields solidOperator).bind fun o operatorSound => ?_
  cases actions with
  | none => exact .ok ⟨selectorsSound.1, selectorsSound.2, operatorSound, by simp⟩
  | some a =>
    refine (Action.readList_yields (solidActions a rfl)).bind fun as actionsSound => ?_
    exact .ok ⟨selectorsSound.1, selectorsSound.2, operatorSound, actionsSound⟩

/-- Every keyword but that of rules takes a single argument. -/
theorem Body.exists_argument {keyword : Keyword} (notRule : keyword ≠ .rule)
    {arguments : List Argument} {body : Except SyntaxError Body}
    (read : Body.read? keyword arguments = some body) : ∃ a, arguments = [a] := by
  match arguments with
  | [a] => exact ⟨a, rfl⟩
  | [] | _ :: _ :: _ =>
    cases keyword
    case rule => exact absurd rfl notRule
    all_goals cases read

/-- What a **keyword says** with arguments whose windows are solid. -/
theorem Body.read?_yields {keyword : Keyword} {arguments : List Argument}
    (solid : ∀ a ∈ arguments, a.window.Solid) {body : Except SyntaxError Body}
    (read : Body.read? keyword arguments = some body) : Yields Body.WellFormed body := by
  by_cases isRule : keyword = .rule
  · subst isRule
    match arguments with
    | [selectors, operator] =>
      cases read
      refine (readRule_yields (solid _ (by simp)) (solid _ (by simp)) ?_).map fun _ sound => sound
      intro a same
      cases same
    | [selectors, operator, actions] =>
      cases read
      refine (readRule_yields (solid _ (by simp)) (solid _ (by simp)) ?_).map fun _ sound => sound
      intro a same
      cases same
      exact solid _ (by simp)
    | [] | [_] | _ :: _ :: _ :: _ :: _ => cases read
  · obtain ⟨a, rfl⟩ := Body.exists_argument isRule read
    have solidArgument := solid a List.mem_cons_self
    cases keyword
    case rule => exact absurd rfl isRule
    all_goals obtain rfl := Option.some.inj read
    case action => exact (Action.readList_yields solidArgument).map fun _ sound => sound
    case defaultAction => exact (Action.readList_yields solidArgument).map fun _ sound => sound
    case auditLogParts =>
      exact (Setting.readAuditLogParts_yields solidArgument).map fun _ nonempty => nonempty
    all_goals exact .map_of_forall fun _ => trivial

end Directive

/-- The **directives of a text.** -/
theorem DirectiveTokens.read_yields {d : DirectiveTokens}
    (solid : ∀ a ∈ d.arguments, a.argument.window.Solid) :
    Yields (fun directive => directive.body.WellFormed) d.read := by
  have solidArguments : ∀ a ∈ d.arguments.map ArgumentTokens.argument, a.window.Solid := by
    intro a member
    obtain ⟨tokens, inDirective, rfl⟩ := List.mem_map.mp member
    exact solid tokens inDirective
  unfold DirectiveTokens.read
  cases Directive.Keyword.ofName? d.name.value with
  | none => exact .error _
  | some keyword =>
    dsimp only
    split
    · next body read =>
      exact (Directive.Body.read?_yields solidArguments read).map fun body sound => sound
    · exact .error _

namespace Document

/-- The items of entries up to the first that is refused; what is behind that one is not read. -/
theorem readEntries_wellFormed {entries : List EntryTokens}
    (solid : ∀ d, .directive d ∈ entries → ∀ a ∈ d.arguments, a.argument.window.Solid)
    {directive : Directive} (member : .directive directive ∈ (readEntries entries).1) :
    directive.body.WellFormed := by
  induction entries with
  | nil => cases member
  | cons entry entries ih =>
    cases read : entry.read with
    | error e =>
      rw [readEntries_cons_error entries read] at member
      cases member
    | ok item =>
      rw [readEntries_cons_ok entries read] at member
      rcases List.mem_cons.mp member with rfl | later
      · cases entry with
        | comment c => cases read
        | directive d =>
          cases readDirective : d.read with
          | error e =>
            rw [EntryTokens.read, readDirective] at read
            cases read
          | ok found =>
            rw [EntryTokens.read, readDirective] at read
            cases read
            exact DirectiveTokens.read_yields (solid d List.mem_cons_self) _ readDirective
      · exact ih (fun d inEntries => solid d (List.mem_cons_of_mem entry inEntries)) later

/-- The directives before the first error are sound where the text has tokens. -/
theorem parsePartial_wellFormed_of_tokenize {label text : String} {tokens : List Token}
    (tokenized : tokenize label text = .ok tokens) :
    (parsePartial label text).document.WellFormed := by
  obtain ⟨entries, last, rfl, solid⟩ := exists_solidEntries tokenized
  rw [parsePartial_of_entryTokens tokenized]
  intro directive member
  obtain ⟨item, inDocument, isDirective⟩ := List.mem_filterMap.mp member
  cases item with
  | comment c => cases isDirective
  | directive d =>
    obtain rfl : d = directive := Option.some.inj isDirective
    exact readEntries_wellFormed solid inDocument

/-- The directives before the first error are sound, wherever the text is malformed. -/
theorem parsePartial_document_wellFormed (label text : String) :
    (parsePartial label text).document.WellFormed := by
  cases tokenized : tokenize label text with
  | ok tokens => exact parsePartial_wellFormed_of_tokenize tokenized
  | error e =>
    -- the text before the cut has tokens, and the same document
    obtain ⟨before, rest, -, stops, read⟩ := parsePartial_of_lexError tokenized
    rw [read]
    exact parsePartial_wellFormed_of_tokenize (tokenize_beforeCut stops.1)

/-- The **documents of a text are sound**, whether it is read to its end or up to an error.  No
value is made but by a reader, so it is enough that each reader gives sound values from windows that
the lexer can give. -/
theorem parse_wellFormed (label text : String) :
    (∀ d, parse label text = .ok d → d.WellFormed) ∧
      (parsePartial label text).document.WellFormed := by
  refine ⟨fun d read => ?_, parsePartial_document_wellFormed label text⟩
  rw [parse_eq_strict, Partial.strict_eq_ok_iff] at read
  have sound := parsePartial_document_wellFormed label text
  rw [read] at sound
  exact sound

/-- A rule whose operator says blanks alone. -/
theorem parse_wellFormed_blanks :
    parse "" "SecRule ARGS:a \"@streq  \" id:7" =
      .ok ⟨"", [.directive ⟨.rule
        ⟨[⟨.add, .builtIn .args, some (.key "a"), ⟨none, 1, 9⟩⟩],
          ⟨.compare .streq ⟨[.literal " "]⟩, false, ⟨none, 1, 17⟩⟩,
          [⟨.number .id 7, ⟨none, 1, 27⟩⟩]⟩, ⟨none, 1, 1⟩⟩]⟩ ∧
    Document.WellFormed ⟨"", [.directive ⟨.rule
        ⟨[⟨.add, .builtIn .args, some (.key "a"), ⟨none, 1, 9⟩⟩],
          ⟨.compare .streq ⟨[.literal " "]⟩, false, ⟨none, 1, 17⟩⟩,
          [⟨.number .id 7, ⟨none, 1, 27⟩⟩]⟩, ⟨none, 1, 1⟩⟩]⟩ := by
  have read : parse "" "SecRule ARGS:a \"@streq  \" id:7" =
      .ok ⟨"", [.directive ⟨.rule
        ⟨[⟨.add, .builtIn .args, some (.key "a"), ⟨none, 1, 9⟩⟩],
          ⟨.compare .streq ⟨[.literal " "]⟩, false, ⟨none, 1, 17⟩⟩,
          [⟨.number .id 7, ⟨none, 1, 27⟩⟩]⟩, ⟨none, 1, 1⟩⟩]⟩ := by decide +kernel
  exact ⟨read, (parse_wellFormed "" _).1 _ read⟩

end Document

end WafRules
