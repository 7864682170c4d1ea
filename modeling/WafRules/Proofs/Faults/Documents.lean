import WafRules.Proofs.Entry.Groups
import WafRules.Proofs.Faults.Actions
import WafRules.Proofs.WellFormed.Documents

/-!
# Faults of documents

A directive is read from its own tokens, so its faults are among them: what is wrong with one
directive is not reported at another.  The first directive with a fault ends the document, and the
entries before it are read as if they were all there is.

## Main Statements

* `Directive.Body.read?_reports` — the faults of what a keyword says.
* `DirectiveTokens.read_reports` — the faults of a directive are among its tokens.
* `Document.parse_fault` — the place of the fault that ends a document.
-/

namespace WafRules

variable {tokens : List Token}

/-! ### Arguments

The argument that a fault belongs to is one of the directive's, also where there are too many or too
few: the place is then that of the first one too many, or of the name. -/

/-- Whether an argument starts at one of given tokens and its window is made of them. -/
structure Argument.Among (tokens : List Token) (a : Argument) : Prop where
  start : a.start ∈ tokens.map Token.position
  window : a.window.Among tokens

theorem Argument.text_reports {a : Argument} (among : a.Among tokens) (what : FreeText) :
    Reports tokens (a.text what) :=
  .ite (fun _ => .error ⟨among.start, trivial⟩) fun _ => .ok trivial

namespace Directive

/-- A wrong number of arguments is reported at the first that is too many, or at the name. -/
theorem argumentCount_faultAmong (keyword : Keyword) {position : Position}
    (named : position ∈ tokens.map Token.position) {arguments : List Argument}
    (among : ∀ a ∈ arguments, a.Among tokens) :
    (argumentCount keyword position arguments).FaultAmong tokens := by
  refine ⟨?_, keyword, rfl⟩
  show (arguments[keyword.most]?.map Argument.start).getD position ∈ _
  cases found : arguments[keyword.most]? with
  | none => exact named
  | some a => exact (among a (List.mem_of_getElem? found)).start

theorem readRule_reports {selectors operator : Argument} {actions : Option Argument}
    (amongSelectors : selectors.Among tokens) (amongOperator : operator.Among tokens)
    (amongActions : ∀ a, actions = some a → a.Among tokens) :
    Reports tokens (readRule selectors operator actions) := by
  refine (Selector.readList_reports amongSelectors.window).bind fun _ _ => ?_
  refine (Operator.read_reports amongOperator.window).bind fun _ _ => ?_
  cases actions with
  | none => exact .ok trivial
  | some a =>
    exact (Action.readList_reports (amongActions a rfl).window).bind fun _ _ => .ok trivial

/-- What a **keyword says** is at fault in its arguments only. -/
theorem Body.read?_reports {keyword : Keyword} {arguments : List Argument}
    (among : ∀ a ∈ arguments, a.Among tokens) {body : Except SyntaxError Body}
    (read : Body.read? keyword arguments = some body) :
    Reports tokens body := by
  -- every keyword but one has a single argument, so only a rule needs cases on their number
  by_cases isRule : keyword = .rule
  · subst isRule
    match arguments with
    | [selectors, operator] =>
      obtain rfl := Option.some.inj read
      exact (readRule_reports (among _ (by simp)) (among _ (by simp)) (by nofun)).map
    | [selectors, operator, actions] =>
      obtain rfl := Option.some.inj read
      refine (readRule_reports (among _ (by simp)) (among _ (by simp)) ?_).map
      intro a same
      cases same
      exact among _ (by simp)
    | [] | [_] | _ :: _ :: _ :: _ :: _ => cases read
  · obtain ⟨a, rfl⟩ := Body.exists_argument isRule read
    have amongArgument := among a List.mem_cons_self
    have amongWindow := amongArgument.window
    cases keyword
    case rule => exact absurd rfl isRule
    all_goals obtain rfl := Option.some.inj read
    case action => exact (Action.readList_reports amongWindow).map
    case defaultAction => exact (Action.readList_reports amongWindow).map
    case marker => exact (Argument.text_reports amongArgument .markerName).map
    case componentSignature => exact (Argument.text_reports amongArgument .componentSignature).map
    case ruleEngine =>
      exact (Setting.readKeyword_reports amongWindow .ruleEngineMode trivial _).map
    case auditEngine =>
      exact (Setting.readKeyword_reports amongWindow .auditEngineMode trivial _).map
    case auditLogParts => exact (Setting.readAuditLogParts_reports amongWindow).map
    case requestBodyAccess =>
      exact (Setting.readSwitch_reports amongWindow (by simp [switchNames])).map
    case responseBodyAccess =>
      exact (Setting.readSwitch_reports amongWindow (by simp [switchNames])).map

end Directive

/-! ### Entries

Entries before the directive with the fault are read whatever comes behind them, and the directive
itself is read from its own tokens.  So the place of the fault is that of one of these. -/

/-- The window between the marks of an argument is closed by the second mark. -/
theorem ArgumentTokens.argument_among {a : ArgumentTokens} (part : a.toList ⊆ tokens) :
    a.argument.Among tokens where
  start := List.mem_map_of_mem (part List.mem_cons_self)
  window := by
    constructor
    · exact fun t inBody => part (List.mem_cons_of_mem _ (List.mem_append_left _ inBody))
    · exact part (List.mem_cons_of_mem _ (List.mem_append_right _ (List.mem_singleton.mpr rfl)))

/-- The **faults of a directive** are among its tokens. -/
theorem DirectiveTokens.read_reports (d : DirectiveTokens) :
    Reports d.toList d.read := by
  have named : d.name.position ∈ d.toList.map Token.position :=
    List.mem_map_of_mem List.mem_cons_self
  have among : ∀ a ∈ d.arguments.map ArgumentTokens.argument, a.Among d.toList := by
    intro a member
    obtain ⟨own, inDirective, rfl⟩ := List.mem_map.mp member
    refine own.argument_among fun t ofArgument => List.mem_cons_of_mem _ ?_
    exact List.mem_flatMap_of_mem inDirective ofArgument
  unfold DirectiveTokens.read
  cases Directive.Keyword.ofName? d.name.value with
  | none => exact .error ⟨named, trivial⟩
  | some keyword =>
    dsimp only
    split
    · next body read =>
      exact (Directive.Body.read?_reports among read).map
    · exact .error (Directive.argumentCount_faultAmong keyword named among)

/-- Entries that all have an item are read to their end. -/
theorem readEntries_of_map_eq {entries : List EntryTokens} {items : List Item}
    (read : entries.map EntryTokens.read = items.map Except.ok) :
    readEntries entries = (items, none) := by
  induction entries generalizing items with
  | nil =>
    obtain rfl : items = [] := List.map_eq_nil_iff.mp read.symm
    rfl
  | cons entry entries ih =>
    obtain ⟨item, others, rfl, first, rest⟩ := List.map_eq_cons_iff.mp read.symm
    rw [readEntries_cons_ok entries first.symm, ih rest.symm]

namespace Document

/-- The **fault that ends a document** is in the first directive that has one.  The tokens before
that directive are read to their end and give the items of the partial document; its own tokens are
no directive whatever closes them; and the fault is reported at one of them. -/
theorem parse_fault {label text : String} {e : SyntaxError}
    (refused : parse label text = .error (.structural e)) :
    ∃ before name rest last progress,
      tokenize label text = .ok (before ++ name :: rest) ∧ name.kind = .directive ∧
      rest.getLast? = some last ∧ last.kind = .endOfInput ∧
      readTokens (before ++ [last]) = (progress, none) ∧
      progress.items.toList = (parsePartial label text).document.items ∧
      (∀ closing, Directive.read ⟨name :: groupOf rest, closing⟩ = .error e) ∧
      ∃ t ∈ name :: groupOf rest, e.position = t.position := by
  rw [parse_eq_strict, Partial.strict_eq_error_iff] at refused
  obtain ⟨d, partially⟩ := refused
  obtain ⟨before, failing, after, last, tokenized, read, fails⟩ := parsePartial_structural partially
  have ending := endOfInput_of_tokenize tokenized
  have group : groupOf ((EntryTokens.directive failing).tail ++ (entryTokens after ++ [last])) =
      (EntryTokens.directive failing).tail := groupOf_tail _ after ending
  refine ⟨entryTokens before, failing.name,
    (EntryTokens.directive failing).tail ++ (entryTokens after ++ [last]), last,
    Progress.addAll ⟨#[], #[]⟩ d.items, ?_, failing.name_kind, ?_, ending, ?_, ?_, ?_, ?_⟩
  · rw [tokenized, entryTokens_append, entryTokens_cons, EntryTokens.toList_eq]
    simp [EntryTokens.head]
  · rw [← List.append_assoc, List.getLast?_concat]
  · rw [readTokens_entryTokens, readEntries_of_map_eq read]
  · rw [partially]
    exact Progress.addAll_items ⟨#[], #[]⟩ d.items
  · intro closing
    -- a directive takes its tokens up to the next entry, so it does not matter what closes them
    have whole := Directive.read_directiveTokens failing [] closing startsEntries_nil
    rw [List.append_nil, fails] at whole
    rw [group]
    exact whole
  · rw [group]
    obtain ⟨t, member, place⟩ := List.mem_map.mp (failing.read_reports.reports _ fails).placed
    exact ⟨t, member, place.symm⟩

/-- The second of three directives refers to a severity that does not exist. -/
theorem parse_fault_severity :
    parse "a" "SecMarker x\nSecAction severity:8\nSecMarker" =
      .error (.structural ⟨.outOfRange "severity" 0 7 "8", ⟨some "a", 2, 20⟩⟩) ∧
    ∃ before name rest last progress,
      tokenize "a" "SecMarker x\nSecAction severity:8\nSecMarker" =
        .ok (before ++ name :: rest) ∧ name.kind = .directive ∧
      rest.getLast? = some last ∧ last.kind = .endOfInput ∧
      readTokens (before ++ [last]) = (progress, none) ∧
      progress.items.toList =
        (parsePartial "a" "SecMarker x\nSecAction severity:8\nSecMarker").document.items ∧
      (∀ closing, Directive.read ⟨name :: groupOf rest, closing⟩ =
        .error ⟨.outOfRange "severity" 0 7 "8", ⟨some "a", 2, 20⟩⟩) ∧
      ∃ t ∈ name :: groupOf rest, (⟨some "a", 2, 20⟩ : Position) = t.position := by
  have refused : parse "a" "SecMarker x\nSecAction severity:8\nSecMarker" =
      .error (.structural ⟨.outOfRange "severity" 0 7 "8", ⟨some "a", 2, 20⟩⟩) := by
    decide +kernel
  exact ⟨refused, parse_fault refused⟩

end Document

end WafRules
