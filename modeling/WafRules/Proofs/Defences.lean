import WafRules.Proofs.Faults.Documents
import WafRules.Proofs.Faults.Wording
import WafRules.Proofs.Partial.Salvage

/-!
# Idle checks

Some checks of the readers are there for completeness alone.  The arguments of a directive are
looked up by their index after they have been counted, so no index is out of range.  A document is
read from whole entries, even when they are salvaged from a malformed text, so nothing but an entry
is found between entries and every argument is closed.  The level of a severity is in its bounds
before it is looked up.  And when a text is malformed inside a directive, there is a name to cut the
tokens at, and the error has a place for the end mark.

## Main Definitions

* `Directive.Body.indexed?`, `Directive.readIndexed` — reading a directive by the indices of its
  arguments, where an index out of range gives nothing.

## Main Statements

* `Directive.readIndexed_eq` — no index is out of range.
* `Document.checks_idle` — no text sets off an idle check.
-/

namespace WafRules

namespace Directive

/-! ### Arguments by their indices

Reading with indices is defined beside the reader with patterns, so that an index out of range can
be told from an error.  The two are equal because the number of arguments is checked first. -/

/-- What a keyword says with arguments that are looked up by their indices; nothing if an index is
out of range.  The third argument of a rule may be missing. -/
def Body.indexed? (keyword : Keyword) (arguments : List Argument) :
    Option (Except SyntaxError Body) :=
  match keyword with
  | .rule => do
    let selectors ← arguments[0]?
    let operator ← arguments[1]?
    return rule <$> readRule selectors operator arguments[2]?
  | .action => arguments[0]?.map fun a => action <$> Action.readList a.window
  | .defaultAction => arguments[0]?.map fun a => defaultAction <$> Action.readList a.window
  | .marker => arguments[0]?.map fun a => marker <$> a.text .markerName
  | .componentSignature =>
    arguments[0]?.map fun a => componentSignature <$> a.text .componentSignature
  | .ruleEngine => arguments[0]?.map fun a => ruleEngine <$> Setting.readRuleEngine a.window
  | .auditEngine => arguments[0]?.map fun a => auditEngine <$> Setting.readAuditEngine a.window
  | .auditLogParts =>
    arguments[0]?.map fun a => auditLogParts <$> Setting.readAuditLogParts a.window
  | .requestBodyAccess => arguments[0]?.map fun a =>
    requestBodyAccess <$> Setting.readSwitch "SecRequestBodyAccess" a.window
  | .responseBodyAccess => arguments[0]?.map fun a =>
    responseBodyAccess <$> Setting.readSwitch "SecResponseBodyAccess" a.window

/-- One directive, and the window after it.  The arguments are counted and then looked up. -/
def readIndexed (w : Window) : Option (Except SyntaxError (Directive × Window)) :=
  match w.expect .directive .directive with
  | .error e => some (.error e)
  | .ok (name, rest) =>
    match Keyword.ofName? name.value with
    | none => some (.error ⟨.unknownDirective name.value, name.position⟩)
    | some keyword =>
      match Argument.readAll rest with
      | .error e => some (.error e)
      | .ok (arguments, rest) =>
        if keyword.least ≤ arguments.length ∧ arguments.length ≤ keyword.most then
          (Body.indexed? keyword arguments).map fun body =>
            body.map fun body => (⟨body, name.position⟩, rest)
        else some (.error (argumentCount keyword name.position arguments))

/-- What a keyword says depends on the number of its arguments: when it is right, every index is in
range. -/
theorem Body.read?_eq (keyword : Keyword) (arguments : List Argument) :
    Body.read? keyword arguments =
      if keyword.least ≤ arguments.length ∧ arguments.length ≤ keyword.most then
        Body.indexed? keyword arguments
      else none := by
  cases keyword with
  | rule =>
    match arguments with
    | [] | [_] | [_, _] | [_, _, _] => rfl
    | _ :: _ :: _ :: _ :: more =>
      rw [if_neg]
      · rfl
      · simp [Keyword.most]
  | action | defaultAction | marker | componentSignature | ruleEngine | auditEngine
  | auditLogParts | requestBodyAccess | responseBodyAccess =>
    match arguments with
    | [] | [_] => rfl
    | _ :: _ :: more =>
      rw [if_neg]
      · rfl
      · simp [Keyword.most]

/-- When there are enough arguments, no index is out of range. -/
theorem Body.exists_indexed? {keyword : Keyword} {arguments : List Argument}
    (enough : keyword.least ≤ arguments.length) :
    ∃ body, Body.indexed? keyword arguments = some body := by
  cases keyword with
  | rule =>
    match arguments with
    | [] | [_] => exact absurd enough (by simp [Keyword.least])
    | _ :: _ :: _ => exact ⟨_, rfl⟩
  | action | defaultAction | marker | componentSignature | ruleEngine | auditEngine
  | auditLogParts | requestBodyAccess | responseBodyAccess =>
    match arguments with
    | [] => cases enough
    | _ :: _ => exact ⟨_, rfl⟩

/-- **No index is out of range** in any window.  The number of arguments is tested before any of
them is looked up, and each keyword looks up no more than it asks for. -/
theorem readIndexed_eq (w : Window) : readIndexed w = some (read w) := by
  unfold readIndexed read
  cases w.expect .directive .directive with
  | error e => rfl
  | ok found =>
    obtain ⟨name, rest⟩ := found
    simp only [bind, Except.bind]
    cases Keyword.ofName? name.value with
    | none => rfl
    | some keyword =>
      dsimp only
      cases Argument.readAll rest with
      | error e => rfl
      | ok found =>
        obtain ⟨arguments, rest⟩ := found
        dsimp only
        rw [Body.read?_eq]
        split
        · next counted =>
          obtain ⟨body, indexed⟩ := Body.exists_indexed? counted.1
          rw [indexed]
          cases body <;> rfl
        · rfl

end Directive

namespace Document

variable {label text : String}

/-! ### Messages

A message of an error that arises is not one of the three, whichever part reports it. -/

/-- The **messages of a text** begin otherwise than those of idle checks. -/
theorem failure_begins {e : ParseError} (failed : (parsePartial label text).failure = some e) :
    BeginsOtherwise e.message := by
  cases e with
  | lexical e => exact e.cause.message_begins
  | structural e =>
    -- a fault of a document is one of the directive that ends it
    have read : parsePartial label text =
        ⟨(parsePartial label text).document, some (.structural e)⟩ := by rw [← failed]
    obtain ⟨-, failing, -, -, -, -, fails⟩ := parsePartial_structural read
    exact SyntaxCause.message_begins (failing.read_reports.reports e fails).arises
  | storage e =>
    -- no storage is read from here
    rw [parsePartial, parsePartialLogged_eq, Option.or_eq_some_iff] at failed
    simp at failed

/-! ### Malformed texts

An error inside a directive is one behind its name, so the name is among the tokens. -/

/-- The name that the tokens are cut at, when a text is malformed inside a directive. -/
theorem exists_lastName {e : LexError} (failed : (Lexer.scan label text).failure = some e)
    (inside : e.cause.insideDirective = true) :
    ∃ front name others, (Lexer.scan label text).tokens = front ++ name :: others ∧
      name.kind = .directive ∧ (∀ t ∈ others, t.kind ≠ .directive) ∧
      beforeLastDirective (Lexer.scan label text).tokens = front := by
  obtain ⟨-, -, entries, others, -, -, -, -, tokens, leftOver⟩ := exists_salvaged failed
  -- nothing is left over between directives; inside one, its name is the last of the tokens
  rcases leftOver with ⟨-, outside⟩ | ⟨name, others, rfl, isName, noName, -⟩
  · rw [inside] at outside
    cases outside
  · refine ⟨entryTokens entries, name, others, tokens, isName, noName, ?_⟩
    rw [tokens, beforeLastDirective_append _ isName noName]

/-- **No text sets off an idle check.**  Every index of an argument is in range, whatever window a
directive is read from.  No message is one of those that belong to idle checks.  The tokens that the
entries of a partial document are read from end with an end mark, and the argument marks before it
come in pairs.  When the text is malformed, the error has a place in it, and inside a directive
there is a last name to cut the tokens at. -/
theorem checks_idle (label text : String) :
    (∀ w, Directive.readIndexed w = some (Directive.read w)) ∧
    (∀ e, parse label text = .error e ∨ (parsePartial label text).failure = some e →
      ∀ opening ∈ ["expected comment or directive", "expected end of argument",
        "invalid severity"], ¬ opening.toList <+: e.message.toList) ∧
    (∃ kept last, partialTokens label text = kept ++ [last] ∧ last.kind = .endOfInput ∧
      Balanced false kept) ∧
    ∀ e, (Lexer.scan label text).failure = some e →
      (e.cause.insideDirective = true →
        ∃ front name others, (Lexer.scan label text).tokens = front ++ name :: others ∧
          name.kind = .directive ∧ (∀ t ∈ others, t.kind ≠ .directive) ∧
          beforeLastDirective (Lexer.scan label text).tokens = front) ∧
      (ParseError.lexical e).position? = some e.position ∧
      (partialTokens label text).getLast? = some (Lexer.token .endOfInput "" e.position) ∧
      ∃ before rest, text.toList = before ++ rest ∧
        e.position = (Position.start label).advance before := by
  refine ⟨Directive.readIndexed_eq, ?_, ?_, ?_⟩
  · rintro e failed opening listed
    -- both readings report the same failure, so one case covers them
    have partially : (parsePartial label text).failure = some e := by
      rcases failed with refused | partially
      · rw [parse_eq_strict, Partial.strict_eq_error_iff] at refused
        obtain ⟨d, read⟩ := refused
        rw [read]
      · exact partially
    exact (failure_begins partially).not_opening opening listed
  · obtain ⟨entries, last, tokens, ending⟩ := exists_partialEntries label text
    exact ⟨entryTokens entries, last, tokens, ending, balanced_entryTokens entries⟩
  · intro e failed
    refine ⟨exists_lastName failed, rfl, ?_, Lexer.exists_place failed⟩
    rw [partialTokens, failed]
    exact List.getLast?_concat

/-- A quote that is not closed, behind the name of a second directive. -/
theorem checks_idle_quote :
    parse "" "SecMarker x\nSecRule \"" =
      .error (.lexical ⟨.unterminatedQuote, ⟨none, 2, 9⟩⟩) ∧
    (Lexer.scan "" "SecMarker x\nSecRule \"").failure =
      some ⟨.unterminatedQuote, ⟨none, 2, 9⟩⟩ ∧
    (∀ opening ∈ ["expected comment or directive", "expected end of argument",
      "invalid severity"], ¬ opening.toList <+: "unterminated quoted argument".toList) ∧
    (∃ front name others,
      (Lexer.scan "" "SecMarker x\nSecRule \"").tokens = front ++ name :: others ∧
      name.kind = .directive ∧ (∀ t ∈ others, t.kind ≠ .directive) ∧
      beforeLastDirective (Lexer.scan "" "SecMarker x\nSecRule \"").tokens = front) ∧
    ∃ before rest, "SecMarker x\nSecRule \"".toList = before ++ rest ∧
      (⟨none, 2, 9⟩ : Position) = (Position.start "").advance before := by
  have failed : (Lexer.scan "" "SecMarker x\nSecRule \"").failure =
      some ⟨.unterminatedQuote, ⟨none, 2, 9⟩⟩ := by decide +kernel
  have refused : parse "" "SecMarker x\nSecRule \"" =
      .error (.lexical ⟨.unterminatedQuote, ⟨none, 2, 9⟩⟩) := by decide +kernel
  obtain ⟨-, messages, -, malformed⟩ := checks_idle "" "SecMarker x\nSecRule \""
  obtain ⟨cut, -, -, place⟩ := malformed _ failed
  exact ⟨refused, failed, messages _ (.inl refused), cut rfl, place⟩

end Document

end WafRules
