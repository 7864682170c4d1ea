import WafRules.Action.Reader
import WafRules.Directive
import WafRules.Operator.Reader
import WafRules.Text.Blank

/-!
# Reading directives

A directive is a keyword and arguments; the keyword decides how many arguments there are and how
each is read.

## Main Definitions

* `Argument.readAll` — the arguments at the start of a window.
* `Directive.Body.read` — what a keyword says with given arguments.
* `Directive.read` — one directive, and the window after it.
-/

namespace WafRules

/-- The tokens of an argument, with the place where it starts. -/
structure Argument where
  start : Position
  window : Window

namespace Argument

/-- The arguments at the start of a window, after those read `before`, and the window after
them. -/
def readOnto (before : Array Argument) (w : Window) :
    Except SyntaxError (List Argument × Window) :=
  if w.startsWith .argumentStart then
    let body := w.drop 1
    match body.index? .argumentStop with
    | none => .error (unexpected .argumentEnd body.closing)
    | some stop =>
      let parts := body.splitAt stop
      readOnto (before.push ⟨w.position, parts.1⟩) (parts.2.drop 1)
  else .ok (before.toList, w)
termination_by w.tokens.length
decreasing_by
  obtain ⟨t, rest, tokens, -⟩ := Window.tokens_of_startsWith (by assumption)
  have shorter : (w.drop 1).tokens.length < w.tokens.length := by
    rw [Window.drop_tokens, tokens]
    exact Nat.lt_succ_self _
  have within := ((Window.drop_suffix _ 1).trans ((w.drop 1).splitAt_suffix stop)).length_le
  exact Nat.lt_of_le_of_lt within shorter

theorem readOnto_suffix {before : Array Argument} {w rest : Window} {arguments : List Argument}
    (read : readOnto before w = .ok (arguments, rest)) : rest.tokens <:+ w.tokens := by
  fun_induction readOnto before w with
  | case1 => cases read
  | case2 before w starts body stop found parts ih =>
    exact (ih read).trans ((Window.drop_suffix _ 1).trans
      ((body.splitAt_suffix stop).trans (w.drop_suffix 1)))
  | case3 =>
    cases read
    exact List.suffix_rfl

/-- The arguments at the start of a window, and the window after them. -/
def readAll (w : Window) : Except SyntaxError (List Argument × Window) := readOnto #[] w

/-- A text that is not empty but for spaces. -/
def text (a : Argument) (what : FreeText) : Except SyntaxError String :=
  if (Text.trim a.window.text).isEmpty then .error ⟨.missingText what, a.start⟩
  else .ok a.window.text

end Argument

namespace Directive

/-- The error of a keyword with the wrong number of arguments, at the first that is too many or
else at the keyword. -/
def argumentCount (keyword : Keyword) (position : Position) (arguments : List Argument) :
    SyntaxError :=
  ⟨.argumentCount keyword.spelling keyword.least keyword.most arguments.length,
    (arguments[keyword.most]?.map Argument.start).getD position⟩

/-- A rule from its arguments; the last one may be missing. -/
def readRule (selectors operator : Argument) (actions : Option Argument) :
    Except SyntaxError Rule := do
  let selectors ← Selector.readList selectors.window
  let operator ← Operator.read operator.window
  match actions with
  | none => return ⟨selectors, operator, []⟩
  | some actions => return ⟨selectors, operator, ← Action.readList actions.window⟩

/-- What a keyword says with its arguments; nothing if their number is wrong. -/
def Body.read? : Keyword → List Argument → Option (Except SyntaxError Body)
  | .rule, [selectors, operator] => some (rule <$> readRule selectors operator none)
  | .rule, [selectors, operator, actions] =>
    some (rule <$> readRule selectors operator (some actions))
  | .action, [a] => some (action <$> Action.readList a.window)
  | .defaultAction, [a] => some (defaultAction <$> Action.readList a.window)
  | .marker, [a] => some (marker <$> a.text .markerName)
  | .componentSignature, [a] => some (componentSignature <$> a.text .componentSignature)
  | .ruleEngine, [a] => some (ruleEngine <$> Setting.readRuleEngine a.window)
  | .auditEngine, [a] => some (auditEngine <$> Setting.readAuditEngine a.window)
  | .auditLogParts, [a] => some (auditLogParts <$> Setting.readAuditLogParts a.window)
  | .requestBodyAccess, [a] =>
    some (requestBodyAccess <$> Setting.readSwitch "SecRequestBodyAccess" a.window)
  | .responseBodyAccess, [a] =>
    some (responseBodyAccess <$> Setting.readSwitch "SecResponseBodyAccess" a.window)
  | _, _ => none

/-- One directive, and the window after it. -/
def read (w : Window) : Except SyntaxError (Directive × Window) := do
  let (name, rest) ← w.expect .directive .directive
  match Keyword.ofName? name.value with
  | none => throw ⟨.unknownDirective name.value, name.position⟩
  | some keyword =>
    let (arguments, rest) ← Argument.readAll rest
    match Body.read? keyword arguments with
    | some body => return (⟨← body, name.position⟩, rest)
    | none => throw (argumentCount keyword name.position arguments)

/-- Reading a directive makes the window shorter. -/
theorem read_length {w rest : Window} {d : Directive} (read : Directive.read w = .ok (d, rest)) :
    rest.tokens.length < w.tokens.length := by
  simp only [Directive.read, bind_eq_ok_iff] at read
  obtain ⟨⟨name, afterName⟩, readName, read⟩ := read
  have first := Window.expect_length readName
  dsimp only at read
  split at read
  · cases read
  · simp only [bind_eq_ok_iff] at read
    obtain ⟨⟨arguments, afterArguments⟩, readArguments, read⟩ := read
    have second := (Argument.readOnto_suffix readArguments).length_le
    dsimp only at second read
    split at read
    · simp only [bind_eq_ok_iff] at read
      obtain ⟨body, -, same⟩ := read
      cases same
      omega
    · cases read

end Directive

end WafRules
