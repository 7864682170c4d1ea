import Mathlib.Data.List.DropRight
import Mathlib.Data.List.TakeWhile
import WafRules.Proofs.Closings
import WafRules.Proofs.Relocation.Actions

/-!
# Lists of actions

Two lists of actions with a comma between them are one list.  Where an action ends depends on its
keyword and on how its value is written, and blanks are a separator for some actions and text for
others, so this is a matter of the seam: the last action of the first list has to end there, and
with the same value.  A comma ends every action.  Blanks end those without a value, those with a
value in quotes, and those whose value is a single word that has begun.

Nothing is said of the first list but that it can be read.  What follows is read as it is alone,
with its own errors.

## Main Definitions

* `Action.ValueForm`, `Action.valueForm` — how the value of an action is written.
* `Action.ValueForm.EndsAtBlanks` — the values that blanks end.
* `Action.Run` — the actions of a window, each with the form of its value.
* `Action.EndsAtBlanks` — the actions that blanks end.

## Main Statements

* `Action.read_append` — an action is read the same when something follows that ends it.
* `Action.Run.readOnto_append` — a whole list, then what follows.
* `Action.readList_append` — lists with a separator between them.
-/

namespace WafRules

namespace Action

/-! ### Forms of values

How a value is written cannot be seen from the action that is read, so the form is taken from the
window.  With it a window that is read as a list is a run of actions, and that run is unique. -/

/-- How the value of an action is written. -/
inductive ValueForm
  /-- There is no colon behind the keyword. -/
  | absent
  /-- In single quotes. -/
  | quoted
  /-- Without quotes, and nothing is there. -/
  | empty
  /-- Without quotes. -/
  | bare
  deriving DecidableEq, Repr

/-- How a value is written that begins where a window does. -/
def ValueForm.behindColon (value : Window) : ValueForm :=
  if value.startsWith (.punct .singleQuote) then .quoted
  else if value.isEmpty ∨ value.startsWith (.punct .comma) then .empty
  else .bare

/-- Whether blanks end a value that is written so, and is a single word or not. -/
def ValueForm.EndsAtBlanks (singleWord : Bool) (form : ValueForm) : Prop :=
  form = .absent ∨ form = .quoted ∨ (form = .bare ∧ singleWord = true)

/-- Blanks end a value without quotes only when it is a single word. -/
theorem ValueForm.EndsAtBlanks.singleWord {singleWord : Bool} {value : Window}
    (ends : (behindColon value).EndsAtBlanks singleWord)
    (noQuote : ¬ value.startsWith (.punct .singleQuote) = true) : singleWord = true := by
  rw [behindColon, if_neg noQuote] at ends
  rcases ends with isAbsent | isQuoted | ⟨-, isSingle⟩
  · split at isAbsent <;> cases isAbsent
  · split at isQuoted <;> cases isQuoted
  · exact isSingle

/-- How the value is written of the action that a window begins with. -/
def valueForm (w : Window) : ValueForm :=
  if (w.drop 1).startsWith (.punct .colon) then .behindColon ((w.drop 1).drop 1).skipBlanks
  else .absent

/-- Whether the value of an action is a **single word**: that of the actions with numbers, of
transformations and control options, of the revision and of the version. -/
def SingleWord : Action → Prop
  | number _ _ | phase _ | severity _ | transform _ | ctl _ | label _ _ => True
  | flag _ | text _ _ | setVar _ | expireVar _ | initCol _ => False

/-- Whether **blanks end** an action: it has no value, or one in quotes, or one that is a single
word and not empty. -/
def EndsAtBlanks (action : Positioned Action × ValueForm) : Prop :=
  (∃ which, action.1.node = .flag which) ∨ action.2 = .quoted ∨
    (action.2 = .bare ∧ action.1.node.SingleWord)

/-- The **actions of a window** that begins with one or is empty, each with the form of its
value. -/
inductive Run : Window → List (Positioned Action × ValueForm) → Prop
  | done {w : Window} (empty : w.isEmpty = true) : Run w []
  | step {w rest : Window} {action : Positioned Action}
    {actions : List (Positioned Action × ValueForm)} (read : Action.read w = .ok (action, rest))
    (separated : rest.isEmpty = true ∨ rest.startsWith (.punct .comma) = true ∨
      rest.startsWith .blanks = true)
    (run : Run (skipSeparators rest) actions) : Run w ((action, valueForm w) :: actions)

/-- What can be read is a run. -/
theorem exists_run {before : Array (Positioned Action)} {w : Window}
    {actions : List (Positioned Action)} (read : readOnto before w = .ok actions) :
    ∃ run, Run w run ∧ actions = before.toList ++ run.map Prod.fst := by
  fun_induction readOnto before w with
  | case1 before w empty =>
    exact ⟨[], .done empty, by simpa using (Except.ok.inj read).symm⟩
  | case2 => cases read
  | case3 before w nonempty action rest found separated ih =>
    obtain ⟨run, isRun, rfl⟩ := ih read
    exact ⟨_, .step found separated isRun, by simp⟩
  | case4 => cases read

/-- An empty window has no actions. -/
theorem Run.eq_nil {w : Window} {run : List (Positioned Action × ValueForm)} (isRun : Run w run)
    (empty : w.tokens = []) : run = [] := by
  cases isRun with
  | done => rfl
  | step read =>
    have shorter := read_length read
    simp [empty] at shorter

/-- A window has no other run. -/
theorem Run.unique {w : Window} {run run' : List (Positioned Action × ValueForm)}
    (isRun : Run w run) (other : Run w run') : run = run' := by
  induction isRun generalizing run' with
  | @done w empty => exact (other.eq_nil (List.isEmpty_iff.mp empty)).symm
  | @step w rest action actions read separated run ih =>
    cases other with
    | done empty => exact (Run.step read separated run).eq_nil (List.isEmpty_iff.mp empty)
    | step read' separated' run' =>
      obtain ⟨rfl, rfl⟩ := Prod.mk.inj (Except.ok.inj (read.symm.trans read'))
      rw [ih run']

/-- The actions read before are in front of the others. -/
theorem readOnto_append_before (before more : Array (Positioned Action)) (w : Window) :
    readOnto (before ++ more) w = (before.toList ++ ·) <$> readOnto more w := by
  fun_induction readOnto more w with
  | case1 more w empty =>
    rw [readOnto_eq, if_pos empty]
    simp
  | case2 more w nonempty e found =>
    rw [readOnto_eq, if_neg nonempty, found]
    rfl
  | case3 more w nonempty action rest found separated ih =>
    rw [readOnto_eq, if_neg nonempty, found, ← ih, Array.append_push]
    exact if_pos separated
  | case4 more w nonempty action rest found together =>
    rw [readOnto_eq, if_neg nonempty, found]
    exact if_neg together

/-! ### One action

What follows an action is a separator and anything behind it.  The reader looks at what follows in
two places only: where a value without quotes ends, and behind a name that no colon follows. -/

/-- Whether a token separates actions. -/
def IsSeparator (t : Token) : Prop := t.kind = .punct .comma ∨ t.kind = .blanks

variable {body : List Token} {closing : Token}

/-- A value in quotes ends at the closing one, whatever follows. -/
theorem quotedValue_append {opening : Position} {value rest : Window}
    (read : quotedValue opening ⟨body, closing⟩ = .ok (value, rest)) (opening' : Position)
    (after : List Token) (closing' : Token) :
    ∃ value', value.Alike .any value' ∧
      quotedValue opening' ⟨body ++ after, closing'⟩ =
        .ok (value', ⟨rest.tokens ++ after, closing'⟩) := by
  unfold quotedValue at read ⊢
  cases found : Window.index? ⟨body, closing⟩ (.punct .singleQuote) with
  | none =>
    rw [found] at read
    cases read
  | some close =>
    rw [found] at read
    cases read
    have inBody : body.findIdx? (·.isKind (.punct .singleQuote)) = some close := found
    obtain ⟨within, -, -⟩ := List.findIdx?_eq_some_iff_getElem.mp inBody
    have found' : Window.index? ⟨body ++ after, closing'⟩ (.punct .singleQuote) = some close := by
      show (body ++ after).findIdx? _ = _
      rw [List.findIdx?_append, inBody]
      rfl
    rw [found']
    refine ⟨_, ?_, congrArg Except.ok (Prod.ext rfl ?_)⟩
    · exact ⟨(List.take_append_of_le_length within.le).symm, trivial⟩
    · show Window.mk (((body ++ after).drop close).drop 1) closing' =
        ⟨((body.drop close).drop 1) ++ after, closing'⟩
      rw [List.drop_drop, List.drop_drop, List.drop_append_of_le_length within]

/-- Whether a token ends a value without quotes. -/
def EndsBare (singleWord : Bool) (t : Token) : Bool :=
  t.isKind (.punct .comma) || singleWord && t.isKind .blanks

/-- A value without quotes ends where it did, or at what follows.  The separator is a token that
such a value stops at, so the tokens in front of it are the same, and they are all that the value
consists of. -/
theorem bareValue_append {singleWord : Bool} {value rest : Window}
    (read : bareValue singleWord ⟨body, closing⟩ = (value, rest)) {separator : Token}
    (ends : rest.tokens = [] → EndsBare singleWord separator = true) (after : List Token)
    (closing' : Token) :
    ∃ value', value.Alike .any value' ∧
      bareValue singleWord ⟨body ++ separator :: after, closing'⟩ =
        (value', ⟨rest.tokens ++ separator :: after, closing'⟩) := by
  have cut (tokens : List Token) (c : Token) : bareValue singleWord ⟨tokens, c⟩ =
      ((Window.splitAt ⟨tokens, c⟩
          (tokens.takeWhile fun t => !EndsBare singleWord t).length).1.trimEnd,
        Window.drop ⟨tokens, c⟩ (tokens.takeWhile fun t => !EndsBare singleWord t).length) := rfl
  rw [cut] at read
  obtain ⟨rfl, rfl⟩ := Prod.mk.inj read
  have within := (List.takeWhile_prefix (fun t => !EndsBare singleWord t) (l := body)).length_le
  have stops : (body ++ separator :: after).takeWhile (fun t => !EndsBare singleWord t) =
      body.takeWhile fun t => !EndsBare singleWord t := by
    rw [List.takeWhile_append]
    split
    · next whole =>
      have atEnd : EndsBare singleWord separator = true := by
        refine ends ?_
        rw [Window.drop_tokens, whole, List.drop_length]
      rw [List.takeWhile_cons_of_neg (by simp [atEnd]), List.append_nil]
      exact ((List.takeWhile_prefix _).eq_of_length whole).symm
    · rfl
  rw [cut, stops]
  refine ⟨_, Window.Alike.trimEnd ?_, Prod.ext rfl ?_⟩
  · exact ⟨(List.take_append_of_le_length within).symm, trivial⟩
  · exact congrArg (Window.mk · closing') (List.drop_append_of_le_length within)

/-- A separator that follows is no opening of a value. -/
theorem startsWith_append {separator : Token} {kind : Token.Kind} (other : separator.kind ≠ kind)
    (after : List Token) (closing closing' : Token) :
    (Window.mk (body ++ separator :: after) closing').startsWith kind =
      (Window.mk body closing).startsWith kind := by
  cases body with
  | nil => simpa [Window.startsWith, Token.isKind] using other
  | cons t rest => rfl

/-- Blanks before a value are skipped as they were, if there is a value or no blanks follow. -/
theorem skipBlanks_append {separator : Token}
    (begun : (Window.mk body closing).skipBlanks.tokens = [] → separator.kind ≠ .blanks)
    (after : List Token) (closing' : Token) :
    (Window.mk (body ++ separator :: after) closing').skipBlanks =
      ⟨(Window.mk body closing).skipBlanks.tokens ++ separator :: after, closing'⟩ := by
  refine congrArg (Window.mk · closing') ?_
  show (body ++ separator :: after).dropWhile _ = body.dropWhile _ ++ separator :: after
  rw [List.dropWhile_append]
  split
  · next ended =>
    have none : body.dropWhile _ = [] := List.isEmpty_iff.mp ended
    have other := begun none
    rw [none, List.dropWhile_cons_of_neg (by simpa using other)]
    rfl
  · rfl

/-- The value behind a colon, and the window after it. -/
def splitBehindColon (singleWord : Bool) (w : Window) :
    Except SyntaxError (Option Window × Window) :=
  if w.startsWith (.punct .singleQuote) then do
    let (value, rest) ← quotedValue w.position (w.drop 1)
    return (some value, rest)
  else
    let (value, rest) := bareValue singleWord w
    .ok (some value, rest)

theorem splitValue_eq (singleWord : Bool) (w : Window) :
    splitValue singleWord w =
      if w.startsWith (.punct .colon) then splitBehindColon singleWord (w.drop 1).skipBlanks
      else .ok (none, w) := rfl

/-- The value behind a colon ends where it did, or at what follows.  In quotes the value has ended
with the quote, so anything may follow it. -/
theorem splitBehindColon_append {singleWord : Bool} {value : Option Window} {rest : Window}
    (read : splitBehindColon singleWord ⟨body, closing⟩ = .ok (value, rest)) {separator : Token}
    (separates : IsSeparator separator)
    (ends : rest.tokens = [] → separator.kind = .punct .comma ∨
      (ValueForm.behindColon ⟨body, closing⟩).EndsAtBlanks singleWord)
    (after : List Token) (closing' : Token) :
    ∃ value', Option.Rel (Window.Alike .any) value value' ∧
      splitBehindColon singleWord ⟨body ++ separator :: after, closing'⟩ =
        .ok (value', ⟨rest.tokens ++ separator :: after, closing'⟩) := by
  have notQuote : separator.kind ≠ .punct .singleQuote := by
    rcases separates with isComma | isBlanks <;> simp [*]
  unfold splitBehindColon at read ⊢
  rw [startsWith_append notQuote after closing closing']
  split at read
  case isTrue quote =>
    obtain ⟨mark, inner, rfl, -⟩ : ∃ mark inner, body = mark :: inner ∧ _ :=
      Window.tokens_of_startsWith quote
    obtain ⟨⟨value, rest⟩, quoted, same⟩ := bind_eq_ok_iff.mp read
    cases same
    obtain ⟨value', alike, quoted'⟩ := quotedValue_append quoted mark.position (separator :: after)
      closing'
    rw [if_pos quote]
    exact ⟨some value', .some alike, bind_eq_ok_iff.mpr ⟨_, quoted', rfl⟩⟩
  case isFalse noQuote =>
    cases bare : bareValue singleWord ⟨body, closing⟩ with
    | mk found left =>
      rw [bare] at read
      cases read
      have endsBare (ended : rest.tokens = []) : EndsBare singleWord separator = true := by
        rcases separates with isComma | isBlanks
        · simp [EndsBare, Token.isKind, isComma]
        · have isSingle := ((ends ended).resolve_left (by simp [isBlanks])).singleWord noQuote
          simp [EndsBare, Token.isKind, isSingle, isBlanks]
      obtain ⟨value', alike, bare'⟩ := bareValue_append bare endsBare after closing'
      rw [if_neg noQuote, bare']
      exact ⟨some value', .some alike, rfl⟩

/-- The value behind a keyword ends where it did, or at what follows.  When there is no colon there
is no value, and what follows is left alone. -/
theorem splitValue_append {singleWord : Bool} {value : Option Window} {rest : Window} {name : Token}
    (read : splitValue singleWord ⟨body, closing⟩ = .ok (value, rest)) {separator : Token}
    (separates : IsSeparator separator)
    (ends : rest.tokens = [] → separator.kind = .punct .comma ∨
      (valueForm ⟨name :: body, closing⟩).EndsAtBlanks singleWord)
    (after : List Token) (closing' : Token) :
    ∃ value', Option.Rel (Window.Alike .any) value value' ∧
      splitValue singleWord ⟨body ++ separator :: after, closing'⟩ =
        .ok (value', ⟨rest.tokens ++ separator :: after, closing'⟩) := by
  have notColon : separator.kind ≠ .punct .colon := by
    rcases separates with isComma | isBlanks <;> simp [*]
  rw [splitValue_eq] at read ⊢
  rw [startsWith_append notColon after closing closing']
  split at read
  case isFalse noColon =>
    rw [if_neg noColon]
    cases read
    exact ⟨none, .none, rfl⟩
  case isTrue colon =>
    rw [if_pos colon]
    obtain ⟨mark, front, rfl, -⟩ : ∃ mark front, body = mark :: front ∧ _ :=
      Window.tokens_of_startsWith colon
    have form : valueForm ⟨name :: mark :: front, closing⟩ =
        .behindColon (Window.mk front closing).skipBlanks := if_pos colon
    rw [form] at ends
    change splitBehindColon singleWord (Window.mk front closing).skipBlanks = _ at read
    -- where no value has begun, blanks would be skipped with those before it
    have begun (ended : (Window.mk front closing).skipBlanks.tokens = []) :
        separator.kind ≠ .blanks := by
      have nothing : (Window.mk front closing).skipBlanks = ⟨[], closing⟩ :=
        congrArg (Window.mk · closing) ended
      rw [nothing] at read ends
      cases read
      rcases ends rfl with isComma | isAbsent | isQuoted | ⟨isBare, -⟩
      · simp [isComma]
      · cases isAbsent
      · cases isQuoted
      · cases isBare
    show ∃ value', _ ∧ splitBehindColon singleWord
      (Window.mk (front ++ separator :: after) closing').skipBlanks = _
    rw [skipBlanks_append begun]
    exact splitBehindColon_append read separates ends after closing'

/-- An action without a colon behind its keyword has no value. -/
theorem valueForm_of_splitValue {singleWord : Bool} {rest : Window}
    (read : splitValue singleWord ⟨body, closing⟩ = .ok (none, rest)) (name : Token) :
    valueForm ⟨name :: body, closing⟩ = .absent := by
  rw [splitValue_eq] at read
  split at read
  · exfalso
    unfold splitBehindColon at read
    split at read
    · obtain ⟨split, -, same⟩ := bind_eq_ok_iff.mp read
      cases same
    · cases read
  · next noColon => exact if_neg noColon

/-- The keyword that a value was read for is that of the action. -/
theorem keyword_of_ofValue {keyword : Keyword} {v : ActionValue} {action : Action}
    (read : ofValue keyword v = .ok action) : action.keyword = keyword := by
  cases keyword <;> simp only [ofValue, map_eq_pure_bind, bind_eq_ok_iff] at read
  case flag | text | number | label | phase | severity | transform =>
    obtain ⟨value, -, same⟩ := read
    cases same
    rfl
  case setVar | expireVar | initCol | ctl =>
    obtain ⟨value, -, shaped, -, same⟩ := read
    cases same
    rfl

/-- The keyword of an action says whether its value is a single word. -/
theorem singleWord_iff {action : Action} :
    action.SingleWord ↔ action.keyword.isSingleWord = true := by
  cases action <;> simp [SingleWord, keyword, Keyword.isSingleWord]

/-- What ends an action ends its value. -/
theorem endsAtBlanks_of_ofValue {singleWord : Bool} {keyword : Keyword} {name : Token}
    {value : Option Window} {rest : Window} {node : Action} {p : Position}
    (split : splitValue singleWord ⟨body, closing⟩ = .ok (value, rest))
    (read : ofValue keyword ⟨name, value⟩ = .ok node)
    (ends : EndsAtBlanks (⟨node, p⟩, valueForm ⟨name :: body, closing⟩)) :
    (valueForm ⟨name :: body, closing⟩).EndsAtBlanks keyword.isSingleWord := by
  rcases ends with ⟨which, isFlag⟩ | isQuoted | ⟨isBare, isSingle⟩
  · obtain rfl : keyword = .flag which :=
      (keyword_of_ofValue read).symm.trans (congrArg Action.keyword isFlag)
    cases value with
    | none => exact .inl (valueForm_of_splitValue split name)
    | some value => cases read
  · exact .inr (.inl isQuoted)
  · rw [singleWord_iff, keyword_of_ofValue read] at isSingle
    exact .inr (.inr ⟨isBare, isSingle⟩)

/-- An **action is read the same** when something follows that ends it.  Its name, the reader of its
value and the window of the value are the same, but for the token that closes the window; and values
are the same whatever closes their window. -/
theorem read_append {action : Positioned Action} {rest : Window}
    (read : Action.read ⟨body, closing⟩ = .ok (action, rest)) {separator : Token}
    (separates : IsSeparator separator)
    (ends : rest.tokens = [] → separator.kind = .punct .comma ∨
      EndsAtBlanks (action, valueForm ⟨body, closing⟩))
    (after : List Token) (closing' : Token) :
    Action.read ⟨body ++ separator :: after, closing'⟩ =
      .ok (action, ⟨rest.tokens ++ separator :: after, closing'⟩) := by
  simp only [Action.read, bind_eq_ok_iff] at read
  obtain ⟨⟨name, w⟩, expected, ⟨value, rest'⟩, split, read⟩ := read
  obtain ⟨tokens, isWord, closes⟩ := Window.expect_eq_ok expected
  obtain ⟨front, closing⟩ := w
  obtain rfl : body = name :: front := tokens
  cases closes
  dsimp only at split read
  cases known : Keyword.ofName? name.value with
  | none =>
    rw [known] at read
    cases read
  | some keyword =>
    rw [known] at split read
    obtain ⟨node, shaped, same⟩ := bind_eq_ok_iff.mp read
    cases same
    have endsHere (ended : rest.tokens = []) : separator.kind = .punct .comma ∨
        (valueForm ⟨name :: front, closing⟩).EndsAtBlanks keyword.isSingleWord :=
      (ends ended).imp_right (endsAtBlanks_of_ofValue split shaped)
    obtain ⟨value', alike, split'⟩ := splitValue_append split separates endsHere after closing'
    obtain ⟨_, shaped', rfl⟩ := (ofValue_agree alike keyword name).exists_ok shaped
    have expected' : Window.expect ⟨name :: front ++ separator :: after, closing'⟩ .word
        .actionName = .ok (name, ⟨front ++ separator :: after, closing'⟩) :=
      if_pos (beq_iff_eq.mpr isWord)
    simp only [Action.read, bind_eq_ok_iff]
    refine ⟨_, expected', (value', ⟨rest.tokens ++ separator :: after, closing'⟩), ?_, ?_⟩
    · rw [known]
      exact split'
    · rw [known]
      exact bind_eq_ok_iff.mpr ⟨_, shaped', rfl⟩

/-! ### Lists

The run of the first list is read action by action, each with the rest of the list and what follows
behind it; only for the last of them does the separator of the seam matter. -/

/-- Separators behind separators are skipped with them. -/
theorem skipSeparators_append (front after : List Token) (closing closing' : Token) :
    skipSeparators ⟨(skipSeparators ⟨front, closing⟩).tokens ++ after, closing'⟩ =
      skipSeparators ⟨front ++ after, closing'⟩ := by
  refine congrArg (Window.mk · closing') ?_
  show (front.dropWhile _ ++ after).dropWhile _ = (front ++ after).dropWhile _
  rw [List.dropWhile_append, List.dropWhile_append, List.dropWhile_idempotent]

theorem skipSeparators_separator {separator : Token} (separates : IsSeparator separator)
    (after : List Token) (closing : Token) :
    skipSeparators ⟨separator :: after, closing⟩ = skipSeparators ⟨after, closing⟩ := by
  refine congrArg (Window.mk · closing) (List.dropWhile_cons_of_pos ?_)
  rcases separates with isComma | isBlanks
  · simp [isComma]
  · simp [isBlanks]

/-- What separates an action from the rest is there, or the separator that follows is. -/
theorem IsSeparator.startsWith {separator : Token} (separates : IsSeparator separator) {w : Window}
    (separated : w.isEmpty = true ∨ w.startsWith (.punct .comma) = true ∨
      w.startsWith .blanks = true) (after : List Token) (closing' : Token) :
    (Window.mk (w.tokens ++ separator :: after) closing').startsWith (.punct .comma) = true ∨
      (Window.mk (w.tokens ++ separator :: after) closing').startsWith .blanks = true := by
  obtain ⟨tokens, closing⟩ := w
  cases tokens with
  | nil => exact separates.imp beq_iff_eq.mpr beq_iff_eq.mpr
  | cons t rest => exact separated.resolve_left nofun

/-- Nothing is skipped before an action. -/
theorem skipSeparators_of_read {action : Positioned Action} {rest : Window}
    (read : Action.read ⟨body, closing⟩ = .ok (action, rest)) (after : List Token)
    (closing' : Token) : skipSeparators ⟨body ++ after, closing'⟩ = ⟨body ++ after, closing'⟩ := by
  obtain ⟨⟨name, w⟩, expected, -⟩ := bind_eq_ok_iff.mp read
  obtain ⟨tokens, isWord, -⟩ := Window.expect_eq_ok expected
  obtain rfl : body = name :: w.tokens := tokens
  exact congrArg (Window.mk · closing') (List.dropWhile_cons_of_neg (by simp [isWord]))

/-- A **list of actions, then what follows**: the reader comes to it with the actions of the
list. -/
theorem Run.readOnto_append {w : Window} {run : List (Positioned Action × ValueForm)}
    (isRun : Run w run) {separator : Token} (separates : IsSeparator separator)
    (ends : separator.kind = .punct .comma ∨ ∀ last ∈ run.getLast?, EndsAtBlanks last)
    (before : Array (Positioned Action)) (after : List Token) (closing' : Token) :
    readOnto before (skipSeparators ⟨w.tokens ++ separator :: after, closing'⟩) =
      readOnto (before ++ (run.map Prod.fst).toArray) (skipSeparators ⟨after, closing'⟩) := by
  induction isRun generalizing before with
  | @done w empty =>
    rw [List.isEmpty_iff.mp empty, List.nil_append, skipSeparators_separator separates]
    simp
  | @step w rest action actions read separated run ih =>
    -- an action with nothing behind it is the last one
    have endsHere (ended : rest.tokens = []) : separator.kind = .punct .comma ∨
        EndsAtBlanks (action, valueForm w) := by
      refine ends.imp_right fun endsLast => endsLast _ ?_
      have none : (skipSeparators rest).tokens = [] :=
        List.suffix_nil.mp (ended ▸ skipSeparators_suffix rest)
      rw [run.eq_nil none]
      rfl
    have endsThere : separator.kind = .punct .comma ∨ ∀ last ∈ actions.getLast?,
        EndsAtBlanks last := by
      refine ends.imp_right fun endsLast last isLast => endsLast last ?_
      rw [List.getLast?_cons, isLast]
      rfl
    have separated' := separates.startsWith separated after closing'
    rw [skipSeparators_of_read read, readOnto_eq, if_neg (by simp [Window.isEmpty]),
      read_append read separates endsHere after closing']
    show (if _ then readOnto (before.push action) _ else _) = _
    rw [if_pos (.inr separated'), ← skipSeparators_append, ih endsThere]
    simp

/-- **Lists with a separator between them.**  The actions of what stands behind are put behind those
in front, and when it is refused the whole is refused with the same error.  The run names for every
action how its value is delimited, which is what decides whether blanks may separate it from the
next. -/
theorem readList_append {front : List Token} {closing : Token} {actions : List (Positioned Action)}
    (read : readList ⟨front, closing⟩ = .ok actions) :
    ∃ run, Run (skipSeparators ⟨front, closing⟩) run ∧ run.map Prod.fst = actions ∧
      ∀ separator : Token, separator.kind = .punct .comma ∨
          (separator.kind = .blanks ∧ ∀ last ∈ run.getLast?, EndsAtBlanks last) →
        ∀ after closing', readList ⟨front ++ separator :: after, closing'⟩ =
          (actions ++ ·) <$> readList ⟨after, closing'⟩ := by
  obtain ⟨run, isRun, same⟩ := exists_run read
  have actions_eq : run.map Prod.fst = actions := by simpa using same.symm
  refine ⟨run, isRun, actions_eq, fun separator ends after closing' => ?_⟩
  have separates : IsSeparator separator := ends.imp_right And.left
  have joined := isRun.readOnto_append separates (ends.imp_right And.right) #[] after closing'
  unfold readList
  rw [← skipSeparators_append front _ closing, joined, Array.empty_append, actions_eq]
  exact readOnto_append_before actions.toArray #[] _

open Lexer (token)

/-- A numeral ends at blanks, with one action before it and an unknown one behind. -/
theorem readList_append_numeral :
    ∃ (front after : List Token) (blanks closing : Token) (actions : List (Positioned Action))
        (e : SyntaxError),
      readList ⟨front, closing⟩ = .ok actions ∧
      actions.map Positioned.node = [.flag .deny, .number .id 5] ∧ blanks.kind = .blanks ∧
      readList ⟨after, closing⟩ = .error e ∧
      readList ⟨front ++ blanks :: after, closing⟩ = .error e := by
  let name : Token := token .word "id" ⟨none, 1, 17⟩
  let colon : Token := token (.punct .colon) ":" ⟨none, 1, 19⟩
  let value : Token := token .word "5" ⟨none, 1, 20⟩
  let front : List Token :=
    [token .word "deny" ⟨none, 1, 12⟩, token (.punct .comma) "," ⟨none, 1, 16⟩, name, colon, value]
  let blanks : Token := token .blanks " " ⟨none, 1, 21⟩
  let after : List Token := [token .word "unheard" ⟨none, 1, 22⟩]
  let closing : Token := token .argumentStop "\"" ⟨none, 1, 29⟩
  let deny : Positioned Action := ⟨.flag .deny, ⟨none, 1, 12⟩⟩
  let id : Positioned Action := ⟨.number .id 5, ⟨none, 1, 17⟩⟩
  have read : readList ⟨front, closing⟩ = .ok [deny, id] := by decide +kernel
  have unknown : readList ⟨after, closing⟩ = .error ⟨.unknownAction "unheard", ⟨none, 1, 22⟩⟩ := by
    decide +kernel
  have theRun : Run ⟨front, closing⟩ [(deny, .absent), (id, .bare)] :=
    @Run.step _ ⟨front.drop 1, closing⟩ _ _ (by decide +kernel) (.inr (.inl rfl))
      (@Run.step _ ⟨[], closing⟩ _ _ (by decide +kernel) (.inl rfl) (.done rfl))
  obtain ⟨run, isRun, -, joined⟩ := readList_append read
  obtain rfl := isRun.unique theRun
  have ends : ∀ last ∈ [(deny, ValueForm.absent), (id, .bare)].getLast?, EndsAtBlanks last := by
    rintro last ⟨⟩
    exact .inr (.inr ⟨rfl, trivial⟩)
  refine ⟨front, after, blanks, closing, _, _, read, rfl, rfl, unknown, ?_⟩
  rw [joined blanks (.inr ⟨rfl, ends⟩) after closing, unknown]
  rfl

end Action

end WafRules
