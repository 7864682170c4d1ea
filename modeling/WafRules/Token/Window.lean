import WafRules.Error

/-!
# Token windows

Directives are read from windows: stretches of tokens together with the token that follows.
A reader takes a window to a value and the rest of the window.  The closing token is not part
of the window; it is what a diagnostic reports when the window is too short.

## Main Definitions

* `Window` — tokens and the token after them.
* `Window.first`, `Window.startsWith` — the token a reader is at.
* `Window.drop`, `Window.splitAt`, `Window.trimEnd` — smaller windows.
* `Window.indexOutsideMacros?` — the first token of a kind that no macro encloses.
* `Window.expect`, `Window.singleWord`, `Window.finish` — the elementary readers.
-/

namespace WafRules

/-- Tokens to read, and the token that follows them. -/
structure Window where
  tokens : List Token
  closing : Token
  deriving DecidableEq, Repr

/-- The error at a token that is not what a reader expects. -/
def unexpected (what : Expected) (found : Token) : SyntaxError :=
  ⟨.expected what found.toLexeme, found.position⟩

/-- A reader made of two steps succeeds exactly when both do. -/
theorem bind_eq_ok_iff {ε α β : Type} {x : Except ε α} {f : α → Except ε β} {b : β} :
    (x >>= f) = .ok b ↔ ∃ a, x = .ok a ∧ f a = .ok b := by
  cases x with
  | error e => simp [bind, Except.bind]
  | ok a => simp [bind, Except.bind]

/-- A result that is made of another one succeeds when that one does. -/
theorem map_eq_ok_iff {ε α β : Type} {f : α → β} {result : Except ε α} {b : β} :
    result.map f = .ok b ↔ ∃ a, result = .ok a ∧ f a = b := by
  cases result with
  | error e => exact ⟨nofun, nofun⟩
  | ok a => simp [Except.map]

namespace Window

/-- The first token, or the closing one when there is none. -/
def first (w : Window) : Token := w.tokens.headD w.closing

/-- Whether the window has no tokens. -/
def isEmpty (w : Window) : Bool := w.tokens.isEmpty

/-- Whether the first token of the window itself has the given kind. -/
def startsWith (w : Window) (kind : Token.Kind) : Bool :=
  w.tokens.head?.any (·.isKind kind)

/-- Where the window starts. -/
def position (w : Window) : Position := w.first.position

/-- The text of the tokens, joined. -/
def text (w : Window) : String := String.ofList (w.tokens.flatMap fun t => t.value.toList)

/-- The window without its first tokens. -/
def drop (w : Window) (n : Nat) : Window := { w with tokens := w.tokens.drop n }

/-- The window from the first token of another kind on. -/
def dropKinds (w : Window) (kinds : List Token.Kind) : Window :=
  { w with tokens := w.tokens.dropWhile fun t => kinds.contains t.kind }

/-- The window without the blanks it starts with. -/
def skipBlanks (w : Window) : Window := w.dropKinds [.blanks]

/-- The first `n` tokens, closed by the token after them, and the rest. -/
def splitAt (w : Window) (n : Nat) : Window × Window :=
  (⟨w.tokens.take n, (w.tokens.drop n).headD w.closing⟩, w.drop n)

/-- The window without the blanks it ends with, closed by the first of them. -/
def trimEnd (w : Window) : Window :=
  let blanks := (w.tokens.reverse.takeWhile (·.isKind .blanks)).length
  (w.splitAt (w.tokens.length - blanks)).1

/-- The index of the first token of a kind. -/
def index? (w : Window) (kind : Token.Kind) : Option Nat :=
  w.tokens.findIdx? (·.isKind kind)

/-- Whether two adjacent tokens open a macro. -/
def opensMacro (first second : Token) : Bool :=
  first.isKind (.punct .percent) && second.isKind (.punct .curlyOpen)

/-- The index of the first token of a kind outside macros, `depth` macros being open. -/
def indexAtDepth? (kind : Token.Kind) (depth : Nat) : List Token → Option Nat
  | [] => none
  | [t] => if depth = 0 ∧ t.isKind kind then some 0 else none
  | t :: u :: rest =>
    if opensMacro t u then (indexAtDepth? kind (depth + 1) rest).map (· + 2)
    else if 0 < depth ∧ t.isKind (.punct .curlyClose) then
      (indexAtDepth? kind (depth - 1) (u :: rest)).map (· + 1)
    else if depth = 0 ∧ t.isKind kind then some 0
    else (indexAtDepth? kind depth (u :: rest)).map (· + 1)

/-- The index of the first token of a kind that no macro encloses. -/
def indexOutsideMacros? (w : Window) (kind : Token.Kind) : Option Nat :=
  indexAtDepth? kind 0 w.tokens

/-- The first token, which must be of the given kind, and the window after it. -/
def expect (w : Window) (kind : Token.Kind) (what : Expected) :
    Except SyntaxError (Token × Window) :=
  if w.startsWith kind then .ok (w.first, w.drop 1) else .error (unexpected what w.first)

/-- Nothing: the window must be empty. -/
def finish (w : Window) (what : Expected) : Except SyntaxError Unit :=
  if w.isEmpty then .ok () else .error (unexpected (.endOf what) w.first)

/-- The only token, which must be a word. -/
def singleWord (w : Window) (what : Expected) : Except SyntaxError Token := do
  let (token, rest) ← w.expect .word what
  rest.finish what
  return token

@[simp]
theorem drop_tokens (w : Window) (n : Nat) : (w.drop n).tokens = w.tokens.drop n := rfl

@[simp]
theorem drop_closing (w : Window) (n : Nat) : (w.drop n).closing = w.closing := rfl

theorem drop_suffix (w : Window) (n : Nat) : (w.drop n).tokens <:+ w.tokens :=
  List.drop_suffix n w.tokens

theorem skipBlanks_suffix (w : Window) : w.skipBlanks.tokens <:+ w.tokens :=
  List.dropWhile_suffix _

theorem splitAt_suffix (w : Window) (n : Nat) : (w.splitAt n).2.tokens <:+ w.tokens :=
  w.drop_suffix n

/-- A window that starts with some token is not empty. -/
theorem tokens_of_startsWith {w : Window} {kind : Token.Kind} (starts : w.startsWith kind = true) :
    ∃ t rest, w.tokens = t :: rest ∧ t.kind = kind := by
  rcases w with ⟨tokens, closing⟩
  cases tokens with
  | nil => simp [startsWith] at starts
  | cons t rest => exact ⟨t, rest, rfl, by simpa [startsWith, Token.isKind] using starts⟩

/-- What `expect` accepts is the first token of the window. -/
theorem expect_eq_ok {w rest : Window} {kind : Token.Kind} {what : Expected} {t : Token}
    (read : w.expect kind what = .ok (t, rest)) :
    w.tokens = t :: rest.tokens ∧ t.kind = kind ∧ rest.closing = w.closing := by
  unfold expect at read
  split at read
  · next starts =>
    obtain ⟨u, us, tokens, same⟩ := tokens_of_startsWith starts
    cases read
    exact ⟨by simp [first, tokens], by simpa [first, tokens] using same, rfl⟩
  · cases read

/-- What `expect` accepts, and what it leaves. -/
theorem expect_eq_ok_iff {w rest : Window} {kind : Token.Kind} {what : Expected} {t : Token} :
    w.expect kind what = .ok (t, rest) ↔
      w.tokens = t :: rest.tokens ∧ t.kind = kind ∧ rest.closing = w.closing := by
  refine ⟨expect_eq_ok, ?_⟩
  rintro ⟨tokens, same, closing⟩
  have starts : w.startsWith kind = true := by simp [startsWith, tokens, Token.isKind, same]
  rw [expect, if_pos starts, first, tokens, drop, tokens, ← closing]
  rfl

/-- What `expect` leaves is shorter than the window. -/
theorem expect_length {w rest : Window} {kind : Token.Kind} {what : Expected} {t : Token}
    (read : w.expect kind what = .ok (t, rest)) :
    rest.tokens.length < w.tokens.length := by
  rw [(expect_eq_ok read).1]
  exact Nat.lt_succ_self _

theorem expect_suffix {w rest : Window} {kind : Token.Kind} {what : Expected} {t : Token}
    (read : w.expect kind what = .ok (t, rest)) : rest.tokens <:+ w.tokens := by
  rw [(expect_eq_ok read).1]
  exact List.suffix_cons _ _

/-- The first token of a kind, and what is on both sides of it. -/
theorem index?_eq_some_iff {w : Window} {kind : Token.Kind} {i : Nat} :
    w.index? kind = some i ↔ ∃ front t back, w.tokens = front ++ t :: back ∧ front.length = i ∧
      t.kind = kind ∧ ∀ u ∈ front, u.kind ≠ kind := by
  obtain ⟨tokens, closing⟩ := w
  simp only [index?, List.findIdx?_eq_some_iff_getElem, Token.isKind, beq_iff_eq]
  constructor
  · rintro ⟨within, found, before⟩
    refine ⟨tokens.take i, tokens[i], tokens.drop (i + 1), ?_, ?_, found, ?_⟩
    · rw [List.getElem_cons_drop, List.take_append_drop]
    · rw [List.length_take, Nat.min_eq_left (Nat.le_of_lt within)]
    · intro u member
      obtain ⟨j, bound, rfl⟩ := List.mem_take_iff_getElem.mp member
      exact before j (Nat.lt_of_lt_of_le bound (Nat.min_le_left _ _))
  · rintro ⟨front, t, back, rfl, rfl, found, before⟩
    refine ⟨by simp, by simpa using found, fun j bound => ?_⟩
    rw [List.getElem_append_left bound]
    exact before _ (List.getElem_mem bound)

end Window

end WafRules
