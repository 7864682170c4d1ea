import WafRules.Proofs.Streams

/-!
# Moves that leave a character

A step takes a character, whatever it finds.  Seen closer, some steps look at the character only to
learn what it begins, and leave it to the state that this leads to: a letter at the start of a line
is read once more as the first one of a name, what begins a bare argument is read once more inside
the argument, and what ends a run of blanks, or follows a backslash and a carriage return, is read
as in any other place of the argument.  A stream that makes these moves one by one does not get
closer to the end of its text with each of them, so it takes more than the length of the rest to see
that a call comes to an end.

What carries it is that a character is not left twice.  The states that a move leaves a character to
take every character, so twice the length of the rest gets smaller with every move once the states
that may leave a character count for one more.

## Main Definitions

* `Lexer.leave?` — what becomes of a state that leaves a character to the next one.
* `Lexer.Point.move?`, `Lexer.Point.rank` — one move, and what it makes smaller.
* `TokenStream.nextByMoves` — a call that goes on by moves.

## Main Statements

* `Lexer.leave?_spec` — a step is a move that leaves the character, and one that takes it.
* `Lexer.Point.rank_move?` — every move makes the rank smaller.
* `TokenStream.finishes` — the calls to a stream give whole items, and then nothing.
-/

namespace WafRules

namespace Lexer

/-! ### Characters that are left

A move that leaves the character is the first half of a step: the step of the state in front is that
of the state behind, with the tokens of the move put before it. -/

/-- What becomes of a state that looks at a character and **leaves it to the next state**, if it
does that. -/
def leave? (p : Position) (c : Char) : State → Option Outcome
  | .lineStart =>
    if c = '#' ∨ c = '\n' ∨ Text.isBlank c then none
    else if Text.isLetter c then some ([], .reading (.name ⟨p, ""⟩))
    else none
  | .reading .between =>
    if c = '\n' ∨ c = '\\' ∨ c = '\x22' ∨ Text.isBlank c then none
    else some ([token .argumentStart "" p], .reading (.body .bare none))
  | .blanks opened run =>
    if Text.isBlank c then none
    else some (blankTokens run, .reading (.body (.quoted opened) none))
  | .escapeReturn (.body quoting word) backslash =>
    if c = '\n' then none
    else some ([], .reading (.body quoting (extendWord word backslash (escapedText quoting '\r'))))
  | _ => none

/-- Whether a state leaves some characters to the next one. -/
def State.mayLeave : State → Bool
  | .lineStart | .reading .between | .blanks _ _ | .escapeReturn (.body _ _) _ => true
  | _ => false

variable {p : Position} {c : Char} {state after : State} {tokens : List Token}

/-- A character is left by states that may do so, to states that **take every character**, and the
step is what is given for leaving it and the step of the state that takes it. -/
theorem leave?_spec (left : leave? p c state = some (tokens, after)) :
    state.mayLeave = true ∧ after.mayLeave = false ∧
      step p state c = (tokens ++ (step p after c).1, (step p after c).2) := by
  unfold leave? at left
  -- The four states that may leave a character, in the order of the definition.
  split at left
  · split_ifs at left with ends letter
    cases left
    obtain ⟨comment, others⟩ := not_or.mp ends
    refine ⟨rfl, rfl, ?_⟩
    show stepLineStart p c = ([] ++ (stepName ⟨p, ""⟩ p c).1, (stepName ⟨p, ""⟩ p c).2)
    rw [stepLineStart, if_neg comment, if_neg others, if_pos letter, stepName, if_pos letter]
    rfl
  · split_ifs at left with ends
    cases left
    obtain ⟨newline, backslash, quote, blank⟩ := by simpa only [not_or] using ends
    refine ⟨rfl, rfl, ?_⟩
    show stepBetween p c = _
    rw [stepBetween, if_neg newline, if_neg backslash, if_neg quote, if_neg blank]
    rfl
  · split_ifs at left with blank
    cases left
    refine ⟨rfl, rfl, ?_⟩
    show stepBlanks _ _ p c = _
    rw [stepBlanks, if_neg blank]
    rfl
  · split_ifs at left with newline
    cases left
    refine ⟨rfl, rfl, ?_⟩
    show stepEscapeReturn _ _ p c = _
    rw [stepEscapeReturn, if_neg newline]
    rfl
  · cases left

theorem leave?_eq_none (takes : state.mayLeave = false) : leave? p c state = none := by
  cases left : leave? p c state with
  | none => rfl
  | some outcome => exact absurd takes (by simp [(leave?_spec left).1])

/-! ### Moves

A move takes a character, or leaves it to a state that takes it.  Counting two for every character
of the rest and one for a state that may leave one makes every move a step down. -/

/-- Where the lexer stands in a text. -/
structure Point where
  position : Position
  state : State
  rest : List Char

namespace Point

/-- **One move**: the next character is left to another state, or else taken.  There is none at the
end of the text and after an error. -/
def move? : Point → Option (List Token × Point)
  | ⟨_, .failed _, _⟩ => none
  | ⟨_, _, []⟩ => none
  | ⟨p, state, c :: cs⟩ =>
    match leave? p c state with
    | some (tokens, after) => some (tokens, ⟨p, after, c :: cs⟩)
    | none => some ((step p state c).1, ⟨p.next c, (step p state c).2, cs⟩)

/-- What every move makes smaller. -/
def rank (here : Point) : Nat := 2 * here.rest.length + if here.state.mayLeave then 1 else 0

/-- The items that the rest of the text gives. -/
def scan (here : Point) : Scan := scanFrom here.position here.state here.rest

variable {here after : Point}

/-- What a move does. -/
theorem move?_cases (moved : here.move? = some (tokens, after)) :
    ∃ c cs, here.rest = c :: cs ∧
      ((leave? here.position c here.state = some (tokens, after.state) ∧
          after = ⟨here.position, after.state, c :: cs⟩) ∨
        (tokens, after) = ((step here.position here.state c).1,
          ⟨here.position.next c, (step here.position here.state c).2, cs⟩)) := by
  obtain ⟨p, state, rest⟩ := here
  unfold move? at moved
  split at moved
  · cases moved
  · cases moved
  · next q s c cs _ same =>
    cases same
    refine ⟨c, cs, rfl, ?_⟩
    split at moved
    · next left =>
      cases moved
      exact .inl ⟨left, rfl⟩
    · cases moved
      exact .inr rfl

/-- **Every move makes the rank smaller**, those included that leave the character. -/
theorem rank_move? (moved : here.move? = some (tokens, after)) : after.rank < here.rank := by
  obtain ⟨c, cs, rest, ⟨left, same⟩ | taken⟩ := move?_cases moved
  · obtain ⟨may, takes, -⟩ := leave?_spec left
    rw [rank, rank, may, takes, same, rest]
    simp
  · cases taken
    rw [rank, rank, rest, List.length_cons]
    dsimp only
    split_ifs <;> omega

/-- **Behind a move that leaves the character** comes one that takes it. -/
theorem move?_of_left (moved : here.move? = some (tokens, after)) (left : after.rest = here.rest)
    {others : List Token} {last : Point} (next : after.move? = some (others, last)) :
    ∃ c, after.rest = c :: last.rest := by
  obtain ⟨c, cs, rest, ⟨leaves, same⟩ | taken⟩ := move?_cases moved
  · obtain ⟨d, ds, afterRest, ⟨again, -⟩ | taken⟩ := move?_cases next
    · rw [leave?_eq_none (leave?_spec leaves).2.1] at again
      cases again
    · cases taken
      exact ⟨d, afterRest⟩
  · cases taken
    rw [rest] at left
    exact absurd left.symm (List.cons_ne_self _ _)

/-- A move gives the first tokens of what is left of the text. -/
theorem scan_move? (moved : here.move? = some (tokens, after)) :
    here.scan = after.scan.prepend tokens := by
  obtain ⟨c, cs, rest, ⟨left, same⟩ | taken⟩ := move?_cases moved
  · rw [scan, scan, same, rest, scanFrom_step (leave?_spec left).2.2, scanFrom_cons,
      Scan.prepend_prepend]
  · cases taken
    rw [scan, scan, rest, scanFrom_cons]

/-- Without a move the text ends. -/
theorem scan_of_move?_eq_none (stops : here.move? = none) :
    here.scan = ⟨(finish here.position here.state).1, (finish here.position here.state).2⟩ := by
  obtain ⟨p, state, rest⟩ := here
  cases rest with
  | nil => rfl
  | cons c cs =>
    unfold move? at stops
    split at stops
    · next same =>
      cases same
      exact scanFrom_failed p _ _
    · next same => cases same
    · next same =>
      cases same
      split at stops
      · cases stops
      · cases stops

end Point

end Lexer

namespace TokenStream

open Lexer (Point)

/-! ### Calls by moves

Calls made in this way give what calls made by steps give. -/

/-- Moves until a token is complete, the text ends or an error is met. -/
def pullByMoves (here : Point) : Item × TokenStream :=
  match _moved : here.move? with
  | none =>
    close here.position (Lexer.finish here.position here.state).1
      (Lexer.finish here.position here.state).2
  | some ([], after) => pullByMoves after
  | some (t :: pending, after) =>
    (some (.ok t), ⟨after.position, after.state, after.rest, pending, false⟩)
termination_by here.rank
decreasing_by exact Point.rank_move? _moved

/-- The next token or error and the stream after it, for a stream that **goes on by moves.** -/
def nextByMoves (stream : TokenStream) : Item × TokenStream :=
  match stream.pending with
  | t :: pending => (some (.ok t), { stream with pending })
  | [] =>
    if stream.closed then (none, stream)
    else pullByMoves ⟨stream.position, stream.state, stream.rest⟩

theorem pullByMoves_takes (here : Point) : Takes here.scan.items (pullByMoves here) := by
  fun_induction pullByMoves here with
  | case1 here stops =>
    rw [Point.scan_of_move?_eq_none stops]
    exact close_takes _ _ _
  | case2 here after moved ih =>
    rw [Point.scan_move? moved]
    exact gather_takes [] ih
  | case3 here t pending after moved =>
    rw [Point.scan_move? moved, Lexer.Scan.items_prepend]
    exact ⟨rfl, rfl⟩

/-- A **call that goes on by moves** takes the first item off what a stream has still to give. -/
theorem nextByMoves_drains : Drains nextByMoves := by
  intro stream
  obtain ⟨p, state, cs, pending, closed⟩ := stream
  cases pending with
  | cons t pending => exact ⟨rfl, rfl⟩
  | nil =>
    cases closed with
    | true => exact ⟨rfl, rfl⟩
    | false => exact pullByMoves_takes ⟨p, state, cs⟩

/-- The **calls to the stream of a text** give whole items, at most three for every character and
one more, and nothing from then on.  It is the same for a stream that goes on by moves: every move
makes the rank smaller, and behind one that leaves the character comes one that takes it. -/
theorem finishes (label text : String) :
    (∃ items, Lexer.Whole (3 * text.length + 1) items ∧
      ∀ count, (ofText label text).take count = (List.range count).map (items[·]?)) ∧
    (∀ count, calls nextByMoves (ofText label text) count = (ofText label text).take count) ∧
    ∀ (here after : Point) (tokens : List Token), here.move? = some (tokens, after) →
      after.rank < here.rank ∧
      (after.rest = here.rest → ∀ others last, after.move? = some (others, last) →
        ∃ c, after.rest = c :: last.rest) := by
  have whole : Lexer.Whole (3 * text.length + 1) (ofText label text).remaining := by
    have scanned := Lexer.scanFrom_whole (.start label) .lineStart text.toList
    rwa [Lexer.State.due, Nat.zero_add, String.length_toList] at scanned
  have taken (count : Nat) : (ofText label text).take count =
      (List.range count).map ((ofText label text).remaining[·]?) := by
    rw [take_eq_calls, next_drains.calls_eq]
  refine ⟨⟨_, whole, taken⟩, ?_, ?_⟩
  · intro count
    rw [taken, nextByMoves_drains.calls_eq]
  · intro here after tokens moved
    exact ⟨Point.rank_move? moved, fun left others last => Point.move?_of_left moved left⟩

end TokenStream

end WafRules
