import Mathlib.Data.List.Basic
import WafRules.Proofs.Scan
import WafRules.Token.Stream

/-!
# What token streams give

A call to a token stream reads until a token is complete, so how often one may call depends on how
many tokens a text has.  The tokens that a character completes are not its own alone: what ends a
bare argument completes the last word and gives the stop, which are due to the characters before it.
So tokens are counted when they become due.  The lexer **owes** those of what it holds, and the stop
of a bare argument.  A character adds at most three to them, the start of a bare argument, its stop
and a token in between, and the end of the text adds one, the end mark or the error in its place.

Which call gives which item does not depend on how far the stream has read: what a stream has still
to give is the list of its pending tokens and of the scan of the rest, and every call takes the
first item off that list.

Both halves are stated for any state of the lexer and not for the start of a text.  For the number
of items that is what makes the induction on the text go through; for the calls it is what allows
them to be made one after the other, since the stream that a call leaves is at some state in the
middle of the text.

## Main Definitions

* `Lexer.State.due` — the tokens that a state owes.
* `Lexer.Whole` — items that are tokens up to an end mark or an error, and not too many.
* `TokenStream.remaining` — the items that a stream has still to give.
* `TokenStream.Drains` — a way to call a stream that takes the first item off what remains.

## Main Statements

* `Lexer.step_adds`, `Lexer.scanFrom_whole` — what one character adds, and what a scan gives.
* `TokenStream.next_drains`, `TokenStream.Drains.calls_eq` — what calls in a row give.
-/

namespace WafRules

namespace Lexer

/-! ### What a state owes

The debt of a state is a number of tokens that the characters read so far are already sure to give.
Counting tokens when they are owed makes a step cost a constant, where counting them when they are
given would not. -/

/-- An argument without quotes has its stop to come, one in quotes may end without it. -/
@[simp]
def Quoting.due : Quoting → Nat
  | .bare => 1
  | .quoted _ => 0

@[simp]
def Context.due : Context → Nat
  | .name _ => 1
  | .between => 0
  | .body quoting word => (wordTokens word).length + quoting.due

/-- The number of tokens that a state **owes**: those of what it holds, and the stop of a bare
argument.  A backslash and a carriage return may be all of a word. -/
@[simp]
def State.due : State → Nat
  | .lineStart => 0
  | .comment _ => 1
  | .reading context => context.due
  | .blanks _ _ => 1
  | .escape context _ => context.due
  | .escapeReturn context _ => context.due + 1
  | .failed _ => 0

/-- Without a word **no token** is owed for one. -/
@[simp]
theorem wordTokens_none : wordTokens none = [] := rfl

/-- A word that is **made longer** is still a single token. -/
@[simp]
theorem length_extendWord (word : Option Run) (p : Position) (text : String) :
    (wordTokens (extendWord word p text)).length = 1 := by
  cases word with
  | none => rfl
  | some run => rfl

/-- Whether a step gives tokens, and leaves some owed, up to a number of them together, and no end
mark is among them. -/
structure Adds (most : Nat) (outcome : Outcome) : Prop where
  length_le : outcome.1.length + outcome.2.due ≤ most
  kind_ne : ∀ t ∈ outcome.1, t.kind ≠ .endOfInput

namespace Adds

variable {few most : Nat} {tokens : List Token} {state : State} {kind : Token.Kind} {value : String}
  {p : Position}

/-- A bound may be **made larger**. -/
theorem mono {outcome : Outcome} (adds : Adds few outcome) (le : few ≤ most) : Adds most outcome :=
  ⟨Nat.le_trans adds.length_le le, adds.kind_ne⟩

/-- A step that gives no token. -/
theorem nothing (due : state.due ≤ most) : Adds most ([], state) :=
  ⟨by simpa using due, fun _ => nofun⟩

/-- One more token in front. -/
theorem cons (inside : kind ≠ .endOfInput) (adds : Adds few (tokens, state)) (le : few < most) :
    Adds most (token kind value p :: tokens, state) := by
  refine ⟨?_, List.forall_mem_cons.mpr ⟨inside, adds.kind_ne⟩⟩
  have length : tokens.length + state.due ≤ few := adds.length_le
  show tokens.length + 1 + state.due ≤ most
  omega

/-- A step that gives one token. -/
theorem one (inside : kind ≠ .endOfInput) (due : state.due < most) :
    Adds most ([token kind value p], state) :=
  cons inside (nothing (Nat.le_refl _)) due

/-- The word that a step completes, in front. -/
theorem word (word : Option Run) (adds : Adds few (tokens, state)) :
    Adds ((wordTokens word).length + few) (wordTokens word ++ tokens, state) := by
  cases word with
  | none => simpa using adds
  | some run => exact adds.cons nofun (Nat.lt_add_of_pos_left Nat.one_pos)

/-- A step that **fails** owes nothing more: the error is what the end of the text gives. -/
theorem fail (cause : LexCause) : Adds most (Lexer.fail cause p) := nothing (Nat.zero_le most)

end Adds

/-! ### What a character adds

One lemma for each step function, with the debt of the state in front on the left and the tokens
given with the debt of the state behind on the right. -/

/-- A character inside an argument adds one token. -/
theorem stepBody_adds (quoting : Quoting) (word : Option Run) (p : Position) (c : Char) :
    Adds ((wordTokens word).length + (quoting.due + 1)) (stepBody quoting word p c) := by
  -- the stop of an argument was owed unless the argument is in quotes, which then is what is added
  have stopped (value : String) (after : State) (paid : after.due = 0) :
      Adds ((wordTokens word).length + (quoting.due + 1))
        (wordTokens word ++ [token .argumentStop value p], after) :=
    .word word (.one nofun (by omega))
  unfold stepBody
  split_ifs
  · exact .nothing (by simp)
  · cases quoting with
    | quoted opened => exact .fail _
    | bare => exact stopped "" .lineStart rfl
  · cases quoting with
    | quoted opened =>
      have begun : Adds 1 ([], .blanks opened ⟨p, c.toString⟩) := .nothing (Nat.le_refl 1)
      simpa using begun.word word
    | bare => exact stopped "" (.reading .between) rfl
  · exact stopped "\"" (.reading .between) rfl
  · cases Punct.ofChar? c with
    | some punct => exact .word word (.one nofun (by simp))
    | none => exact .nothing (by simp; omega)

/-- The end of a line gives the text of a comment that is owed, unless it is empty. -/
theorem commentTokens_adds (run : Run) : Adds 1 (commentTokens run, .lineStart) := by
  unfold commentTokens
  dsimp only
  split_ifs
  · exact .nothing (by simp)
  · exact .one nofun (by simp)

/-- The first character **of a line** may begin a comment or a directive. -/
theorem stepLineStart_adds (p : Position) (c : Char) : Adds 3 (stepLineStart p c) := by
  unfold stepLineStart
  split_ifs
  · exact .one nofun (by simp)
  · exact .nothing (by simp)
  · exact .nothing (by simp)
  · exact .fail _

/-- The end of a line **completes a comment**; another character makes it longer. -/
theorem stepComment_adds (run : Run) (c : Char) : Adds 4 (stepComment run c) := by
  unfold stepComment
  split_ifs
  · exact (commentTokens_adds run).mono (by simp)
  · exact .nothing (by simp)

/-- The character that **ends a name** may give the start of an argument with its first token. -/
theorem stepName_adds (run : Run) (p : Position) (c : Char) : Adds 4 (stepName run p c) := by
  unfold stepName nameTokens
  split_ifs
  · exact .nothing (by simp)
  · exact .one nofun (by simp)
  · exact .nothing (by simp)
  · exact .one nofun (by simp)
  · exact .fail _

/-- The first character of a bare argument gives the start of it, and what it gives inside. -/
theorem stepBetween_adds (p : Position) (c : Char) : Adds 3 (stepBetween p c) := by
  unfold stepBetween
  split_ifs
  · exact .nothing (by simp)
  · exact .nothing (by simp)
  · exact .one nofun (by simp)
  · exact .nothing (by simp)
  · exact (stepBody_adds .bare none p c).cons nofun (by simp)

/-- The character that **ends a run of blanks** inside an argument.  The blanks were owed, and what
it gives itself is what it would give behind them. -/
theorem stepBlanks_adds (opened : Position) (run : Run) (p : Position) (c : Char) :
    Adds 4 (stepBlanks opened run p c) := by
  unfold stepBlanks
  split_ifs
  · exact .nothing (by simp)
  · exact (stepBody_adds (.quoted opened) none p c).cons nofun (by simp)

/-- A **continuation** gives nothing and owes what the state owed that it interrupted. -/
theorem continued_adds (context : Context) : Adds context.due (continued context) := by
  cases context with
  | name run => exact .one nofun (Nat.zero_lt_one)
  | between => exact .nothing (Nat.le_refl 0)
  | body quoting word => exact .nothing (Nat.le_refl _)

/-- The character **behind a backslash**.  In an argument the two are text; elsewhere they continue
a line, or the step fails. -/
theorem stepEscape_adds (context : Context) (backslash : Position) (c : Char) :
    Adds (context.due + 3) (stepEscape context backslash c) := by
  unfold stepEscape
  split_ifs
  · exact (continued_adds context).mono (by simp)
  · exact .nothing (by simp)
  · cases context with
    | name run => exact .fail _
    | between => exact .fail _
    | body quoting word => exact .nothing (by simp; omega)

/-- The character behind a backslash and a **carriage return**, which are text themselves unless
the line ends here. -/
theorem stepEscapeReturn_adds (context : Context) (backslash p : Position) (c : Char) :
    Adds (context.due + 4) (stepEscapeReturn context backslash p c) := by
  unfold stepEscapeReturn
  split_ifs
  · exact (continued_adds context).mono (by omega)
  · cases context with
    | name run => exact .fail _
    | between => exact .fail _
    | body quoting word => exact (stepBody_adds quoting _ p c).mono (by simp; omega)

/-- **One character adds at most three tokens** to those that are owed. -/
theorem step_adds (p : Position) (state : State) (c : Char) :
    Adds (state.due + 3) (step p state c) := by
  cases state with
  | lineStart => exact stepLineStart_adds p c
  | comment run => exact stepComment_adds run c
  | reading context =>
    cases context with
    | name run => exact stepName_adds run p c
    | between => exact stepBetween_adds p c
    | body quoting word => exact (stepBody_adds quoting word p c).mono (by simp; omega)
  | blanks opened run => exact stepBlanks_adds opened run p c
  | escape context backslash => exact stepEscape_adds context backslash c
  | escapeReturn context backslash => exact stepEscapeReturn_adds context backslash p c
  | failed error => exact .nothing (Nat.zero_le _)

/-! ### What a scan gives

Summed over a text this bounds the number of items of a scan, and the end of the text pays what is
still owed and adds the last item. -/

/-- The items of a scan: its tokens, and the error that ends them if one does. -/
def Scan.items (scan : Scan) : List (Except LexError Token) :=
  scan.tokens.map .ok ++ scan.failure.toList.map .error

/-- Tokens in front of a scan are **items in front** of its items. -/
theorem Scan.items_prepend (tokens : List Token) (scan : Scan) :
    (scan.prepend tokens).items = tokens.map .ok ++ scan.items := by
  simp [Scan.items]

/-- Whether an item is one that nothing follows: an end mark or an error. -/
def IsLast : Except LexError Token → Prop
  | .ok t => t.kind = .endOfInput
  | .error _ => True

/-- Whether items are **whole**: tokens up to an item that nothing follows, which is the only one of
its kind, and not more than a number of them. -/
structure Whole (most : Nat) (items : List (Except LexError Token)) : Prop where
  length_le : items.length ≤ most
  ended : ∃ (tokens : List Token) (last : Except LexError Token), items = tokens.map .ok ++ [last] ∧
    (∀ t ∈ tokens, t.kind ≠ .endOfInput) ∧ IsLast last

namespace Whole

variable {few most : Nat} {items : List (Except LexError Token)}

/-- Tokens in front of whole items. -/
theorem append (whole : Whole few items) {tokens : List Token}
    (inside : ∀ t ∈ tokens, t.kind ≠ .endOfInput) (le : tokens.length + few ≤ most) :
    Whole most (tokens.map .ok ++ items) := by
  obtain ⟨length, others, last, rfl, insideOthers, isLast⟩ := whole
  refine ⟨?_, tokens ++ others, last, ?_, List.forall_mem_append.mpr ⟨inside, insideOthers⟩, isLast⟩
  · rw [List.length_append, List.length_map]
    exact Nat.le_trans (Nat.add_le_add_left length _) le
  · rw [List.map_append, List.append_assoc]

/-- A bound on the number of items may be **made larger**. -/
theorem mono (whole : Whole few items) (le : few ≤ most) : Whole most items :=
  ⟨Nat.le_trans whole.length_le le, whole.ended⟩

/-- A **single item** that nothing follows. -/
theorem last {item : Except LexError Token} (isLast : IsLast item) (le : 1 ≤ most) :
    Whole most [item] :=
  ⟨le, [], item, rfl, fun _ => nofun, isLast⟩

/-- Whole items are **never none**: the last one is there. -/
theorem ne_nil (whole : Whole most items) : items ≠ [] := by
  obtain ⟨-, tokens, last, rfl, -⟩ := whole
  exact List.concat_ne_nil last _

end Whole

/-- A text that ends well gives the tokens that are owed, and the end mark. -/
theorem endWith_whole {few : Nat} {tokens : List Token} (adds : Adds few (tokens, .lineStart))
    (p : Position) :
    Whole (few + 1) (Scan.items ⟨(endWith tokens p).1, (endWith tokens p).2⟩) := by
  have mark : Whole 1 [.ok (token .endOfInput "" p)] := .last rfl (Nat.le_refl 1)
  have length : tokens.length ≤ few := adds.length_le
  have items : Scan.items ⟨(endWith tokens p).1, (endWith tokens p).2⟩ =
      tokens.map .ok ++ [.ok (token .endOfInput "" p)] := by
    simp [Scan.items, endWith]
  rw [items]
  exact mark.append adds.kind_ne (Nat.add_le_add_right length 1)

/-- A text that ends **inside an argument**: a bare one ends with it, one in quotes has not been
closed. -/
theorem finishBody_whole (quoting : Quoting) (word : Option Run) (p : Position) :
    Whole ((wordTokens word).length + quoting.due + 1)
      (Scan.items ⟨(finishBody quoting word p).1, (finishBody quoting word p).2⟩) := by
  cases quoting with
  | quoted opened => exact .last trivial (Nat.le_add_left 1 _)
  | bare =>
    have stopped : Adds 1 ([token .argumentStop "" p], .lineStart) := .one nofun Nat.one_pos
    exact endWith_whole (stopped.word word) p

/-- The **end of a text gives what its state owes**, and the end mark or an error behind it. -/
theorem finish_whole (p : Position) (state : State) :
    Whole (state.due + 1) (Scan.items ⟨(finish p state).1, (finish p state).2⟩) := by
  have refused (error : LexError) {most : Nat} : Whole (most + 1) [.error error] :=
    .last trivial (Nat.le_add_left 1 most)
  -- What a state owes is given where the text may end in it; where it may not, the error stands in
  -- the place of the end mark, and what was owed is lost.
  cases state with
  | lineStart => exact endWith_whole (.nothing (Nat.le_refl 0)) p
  | comment run => exact endWith_whole (commentTokens_adds run) p
  | reading context =>
    cases context with
    | name run =>
      have named : Adds 1 (nameTokens run, .lineStart) := .one nofun Nat.one_pos
      exact endWith_whole named p
    | between => exact endWith_whole (.nothing (Nat.le_refl 0)) p
    | body quoting word => exact finishBody_whole quoting word p
  | blanks opened run =>
    have adds : Adds 1 (blankTokens run, .lineStart) := .one nofun Nat.one_pos
    exact (refused _ : Whole 1 _).append adds.kind_ne (Nat.le_refl 2)
  | escape context backslash =>
    cases context with
    | name run => exact refused _
    | between => exact refused _
    | body quoting word => exact refused _
  | escapeReturn context backslash =>
    cases context with
    | name run => exact refused _
    | between => exact refused _
    | body quoting word =>
      have whole := finishBody_whole quoting
        (extendWord word backslash (escapedText quoting '\r')) p
      rw [length_extendWord] at whole
      exact whole.mono (by simp; omega)
  | failed error => exact refused error

/-- A **scan gives three items for every character** at most, and one more behind what was owed. -/
theorem scanFrom_whole (p : Position) (state : State) (cs : List Char) :
    Whole (state.due + 3 * cs.length + 1) (scanFrom p state cs).items := by
  induction cs generalizing p state with
  | nil => exact finish_whole p state
  | cons c cs ih =>
    obtain ⟨length, inside⟩ := step_adds p state c
    rw [scanFrom_cons, Scan.items_prepend]
    refine (ih (p.next c) (step p state c).2).append inside ?_
    rw [List.length_cons]
    omega

end Lexer

/-! ### Calls

A stream is never asked how it has come to its state.  `remaining` is what it will give from there,
and the statement about one call is that it gives the head of that list and leaves its tail. -/

namespace TokenStream

open Lexer (scanFrom)

/-- The items that a stream has **still to give**. -/
def remaining (stream : TokenStream) : List (Except LexError Token) :=
  stream.pending.map .ok ++
    if stream.closed then [] else (scanFrom stream.position stream.state stream.rest).items

/-- What calls in a row give, for some way to call a stream. -/
def calls (call : TokenStream → Item × TokenStream) (stream : TokenStream) : Nat → List Item
  | 0 => []
  | count + 1 => (call stream).1 :: calls call (call stream).2 count

/-- What a stream gives in its first calls is what **calls in a row** give. -/
theorem take_eq_calls (stream : TokenStream) (count : Nat) :
    stream.take count = calls next stream count := by
  induction count generalizing stream with
  | zero => rfl
  | succ count ih => exact congrArg (stream.next.1 :: ·) (ih stream.next.2)

/-- Whether a call has taken the first item off a list, if there is one. -/
structure Takes (items : List (Except LexError Token)) (called : Item × TokenStream) : Prop where
  given : called.1 = items.head?
  left : called.2.remaining = items.tail

/-- Whether every call takes the first item off what a stream has still to give. -/
def Drains (call : TokenStream → Item × TokenStream) : Prop :=
  ∀ stream, Takes stream.remaining (call stream)

/-- **Calls in a row** give what a stream has still to give, one item after the other, and nothing
from then on. -/
theorem Drains.calls_eq {call : TokenStream → Item × TokenStream} (drains : Drains call)
    (stream : TokenStream) (count : Nat) :
    calls call stream count = (List.range count).map (stream.remaining[·]?) := by
  induction count generalizing stream with
  | zero => rfl
  | succ count ih =>
    obtain ⟨given, left⟩ := drains stream
    rw [calls, ih, given, left, List.range_succ_eq_map, List.map_cons, List.map_map,
      List.head?_eq_getElem?]
    simp [Function.comp_def]

/-- The end of a text. -/
theorem close_takes (p : Position) (tokens : List Token) (failure : Option LexError) :
    Takes (Lexer.Scan.items ⟨tokens, failure⟩) (close p tokens failure) := by
  rcases tokens with - | ⟨t, tokens⟩ <;> rcases failure with - | error
  · exact ⟨rfl, rfl⟩
  · exact ⟨rfl, rfl⟩
  · exact ⟨rfl, rfl⟩
  · exact ⟨rfl, rfl⟩

/-- What a call gives after a move: the first token that the move has completed, or else what it
gives after the moves that follow. -/
def gather (tokens : List Token) (p : Position) (state : Lexer.State) (rest : List Char)
    (onward : Item × TokenStream) : Item × TokenStream :=
  match tokens with
  | [] => onward
  | t :: pending => (some (.ok t), ⟨p, state, rest, pending, false⟩)

/-- A call that has **completed tokens** gives the first of them and keeps the others for later. -/
theorem gather_takes (tokens : List Token) {p : Position} {state : Lexer.State} {rest : List Char}
    {onward : Item × TokenStream} (takes : Takes (scanFrom p state rest).items onward) :
    Takes ((scanFrom p state rest).prepend tokens).items (gather tokens p state rest onward) := by
  rw [Lexer.Scan.items_prepend]
  cases tokens with
  | nil => exact takes
  | cons t pending => exact ⟨rfl, rfl⟩

/-- One character of a text, unless the lexer has stopped before it. -/
theorem pull_cons (p : Position) {state : Lexer.State} (reading : ∀ error, state ≠ .failed error)
    (c : Char) (cs : List Char) :
    pull p state (c :: cs) =
      gather (Lexer.step p state c).1 (p.next c) (Lexer.step p state c).2 cs
        (pull (p.next c) (Lexer.step p state c).2 cs) := by
  cases state with
  | failed error => exact absurd rfl (reading error)
  | _ =>
    rw [pull]
    · generalize Lexer.step p _ c = stepped
      obtain ⟨tokens, after⟩ := stepped
      cases tokens with
      | nil => rfl
      | cons t pending => rfl
    · exact nofun

/-- **Reading on** until a token is complete takes the first item of the scan.  The induction is on
the text that is left, with the state in which it is reached. -/
theorem pull_takes (p : Position) (state : Lexer.State) (cs : List Char) :
    Takes (scanFrom p state cs).items (pull p state cs) := by
  induction cs generalizing p state with
  | nil => exact close_takes p _ _
  | cons c cs ih =>
    by_cases failed : ∃ error, state = .failed error
    · obtain ⟨error, rfl⟩ := failed
      rw [Lexer.scanFrom_failed]
      exact close_takes p [] (some error)
    · rw [pull_cons p (not_exists.mp failed)]
      exact gather_takes _ (ih (p.next c) _)

/-- A **call** takes the first item off what a stream has still to give. -/
theorem next_drains : Drains next := by
  intro stream
  obtain ⟨p, state, cs, pending, closed⟩ := stream
  cases pending with
  | cons t pending => exact ⟨rfl, rfl⟩
  | nil =>
    cases closed with
    | true => exact ⟨rfl, rfl⟩
    | false => exact pull_takes p state cs

end TokenStream

end WafRules
