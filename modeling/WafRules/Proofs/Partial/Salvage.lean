import WafRules.Proofs.Grammar.Shape
import WafRules.Proofs.Partial

/-!
# Salvaged tokens

The entries of a partial document are read from tokens that may be no tokens of any text: when the
text is malformed, those behind the last name of a directive are cut off with it, and an end mark
is put where the error is.  What is left is a sequence of whole entries all the same, so the marks
of its arguments come in pairs.  The end mark is at a place of the text, because an error is
reported where the lexer is or where it has been.

## Main Definitions

* `Lexer.State.Holds` — the places that the lexer may report later.
* `Document.partialTokens` — the tokens that the entries of a partial document are read from.
* `Balanced` — pairs of argument marks that do not nest.

## Main Statements

* `Lexer.exists_place` — the place of an error.
* `Document.exists_partialEntries` — whole entries, and an end mark.
* `balanced_entryTokens` — the marks of whole entries.
-/

namespace WafRules

namespace Lexer

/-! ### Places of errors

An error of the lexer is reported at the character it stands on or at one it has kept in its state:
an opening quote or a backslash.  So a property that holds of every place on the way holds of the
place of the error (`State.Holds`), and a place of the text is such a property. -/

/-- Whether the place where an argument was opened has a property. -/
def Quoting.Holds (P : Position → Prop) : Quoting → Prop
  | bare => True
  | quoted opened => P opened

/-- Whether the quotes around a place where a backslash may stand are at a place with a property. -/
def Context.Holds (P : Position → Prop) : Context → Prop
  | name _ | between => True
  | body quoting _ => quoting.Holds P

/-- Whether the places that an error may be reported at have a property: those of open quotes, of
a backslash, and of the error itself. -/
def State.Holds (P : Position → Prop) : State → Prop
  | lineStart | comment _ => True
  | reading context => context.Holds P
  | blanks opened _ => P opened
  | escape context backslash | escapeReturn context backslash => context.Holds P ∧ P backslash
  | failed error => P error.position

variable {P : Position → Prop} {p : Position}

theorem stepBody_holds (here : P p) (quoting : Quoting) (opened : quoting.Holds P)
    (word : Option Run) (c : Char) : (stepBody quoting word p c).2.Holds P := by
  unfold stepBody
  split
  · exact ⟨opened, here⟩
  · split
    · cases quoting with
      | bare => trivial
      | quoted place => exact opened
    · split
      · cases quoting with
        | bare => trivial
        | quoted place => exact opened
      · split
        · trivial
        · split <;> exact opened

theorem stepBetween_holds (here : P p) (c : Char) : (stepBetween p c).2.Holds P := by
  unfold stepBetween
  split
  · trivial
  · split
    · exact ⟨trivial, here⟩
    · split
      · exact here
      · split
        · trivial
        · exact stepBody_holds here .bare trivial none c

theorem continued_holds {context : Context} (held : context.Holds P) :
    (continued context).2.Holds P := by
  cases context with
  | name run | between => trivial
  | body quoting word => exact held

/-- One **character**: an error is at the character or at a place held before. -/
theorem step_holds (here : P p) {state : State} (held : state.Holds P) (c : Char) :
    (step p state c).2.Holds P := by
  cases state with
  | lineStart =>
    show (stepLineStart p c).2.Holds P
    unfold stepLineStart
    split
    · trivial
    · split
      · trivial
      · split
        · trivial
        · exact here
  | comment run =>
    show (stepComment run c).2.Holds P
    unfold stepComment
    split <;> trivial
  | reading context =>
    cases context with
    | name run =>
      show (stepName run p c).2.Holds P
      unfold stepName
      split
      · trivial
      · split
        · trivial
        · split
          · exact ⟨trivial, here⟩
          · split
            · trivial
            · exact here
    | between => exact stepBetween_holds here c
    | body quoting word => exact stepBody_holds here quoting held word c
  | blanks opened run =>
    show (stepBlanks opened run p c).2.Holds P
    unfold stepBlanks
    split
    · exact held
    · exact stepBody_holds here (.quoted opened) held none c
  -- The place of the backslash was held when it was read, and a refused escape is an error there.
  | escape context backslash =>
    show (stepEscape context backslash c).2.Holds P
    unfold stepEscape
    split
    · exact continued_holds held.1
    · split
      · exact held
      · cases context with
        | name run | between => exact held.2
        | body quoting word => exact held.1
  | escapeReturn context backslash =>
    show (stepEscapeReturn context backslash p c).2.Holds P
    unfold stepEscapeReturn
    split
    · exact continued_holds held.1
    · cases context with
      | name run | between => exact held.2
      | body quoting word => exact stepBody_holds here quoting held.1 _ c
  | failed error => exact held

theorem finishBody_holds {quoting : Quoting} (opened : quoting.Holds P) {word : Option Run}
    {e : LexError} (failed : (finishBody quoting word p).2 = some e) : P e.position := by
  cases quoting with
  | bare => cases failed
  | quoted place =>
    obtain rfl := Option.some.inj failed
    exact opened

/-- The end of the text: an error is at a place held before. -/
theorem finish_holds {state : State} (held : state.Holds P) {e : LexError}
    (failed : (finish p state).2 = some e) : P e.position := by
  cases state with
  | lineStart | comment run => cases failed
  | reading context =>
    cases context with
    | name run | between => cases failed
    | body quoting word => exact finishBody_holds held failed
  | blanks opened run | failed error =>
    obtain rfl := Option.some.inj failed
    exact held
  | escape context backslash =>
    cases context <;>
    · obtain rfl := Option.some.inj failed
      exact held.2
  | escapeReturn context backslash =>
    cases context with
    | name run | between =>
      obtain rfl := Option.some.inj failed
      exact held.2
    | body quoting word => exact finishBody_holds held.1 failed

/-- The rest of a text: an error is at a place of it or at one held before. -/
theorem scanFrom_holds {state : State} (held : state.Holds P) {cs : List Char} {e : LexError}
    (passed : ∀ before rest, cs = before ++ rest → P (p.advance before))
    (failed : (scanFrom p state cs).failure = some e) : P e.position := by
  -- what is held does not change along the text; only the place that is passed moves on
  induction cs generalizing p state with
  | nil => exact finish_holds held failed
  | cons c cs ih =>
    rw [scanFrom_cons, Scan.prepend_failure] at failed
    refine ih (step_holds (passed [] _ rfl) held c) (fun before rest split => ?_) failed
    exact passed (c :: before) rest (congrArg (c :: ·) split)

/-- The **place of an error** is a place of the text. -/
theorem exists_place {label text : String} {e : LexError}
    (failed : (scan label text).failure = some e) :
    ∃ before rest, text.toList = before ++ rest ∧
      e.position = (Position.start label).advance before := by
  rw [scan_eq_scanFrom] at failed
  have start : State.lineStart.Holds fun place => ∃ before rest,
      text.toList = before ++ rest ∧ place = (Position.start label).advance before := trivial
  exact scanFrom_holds start (fun before rest split => ⟨before, rest, split, rfl⟩) failed

end Lexer

/-! ### Salvaged entries

What is read as a partial document is a list of whole entries in either case, those of the text or
those before the cut. -/

namespace Document

/-- The tokens that the entries of a partial document are read from: those of the text, or what can
be salvaged of them. -/
def partialTokens (label text : String) : List Token :=
  match (Lexer.scan label text).failure with
  | none => (Lexer.scan label text).tokens
  | some e => salvage (Lexer.scan label text).tokens e

variable {label text : String}

/-- A partial document in terms of its tokens. -/
theorem parsePartialLogged_eq (label text : String) :
    parsePartialLogged label text =
      ⟨⟨⟨label, (readTokens (partialTokens label text)).1.items.toList⟩,
        ((Lexer.scan label text).failure.map .lexical).or
          ((readTokens (partialTokens label text)).2.map .structural)⟩,
        (readTokens (partialTokens label text)).1.log.toList⟩ := rfl

theorem partialTokens_of_tokenize {tokens : List Token}
    (tokenized : tokenize label text = .ok tokens) : partialTokens label text = tokens := by
  have scanned := tokenize_eq_ok_iff.mp tokenized
  rw [← Lexer.scan_eq_scanFrom] at scanned
  rw [partialTokens, scanned]

/-- The tokens of a partial document are those of **whole entries, and an end mark.** -/
theorem exists_partialEntries (label text : String) :
    ∃ entries last, partialTokens label text = entryTokens entries ++ [last] ∧
      last.kind = .endOfInput := by
  cases tokenized : tokenize label text with
  | ok tokens =>
    obtain ⟨entries, last, same, ending, -⟩ := exists_shapedEntries tokenized
    exact ⟨entries, last, (partialTokens_of_tokenize tokenized).trans same, ending⟩
  | error e =>
    have failed := tokenize_eq_error_iff.mp tokenized
    rw [← Lexer.scan_eq_scanFrom] at failed
    obtain ⟨-, -, entries, others, -, -, -, -, tokens, leftOver⟩ := exists_salvaged failed
    refine ⟨entries, Lexer.token .endOfInput "" e.position, ?_, rfl⟩
    -- what is left over behind the entries begins at the name that the tokens are cut at
    rw [partialTokens, failed]
    dsimp only
    rw [tokens, salvage_leavesOver _ leftOver]

end Document

/-! ### Argument marks

In whole entries the marks of arguments come in pairs that do not nest, and other tokens make no
difference to that. -/

/-- Whether the marks of arguments come in pairs that do not nest; one may be open before. -/
def Balanced : Bool → List Token → Prop
  | isOpen, [] => isOpen = false
  | isOpen, t :: rest =>
    match t.kind with
    | .argumentStart => isOpen = false ∧ Balanced true rest
    | .argumentStop => isOpen = true ∧ Balanced false rest
    | _ => Balanced isOpen rest

/-- Tokens that are no marks do not count. -/
theorem balanced_append_of_ne {isOpen : Bool} {tokens rest : List Token}
    (other : ∀ t ∈ tokens, t.kind ≠ .argumentStart ∧ t.kind ≠ .argumentStop) :
    Balanced isOpen (tokens ++ rest) ↔ Balanced isOpen rest := by
  induction tokens with
  | nil => rfl
  | cons t tokens ih =>
    obtain ⟨noStart, noStop⟩ := other t List.mem_cons_self
    rw [List.cons_append, ← ih fun u member => other u (List.mem_cons_of_mem t member), Balanced]
    split
    · contradiction
    · contradiction
    · rfl

theorem ArgumentTokens.balanced (a : ArgumentTokens) {rest : List Token}
    (others : Balanced false rest) : Balanced false (a.toList ++ rest) := by
  have body : ∀ t ∈ a.body, t.kind ≠ .argumentStart ∧ t.kind ≠ .argumentStop := by
    intro t member
    have kind := a.body_kind t member
    constructor <;> (intro same; rw [same] at kind; exact kind)
  have split : a.toList ++ rest = a.start :: (a.body ++ a.stop :: rest) := by
    simp [ArgumentTokens.toList]
  rw [split, Balanced, a.start_kind]
  refine ⟨rfl, (balanced_append_of_ne body).mpr ?_⟩
  rw [Balanced, a.stop_kind]
  exact ⟨rfl, others⟩

theorem DirectiveTokens.balanced (d : DirectiveTokens) {rest : List Token}
    (others : Balanced false rest) : Balanced false (d.toList ++ rest) := by
  have arguments (as : List ArgumentTokens) :
      Balanced false (as.flatMap ArgumentTokens.toList ++ rest) := by
    induction as with
    | nil => exact others
    | cons a as ih =>
      rw [List.flatMap_cons, List.append_assoc]
      exact a.balanced ih
  have split : d.toList ++ rest =
      d.name :: (d.arguments.flatMap ArgumentTokens.toList ++ rest) := rfl
  rw [split, Balanced, d.name_kind]
  exact arguments d.arguments

theorem CommentTokens.balanced (c : CommentTokens) {rest : List Token}
    (others : Balanced false rest) : Balanced false (c.toList ++ rest) := by
  refine (balanced_append_of_ne fun t member => ?_).mpr others
  rcases c.kind_of_mem member with kind | ⟨kind, -⟩ <;> rw [kind] <;> exact ⟨nofun, nofun⟩

/-- The **marks of whole entries** come in pairs. -/
theorem balanced_entryTokens (entries : List EntryTokens) :
    Balanced false (entryTokens entries) := by
  induction entries with
  | nil => rfl
  | cons entry entries ih =>
    rw [entryTokens_cons]
    cases entry with
    | comment c => exact c.balanced ih
    | directive d => exact d.balanced ih

end WafRules
