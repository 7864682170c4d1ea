import Mathlib.Data.List.DropRight
import WafRules.Proofs.Grammar.Shape
import WafRules.Proofs.Patterns
import WafRules.Proofs.WellFormed.Operands

/-!
# Phrases

An operator that looks for phrases takes the words between the blanks of its argument, and one that
names a file or a host takes the text.  The blanks behind the name of an operator only separate, so
they should leave no trace.  They do leave one when a line continuation stands among them: then they
are two tokens and not one, only the first of which is taken as the separator, and there is an empty
phrase, or a blank in front of the name of the file.  Everywhere else the phrases are the runs of
tokens that are not blanks.

`Operator.Behind` names the parts of what stands behind a name: the one token that is taken for the
separator and the tokens of the argument.  What an operator takes is stated from there, so what is
said of phrases, of files and of hosts is about the same parts, and a blank is left over under one
condition, that the blanks behind the name are more than one token (`Interrupted`).

## Main Definitions

* `phraseRuns` — the maximal runs of tokens that are not blanks.
* `Operator.Behind` — what stands behind the name of an operator.
* `Interrupted` — blanks that are more than one token.

## Main Statements

* `Operand.wordsOf_eq` — the words between blanks, by their runs.
* `Operator.Kind.read_eq_ok_iff` — when there is an operator behind an at sign.
* `Grammar.exists_continuation_of_readAt` — blanks that are two tokens have a continuation in them.
* `Operator.phrases_of_argument` — the phrases of an operator.
-/

namespace WafRules

/-! ### Runs between blanks

Splitting at every blank token, with the runs in between as a function of the tokens.  It agrees
with the splitting of the reader except for an empty run in front, which appears when a blank comes
first. -/

/-- Whether a token is blanks. -/
def Token.isBlanks (t : Token) : Bool := t.isKind .blanks

theorem Token.isBlanks_iff {t : Token} : t.isBlanks = true ↔ t.kind = .blanks := beq_iff_eq

/-- The text of tokens. -/
def tokensText (tokens : List Token) : String :=
  String.ofList (tokens.flatMap fun t => t.value.toList)

/-- The maximal runs of tokens that are not blanks: what is left between blanks, where something is
left. -/
def phraseRuns (tokens : List Token) : List (List Token) :=
  (tokens.splitOnP Token.isBlanks).filter (· ≠ [])

/-- Blanks in front do not count. -/
theorem phraseRuns_cons_blanks {t : Token} (isBlanks : t.isBlanks = true)
    (tokens : List Token) : phraseRuns (t :: tokens) = phraseRuns tokens := by
  rw [phraseRuns, List.splitOnP_cons_eq_if_modifyHead, if_pos isBlanks]
  rfl

theorem phraseRuns_dropWhile (tokens : List Token) :
    phraseRuns (tokens.dropWhile Token.isBlanks) = phraseRuns tokens := by
  induction tokens with
  | nil => rfl
  | cons t tokens ih =>
    by_cases isBlanks : t.isBlanks = true
    · rw [List.dropWhile_cons_of_pos isBlanks, ih, phraseRuns_cons_blanks isBlanks]
    · rw [List.dropWhile_cons_of_neg isBlanks]

/-- A run is what stands in front of the next blanks, or of the end. -/
theorem phraseRuns_append {run after : List Token} (nonempty : run ≠ [])
    (within : ∀ t ∈ run, t.isBlanks = false)
    (ends : ∀ t ∈ after.head?, t.isBlanks = true) :
    phraseRuns (run ++ after) = run :: phraseRuns after := by
  have counts : decide (run ≠ []) = true := decide_eq_true nonempty
  cases after with
  | nil =>
    rw [List.append_nil, phraseRuns, List.splitOnP_eq_singleton within]
    exact List.filter_cons_of_pos counts
  | cons t after =>
    have isBlanks := ends t rfl
    rw [phraseRuns_cons_blanks isBlanks, phraseRuns,
      List.splitOnP_append_cons_of_forall_mem within t isBlanks]
    exact List.filter_cons_of_pos counts

/-- Blanks behind everything do not count either. -/
theorem phraseRuns_concat_blanks {t : Token} (isBlanks : t.isBlanks = true)
    (tokens : List Token) : phraseRuns (tokens ++ [t]) = phraseRuns tokens := by
  rw [phraseRuns, List.splitOnP_append_cons tokens [] isBlanks, List.filter_append]
  exact List.append_nil _

theorem phraseRuns_rdropWhile (tokens : List Token) :
    phraseRuns (tokens.rdropWhile Token.isBlanks) = phraseRuns tokens := by
  induction tokens using List.reverseRecOn with
  | nil => rfl
  | append_singleton tokens t ih =>
    by_cases isBlanks : t.isBlanks = true
    · rw [List.rdropWhile_concat_pos _ _ _ isBlanks, ih, phraseRuns_concat_blanks isBlanks]
    · rw [List.rdropWhile_concat_neg _ _ _ isBlanks]

/-- The first run of tokens that begin with something else than blanks. -/
theorem phraseRuns_cons_word {t : Token} (isWord : t.isBlanks = false) (tokens : List Token) :
    phraseRuns (t :: tokens) =
      (t :: tokens.takeWhile fun u => !u.isBlanks) ::
        phraseRuns (tokens.dropWhile fun u => !u.isBlanks) := by
  have cut : t :: tokens = (t :: tokens.takeWhile fun u => !u.isBlanks) ++
      tokens.dropWhile fun u => !u.isBlanks := by
    rw [List.cons_append, List.takeWhile_append_dropWhile]
  conv_lhs => rw [cut]
  refine phraseRuns_append (List.cons_ne_nil _ _) ?_ ?_
  · refine List.forall_mem_cons.mpr ⟨isWord, fun u member => ?_⟩
    simpa using List.mem_takeWhile_imp member
  · intro u first
    have stopped := List.head?_dropWhile_not (fun u : Token => !u.isBlanks) tokens
    rw [Option.mem_def.mp first] at stopped
    simpa using stopped

/-- A run is a stretch of the tokens that are cut into runs, and has no blanks.  By induction on
their number, as a run may be followed by a run. -/
theorem isInfix_of_mem_phraseRuns {run tokens : List Token} (member : run ∈ phraseRuns tokens) :
    run <:+: tokens ∧ ∀ t ∈ run, t.isBlanks = false := by
  induction counted : tokens.length using Nat.strong_induction_on generalizing tokens with
  | _ count ih =>
    cases tokens with
    | nil => cases member
    | cons t tokens =>
      have shorter := (List.dropWhile_suffix (fun u : Token => !u.isBlanks) (l := tokens)).length_le
      rw [List.length_cons] at counted
      cases kind : t.isBlanks with
      | true =>
        rw [phraseRuns_cons_blanks kind] at member
        obtain ⟨within, noBlanks⟩ := ih _ (by omega) member rfl
        exact ⟨List.infix_cons within, noBlanks⟩
      | false =>
        rw [phraseRuns_cons_word kind] at member
        rcases List.mem_cons.mp member with rfl | later
        · refine ⟨((List.prefix_cons_inj t).mpr (List.takeWhile_prefix _)).isInfix, ?_⟩
          refine List.forall_mem_cons.mpr ⟨kind, fun u inRun => ?_⟩
          simpa using List.mem_takeWhile_imp inRun
        · obtain ⟨within, noBlanks⟩ := ih _ (by omega) later rfl
          exact ⟨List.infix_cons (within.trans (List.dropWhile_suffix _).isInfix), noBlanks⟩

/-- A run has tokens, and these are among those that are cut into runs. -/
theorem of_mem_phraseRuns {run tokens : List Token} (member : run ∈ phraseRuns tokens) :
    run ≠ [] ∧ ∀ t ∈ run, t ∈ tokens := by
  have nonempty := (List.mem_filter.mp member).2
  exact ⟨of_decide_eq_true nonempty, (isInfix_of_mem_phraseRuns member).1.subset⟩

/-- Something that is not blanks is in some run. -/
theorem phraseRuns_ne_nil {t : Token} {tokens : List Token} (member : t ∈ tokens)
    (notBlanks : t.isBlanks = false) : phraseRuns tokens ≠ [] := by
  induction tokens with
  | nil => cases member
  | cons first tokens ih =>
    cases kind : first.isBlanks with
    | false =>
      rw [phraseRuns_cons_word kind]
      exact List.cons_ne_nil _ _
    | true =>
      rw [phraseRuns_cons_blanks kind]
      rcases List.mem_cons.mp member with rfl | later
      · rw [kind] at notBlanks
        cases notBlanks
      · exact ih later

namespace Operand

/-- The **words between blanks** are the texts of the runs, behind an empty word if there are blanks
in front. -/
theorem wordsOf_eq (tokens : List Token) :
    wordsOf tokens =
      (if tokens.head?.any Token.isBlanks = true then [""] else []) ++
        (phraseRuns tokens).map tokensText := by
  fun_induction wordsOf tokens with
  | case1 => rfl
  | case2 t rest isWord word after ih =>
    have runs : phraseRuns after = phraseRuns ((t :: rest).dropWhile isWord) :=
      phraseRuns_dropWhile _
    -- what stands behind a word and its blanks does not begin with blanks
    have restarts : ¬ after.head?.any Token.isBlanks = true := by
      have stopped := List.head?_dropWhile_not Token.isBlanks ((t :: rest).dropWhile isWord)
      intro again
      obtain ⟨u, first, isBlanks⟩ := (Option.any_eq_true _ _).mp again
      have head : (((t :: rest).dropWhile isWord).dropWhile Token.isBlanks).head? = some u := first
      rw [head] at stopped
      exact absurd isBlanks (Bool.eq_false_iff.mp stopped)
    rw [ih, if_neg restarts, List.nil_append, runs]
    cases kind : t.isBlanks with
    | true =>
      have noWord : ¬ isWord t = true := Bool.eq_false_iff.mp (congrArg not kind)
      have empty : word = [] := List.takeWhile_cons_of_neg noWord
      have front : (t :: rest).head?.any Token.isBlanks = true := kind
      rw [empty, List.dropWhile_cons_of_neg noWord, if_pos front]
      rfl
    | false =>
      have inWord : isWord t = true := congrArg not kind
      have first : word = t :: rest.takeWhile isWord := List.takeWhile_cons_of_pos inWord
      have front : ¬ (t :: rest).head?.any Token.isBlanks = true := Bool.eq_false_iff.mp kind
      rw [first, List.dropWhile_cons_of_pos inWord, if_neg front, phraseRuns_cons_word kind]
      rfl

end Operand

namespace Window

/-- A window without the blanks at its end. -/
theorem trimEnd_tokens (w : Window) : w.trimEnd.tokens = w.tokens.rdropWhile Token.isBlanks := by
  have cut : w.tokens.rdropWhile Token.isBlanks ++ w.tokens.rtakeWhile Token.isBlanks =
      w.tokens := List.rdropWhile_append_rtakeWhile
  have blanks : (w.tokens.reverse.takeWhile Token.isBlanks).length =
      (w.tokens.rtakeWhile Token.isBlanks).length := by
    rw [List.rtakeWhile, List.length_reverse]
  have lengths := congrArg List.length cut
  rw [List.length_append] at lengths
  show w.tokens.take (w.tokens.length - (w.tokens.reverse.takeWhile Token.isBlanks).length) = _
  rw [blanks, ← lengths, Nat.add_sub_cancel]
  exact (List.prefix_iff_eq_take.mp (List.rdropWhile_prefix _ _)).symm

end Window

namespace Operand

/-- An argument behind a name, and the token of blanks that separates them. -/
theorem ofWindow_eq_ok_iff {name : Token} {w : Window} {o : Operand} :
    ofWindow name w = .ok o ↔
      (w.tokens = [] ∧ o = ⟨name, "", w⟩) ∨
      ∃ blanks rest, w.tokens = blanks :: rest ∧ blanks.kind = .blanks ∧
        o = ⟨name, String.ofList (blanks.value.toList.drop 1), ⟨rest, w.closing⟩⟩ := by
  obtain ⟨tokens, closing⟩ := w
  rcases tokens with - | ⟨t, rest⟩
  · constructor
    · intro read
      exact .inl ⟨rfl, (Except.ok.inj read).symm⟩
    · rintro (⟨-, rfl⟩ | ⟨blanks, rest, none, -⟩)
      · rfl
      · cases none
  · by_cases isBlanks : t.kind = .blanks
    · have read : ofWindow name ⟨t :: rest, closing⟩ =
          .ok ⟨name, String.ofList (t.value.toList.drop 1), ⟨rest, closing⟩⟩ := by
        simp [ofWindow, Window.isEmpty, Window.startsWith, Token.isKind, isBlanks, Window.first,
          Window.drop]
      rw [read]
      constructor
      · intro same
        exact .inr ⟨t, rest, rfl, isBlanks, (Except.ok.inj same).symm⟩
      · rintro (⟨none, -⟩ | ⟨blanks, others, same, -, rfl⟩)
        · cases none
        · cases same
          rfl
    · have read : ofWindow name ⟨t :: rest, closing⟩ =
          .error (unexpected (.blanksAfter name.value) t) := by
        simp [ofWindow, Window.isEmpty, Window.startsWith, Token.isKind, isBlanks, Window.first]
      rw [read]
      constructor
      · intro same
        cases same
      · rintro (⟨none, -⟩ | ⟨blanks, others, same, kind, -⟩)
        · cases none
        · cases same
          exact absurd kind isBlanks

/-- An argument stands behind a single token of blanks, or there is none. -/
theorem ofWindow_eq_ok {name : Token} {w : Window} {o : Operand}
    (read : ofWindow name w = .ok o) :
    o.window.tokens = w.tokens.drop 1 ∧ ∀ t ∈ w.tokens.head?, t.isBlanks = true := by
  rcases ofWindow_eq_ok_iff.mp read with ⟨none, rfl⟩ | ⟨blanks, rest, tokens, isBlanks, rfl⟩
  · rw [none]
    exact ⟨rfl, nofun⟩
  · rw [tokens]
    refine ⟨rfl, ?_⟩
    rintro _ ⟨⟩
    exact Token.isBlanks_iff.mpr isBlanks

/-- An argument that is asked for has something besides blanks. -/
theorem required_eq_ok {o : Operand} {w : Window} (read : o.required = .ok w) :
    w.tokens = o.window.tokens.rdropWhile Token.isBlanks ∧ w.tokens ≠ [] := by
  unfold required at read
  dsimp only at read
  split at read
  · cases read
  · next nonempty =>
    obtain rfl := Except.ok.inj read
    exact ⟨o.window.trimEnd_tokens, fun empty => nonempty (List.isEmpty_iff.mpr empty)⟩

/-- An argument that has something besides blanks is there. -/
theorem required_of_ne_nil {o : Operand}
    (nonempty : o.window.tokens.rdropWhile Token.isBlanks ≠ []) :
    o.required = .ok o.window.trimEnd := by
  have present : ¬ o.window.trimEnd.isEmpty = true := fun empty =>
    nonempty (o.window.trimEnd_tokens ▸ List.isEmpty_iff.mp empty)
  exact if_neg present

/-- An argument that is asked for begins as it does with the blanks behind it, and has a phrase. -/
theorem head?_of_required {o : Operand} {w : Window} (read : o.required = .ok w) :
    w.tokens.head? = o.window.tokens.head? ∧ phraseRuns w.tokens = phraseRuns o.window.tokens ∧
      phraseRuns w.tokens ≠ [] := by
  obtain ⟨trimmed, nonempty⟩ := required_eq_ok read
  obtain ⟨behind, whole⟩ : w.tokens <+: o.window.tokens := by
    rw [trimmed]
    exact List.rdropWhile_prefix _ _
  refine ⟨?_, by rw [trimmed, phraseRuns_rdropWhile], ?_⟩
  · obtain ⟨first, others, tokens⟩ := List.exists_cons_of_ne_nil nonempty
    rw [← whole, tokens]
    rfl
  · rw [trimmed] at nonempty ⊢
    exact phraseRuns_ne_nil (List.getLast_mem nonempty)
      (Bool.eq_false_iff.mpr (List.rdropWhile_last_not _ _ nonempty))

end Operand

/-! ### Blanks of an argument

Two tokens of blanks side by side can only come from a continuation, as blanks of the source that
follow each other are one token. -/

namespace Grammar

open Lexer (Run Quoting token)

/-- Blanks of an argument that are more than one token have a continuation among them. -/
theorem exists_continuation_of_readAt {p : Position} {source : List Char} {a : ArgumentTokens}
    (read : ReadAt p source a) (together : ¬ Apart .blanks (tokenKinds a.body)) :
    ∃ ending front back, source = front ++ continuation ending ++ back := by
  obtain ⟨quoting, body, after, rfl, -, -, -, words, -⟩ := read
  by_contra none
  push Not at none
  refine together ?_
  rw [words]
  refine bodyTokens_apart .blanks nofun _ _ fun _ ending member => ?_
  obtain ⟨earlier, later, rfl⟩ := List.append_of_mem member
  refine none ending ((styleOf quoting).mark ++ bodySource earlier)
    (bodySource later ++ ((styleOf quoting).mark ++ after)) ?_
  simp [bodySource, Atom.source]

end Grammar

/-! ### What stands behind a name

The parts are unique, they are there for every operator with a name, and each kind of operator takes
from them what its kind says (`Kind.TakenFrom`). -/

/-- Whether blanks at the start are more than one token. -/
def Interrupted (tokens : List Token) : Prop :=
  ∃ first second others, tokens = first :: second :: others ∧
    first.isBlanks = true ∧ second.isBlanks = true

/-- The same by what stands behind the first token. -/
theorem interrupted_iff {tokens : List Token} (starts : ∀ t ∈ tokens.head?, t.isBlanks = true) :
    Interrupted tokens ↔ (tokens.drop 1).head?.any Token.isBlanks = true := by
  constructor
  · rintro ⟨first, second, others, rfl, -, isBlanks⟩
    exact isBlanks
  · intro again
    rcases tokens with - | ⟨first, - | ⟨second, others⟩⟩
    · cases again
    · cases again
    · exact ⟨first, second, others, rfl, starts first rfl, again⟩

/-- A token of an argument is blanks if its text begins with one.  The other tokens of an argument
have no blank in front: a word may hold one behind a backslash only. -/
theorem Grammar.Style.Holds.any_head? {style : Style} {t : Token} (holds : style.Holds t) :
    t.value.toList.head?.any Text.isBlank = t.isBlanks := by
  obtain ⟨⟨kind, value⟩, position⟩ := t
  obtain ⟨nonempty, shape⟩ := holds
  have begins : value.toList ≠ [] := fun empty => nonempty (String.toList_injective empty)
  cases kind with
  | word =>
    have word : WordText value.toList := shape
    show value.toList.head?.any Text.isBlank = false
    generalize value.toList = cs at word
    cases word with
    | nil => rfl
    | pair c rest =>
      show Text.isBlank '\\' = false
      decide
    | char notBackslash notBlank notPunct rest => exact notBlank
  | blanks =>
    obtain ⟨c, cs, split⟩ := List.exists_cons_of_ne_nil begins
    obtain ⟨-, blanks⟩ : _ ∧ ∀ c ∈ value.toList, Text.isBlank c = true := shape
    show value.toList.head?.any Text.isBlank = true
    rw [split] at blanks ⊢
    exact blanks c List.mem_cons_self
  | punct punct =>
    have char : value.toList = [punct.char] := shape
    show value.toList.head?.any Text.isBlank = false
    rw [char]
    cases punct <;> decide
  | _ => exact shape.elim

/-- The text of an argument begins with a blank if its first token is blanks. -/
theorem any_head?_tokensText {tokens : List Token}
    (holds : ∀ t ∈ tokens, ∃ style : Grammar.Style, style.Holds t) :
    (tokensText tokens).toList.head?.any Text.isBlank = tokens.head?.any Token.isBlanks := by
  cases tokens with
  | nil => rfl
  | cons t tokens =>
    obtain ⟨style, shape⟩ := holds t List.mem_cons_self
    have nonempty : t.value.toList ≠ [] :=
      fun empty => shape.1 (String.toList_injective empty)
    have first : (tokensText (t :: tokens)).toList.head? = t.value.toList.head? := by
      rw [tokensText, String.toList_ofList, List.flatMap_cons,
        List.head?_append_of_ne_nil _ nonempty]
    rw [first, shape.any_head?]
    rfl

namespace Operator

open Grammar (continuation exists_continuation_of_readAt exists_readAt_of_mem_arguments)
open Lexer (token)

/-- Whether tokens are an operator with a name, and what stands behind the name. -/
inductive Behind (rest : List Token) : List Token → Prop
  | plain {mark name : Token} (isMark : mark.kind = .punct .atSign) (isName : name.kind = .word) :
    Behind rest (mark :: name :: rest)
  | negated {sign mark name : Token} (isSign : sign.kind = .punct .exclamation)
    (isMark : mark.kind = .punct .atSign) (isName : name.kind = .word) :
    Behind rest (sign :: mark :: name :: rest)

/-- What stands behind the name of an operator is a part of it. -/
theorem Behind.suffix {rest body : List Token} (behind : Behind rest body) : rest <:+ body := by
  cases behind with
  | plain => exact ⟨[_, _], rfl⟩
  | negated => exact ⟨[_, _, _], rfl⟩

/-- An operator has one name, so one thing stands behind it. -/
theorem Behind.unique {first second body : List Token} (behind : Behind first body)
    (behind' : Behind second body) : first = second := by
  cases behind with
  | plain isMark =>
    cases behind' with
    | plain => rfl
    | negated isSign =>
      rw [isMark] at isSign
      cases isSign
  | negated isSign =>
    cases behind' with
    | plain isMark =>
      rw [isMark] at isSign
      cases isSign
    | negated => rfl

/-- Whether an operator with a list of words, or with a trimmed text, has that of an argument. -/
def Kind.TakenFrom (o : Operand) : Kind → Prop
  | phrases words | phraseFiles words => o.words = .ok words
  | addressFile text | blockList text => o.trimmed = .ok text
  | regex _ | compare _ _ | addresses _ | byteRanges _ | detect _ => True

theorem yields_eq {α : Type} (result : Except SyntaxError α) :
    Yields (fun a => result = .ok a) result := fun _ same => same

theorem Kind.readers_takenFrom {name : String} {read : Kind.Reader}
    (listed : (name, read) ∈ Kind.readers) (o : Operand) :
    Yields (Kind.TakenFrom o) (read o) := by
  have words := yields_eq o.words
  have trimmed := yields_eq o.trimmed
  simp only [readers, List.mem_append, List.mem_cons, List.mem_map, Prod.mk.injEq,
    List.not_mem_nil, or_false] at listed
  rcases listed with (listed | ⟨how, -, -, rfl⟩) | ⟨what, -, -, rfl⟩
  · rcases listed with ⟨-, rfl⟩ | ⟨-, rfl⟩ | ⟨-, rfl⟩ | ⟨-, rfl⟩ | ⟨-, rfl⟩ | ⟨-, rfl⟩ |
      ⟨-, rfl⟩ | ⟨-, rfl⟩ | ⟨-, rfl⟩
    · exact .map_of_forall fun _ => trivial
    · exact words.map fun _ same => same
    · exact words.map fun _ same => same
    · exact words.map fun _ same => same
    · exact .map_of_forall fun _ => trivial
    · exact trimmed.map fun _ same => same
    · exact trimmed.map fun _ same => same
    · exact trimmed.map fun _ same => same
    · exact .map_of_forall fun _ => trivial
  · exact .map_of_forall fun _ => trivial
  · exact .map_of_forall fun _ => trivial

/-- The operator behind an at sign is what the reader of its name makes of its argument. -/
theorem Kind.read_eq_ok_iff {w : Window} {kind : Kind} :
    Kind.read w = .ok kind ↔ ∃ name rest o read, w.tokens = name :: rest ∧ name.kind = .word ∧
      Operand.ofWindow name ⟨rest, w.closing⟩ = .ok o ∧
      Text.lookup? readers name.value = some read ∧ read o = .ok kind := by
  unfold Kind.read
  simp only [bind_eq_ok_iff, Prod.exists, Window.expect_eq_ok_iff]
  constructor
  · rintro ⟨name, ⟨rest, closing⟩, ⟨tokens, isName, rfl⟩, o, operand, read⟩
    cases found : Text.lookup? readers name.value with
    | none =>
      rw [found] at read
      cases read
    | some reader =>
      rw [found] at read
      exact ⟨name, rest, o, reader, tokens, isName, operand, found, read⟩
  · rintro ⟨name, rest, o, reader, tokens, isName, operand, found, read⟩
    refine ⟨name, ⟨rest, w.closing⟩, ⟨tokens, isName, rfl⟩, o, operand, ?_⟩
    rw [found]
    exact read

/-- The **operator behind an at sign** takes its argument from what stands behind its name, without
the blanks there that are one token. -/
theorem Kind.exists_operand {w : Window} {kind : Kind} (read : Kind.read w = .ok kind) :
    ∃ name rest o, w.tokens = name :: rest ∧ name.kind = .word ∧
      o.window.tokens = rest.drop 1 ∧ (∀ t ∈ rest.head?, t.isBlanks = true) ∧
      kind.TakenFrom o := by
  obtain ⟨name, rest, o, reader, tokens, isName, operand, found, taken⟩ := read_eq_ok_iff.mp read
  obtain ⟨argument, separated⟩ := Operand.ofWindow_eq_ok operand
  obtain ⟨spelling, listed⟩ := Text.exists_mem_of_lookup? found
  exact ⟨name, rest, o, tokens, isName, argument, separated,
    Kind.readers_takenFrom listed o kind taken⟩

/-- An operator that is not a bare pattern has an at sign, and a name behind it. -/
theorem Kind.exists_operand_of_readUnsigned {w : Window} {kind : Kind}
    (read : Kind.readUnsigned w = .ok kind) (named : ∀ pattern, kind ≠ .regex pattern) :
    ∃ mark name rest o, w.tokens = mark :: name :: rest ∧ mark.kind = .punct .atSign ∧
      name.kind = .word ∧ o.window.tokens = rest.drop 1 ∧
      (∀ t ∈ rest.head?, t.isBlanks = true) ∧ kind.TakenFrom o := by
  unfold readUnsigned at read
  split at read
  · next starts =>
    obtain ⟨mark, others, tokens, isMark⟩ := Window.tokens_of_startsWith starts
    obtain ⟨name, rest, o, behind, isName, found⟩ := Kind.exists_operand read
    rw [Window.drop_tokens, tokens] at behind
    obtain rfl : others = name :: rest := behind
    exact ⟨mark, name, rest, o, tokens, isMark, isName, found⟩
  · exact absurd (Except.ok.inj read).symm (named _)

/-- The kind of an operator is what stands behind its sign. -/
theorem readUnsigned_of_read {w : Window} {o : Operator} (read : Operator.read w = .ok o) :
    Kind.readUnsigned (if w.startsWith (.punct .exclamation) then w.drop 1 else w) =
      .ok o.kind := by
  rw [read_eq] at read
  cases unsigned :
      Kind.readUnsigned (if w.startsWith (.punct .exclamation) then w.drop 1 else w) with
  | error e =>
    rw [unsigned] at read
    cases read
  | ok kind =>
    rw [unsigned] at read
    obtain rfl := Except.ok.inj read
    rfl

/-- An **operator with a name** takes its argument from what stands behind the name, without the
first token there. -/
theorem exists_behind {w : Window} {o : Operator} (read : Operator.read w = .ok o)
    (named : ∀ pattern, o.kind ≠ .regex pattern) :
    ∃ rest operand, Behind rest w.tokens ∧ operand.window.tokens = rest.drop 1 ∧
      (∀ t ∈ rest.head?, t.isBlanks = true) ∧ o.kind.TakenFrom operand := by
  have unsigned := readUnsigned_of_read read
  split at unsigned
  · next starts =>
    obtain ⟨sign, others, tokens, isSign⟩ := Window.tokens_of_startsWith starts
    obtain ⟨mark, name, rest, operand, behind, isMark, isName, found⟩ :=
      Kind.exists_operand_of_readUnsigned unsigned named
    rw [Window.drop_tokens, tokens] at behind
    obtain rfl : others = mark :: name :: rest := behind
    rw [tokens]
    exact ⟨rest, operand, .negated isSign isMark isName, found⟩
  · obtain ⟨mark, name, rest, operand, tokens, isMark, isName, found⟩ :=
      Kind.exists_operand_of_readUnsigned unsigned named
    rw [tokens]
    exact ⟨rest, operand, .plain isMark isName, found⟩

/-- The words of an argument are the runs behind the name, and an empty word in front if the blanks
there are more than one token. -/
theorem words_eq {o : Operand} {rest : List Token} {words : List String}
    (argument : o.window.tokens = rest.drop 1) (separated : ∀ t ∈ rest.head?, t.isBlanks = true)
    (read : o.words = .ok words) :
    phraseRuns rest ≠ [] ∧
      (Interrupted rest → words = "" :: (phraseRuns rest).map tokensText) ∧
      (¬ Interrupted rest → words = (phraseRuns rest).map tokensText) := by
  obtain ⟨w, required, same⟩ := bind_eq_ok_iff.mp read
  obtain rfl := Except.ok.inj same
  obtain ⟨first, runs, nonempty⟩ := Operand.head?_of_required required
  have behind : phraseRuns (rest.drop 1) = phraseRuns rest := by
    cases rest with
    | nil => rfl
    | cons t rest => exact (phraseRuns_cons_blanks (separated t rfl) rest).symm
  have again : w.tokens.head?.any Token.isBlanks = true ↔ Interrupted rest := by
    rw [first, argument, interrupted_iff separated]
  rw [runs, argument, behind] at nonempty
  rw [Operand.wordsOf_eq, runs, argument, behind]
  refine ⟨nonempty, fun interrupted => ?_, fun plain => ?_⟩
  · rw [if_pos (again.mpr interrupted)]
    rfl
  · rw [if_neg (mt again.mp plain)]
    rfl

/-- The trimmed text of an argument begins with a blank if the blanks behind the name are more than
one token. -/
theorem trimmed_eq {o : Operand} {rest : List Token} {text : String}
    (holds : ∀ t ∈ rest, ∃ style : Grammar.Style, style.Holds t)
    (argument : o.window.tokens = rest.drop 1) (separated : ∀ t ∈ rest.head?, t.isBlanks = true)
    (read : o.trimmed = .ok text) :
    text.toList.head?.any Text.isBlank = true ↔ Interrupted rest := by
  obtain ⟨w, required, same⟩ := bind_eq_ok_iff.mp read
  obtain rfl := Except.ok.inj same
  obtain ⟨first, -, -⟩ := Operand.head?_of_required required
  have within : ∀ t ∈ w.tokens, t ∈ rest := by
    intro t member
    rw [(Operand.required_eq_ok required).1, argument] at member
    exact List.mem_of_mem_drop ((List.rdropWhile_prefix _ _).mem member)
  have text : w.text.toList.head?.any Text.isBlank = w.tokens.head?.any Token.isBlanks :=
    any_head?_tokensText fun t member => holds t (within t member)
  rw [text, first, argument, interrupted_iff separated]

/-- The **phrases of an operator** are the texts of the runs of tokens behind its name that are not
blanks, there is at least one, and none is empty; and the name of a file or a host does not begin
with a blank.  The exception are blanks behind the name that are more than one token: then there is
an empty phrase in front of the others, and the name does begin with a blank.  They are more than
one token only in a text with a line continuation. -/
theorem phrases_of_argument {label text : String} {tokens : List Token}
    (tokenized : tokenize label text = .ok tokens) {before body after : List Token}
    {start stop : Token} (split : tokens = before ++ start :: (body ++ stop :: after))
    (startKind : start.kind = .argumentStart) (stopKind : stop.kind = .argumentStop)
    (inside : ∀ t ∈ body, t.kind ≠ .argumentStop) {o : Operator}
    (read : Operator.read ⟨body, stop⟩ = .ok o) :
    (∀ words, o.kind = .phrases words ∨ o.kind = .phraseFiles words →
      ∃ rest, Behind rest body ∧ phraseRuns rest ≠ [] ∧
        (∀ run ∈ phraseRuns rest, tokensText run ≠ "") ∧
        (¬ Interrupted rest → words = (phraseRuns rest).map tokensText) ∧
        (Interrupted rest → words = "" :: (phraseRuns rest).map tokensText)) ∧
    (∀ name, o.kind = .addressFile name ∨ o.kind = .blockList name →
      ∃ rest, Behind rest body ∧
        (name.toList.head?.any Text.isBlank = true ↔ Interrupted rest)) ∧
    ∀ rest, Behind rest body → Interrupted rest →
      ∃ ending front back, text.toList = front ++ continuation ending ++ back := by
  obtain ⟨entries, last, rfl, final, lines, styles⟩ := exists_shapedEntries tokenized
  obtain ⟨d, listed, a, member, rfl, rfl, rfl⟩ :=
    exists_argument_of_split final split startKind stopKind inside
  obtain ⟨style, writes⟩ := styles d listed a member
  refine ⟨?_, ?_, ?_⟩
  · intro words isPhrases
    -- An operator without a name is a regular expression, so this one has a name in front.
    have named : ∀ pattern, o.kind ≠ .regex pattern := by
      rintro pattern isPattern
      rcases isPhrases with same | same <;> rw [isPattern] at same <;> cases same
    obtain ⟨rest, operand, behind, argument, separated, taken⟩ := exists_behind read named
    have found : operand.words = .ok words := by
      rcases isPhrases with same | same <;> rw [same] at taken <;> exact taken
    obtain ⟨nonempty, interrupted, plain⟩ := words_eq argument separated found
    refine ⟨rest, behind, nonempty, fun run isRun => ?_, plain, interrupted⟩
    obtain ⟨some, within⟩ := of_mem_phraseRuns isRun
    have solid : Window.Solid ⟨run, a.stop⟩ :=
      fun t inRun => (writes.holds t (behind.suffix.mem (within t inRun))).1
    exact solid.text_ne_empty fun empty => some (List.isEmpty_iff.mp empty)
  · intro name isName
    have named : ∀ pattern, o.kind ≠ .regex pattern := by
      rintro pattern isPattern
      rcases isName with same | same <;> rw [isPattern] at same <;> cases same
    obtain ⟨rest, operand, behind, argument, separated, taken⟩ := exists_behind read named
    have found : operand.trimmed = .ok name := by
      rcases isName with same | same <;> rw [same] at taken <;> exact taken
    exact ⟨rest, behind, trimmed_eq (fun t inRest =>
      ⟨style, writes.holds t (behind.suffix.mem inRest)⟩) argument separated found⟩
  · rintro rest behind ⟨first, second, others, rfl, isFirst, isSecond⟩
    have together : ¬ Apart .blanks (tokenKinds a.body) := by
      obtain ⟨front, whole⟩ := behind.suffix
      intro apart
      rw [← whole, tokenKinds_append] at apart
      have here := (List.isChain_append.mp apart).2.1
      exact (List.isChain_cons_cons.mp here).1
        ⟨Token.isBlanks_iff.mp isFirst, Token.isBlanks_iff.mp isSecond⟩
    obtain ⟨earlier, source, whole, found⟩ :=
      exists_readAt_of_mem_arguments (lines _ listed) member
    obtain ⟨ending, front, back, rfl⟩ := exists_continuation_of_readAt found together
    exact ⟨ending, earlier ++ front, back, by rw [whole]; simp only [List.append_assoc]⟩

/-- Two phrases behind three blanks, which are one token. -/
theorem phrases_of_argument_blanks :
    ∃ (before body after rest : List Token) (start stop : Token) (words : List String),
      tokenize "" "SecRule ARGS \"@pm   a b\"" =
        .ok (before ++ start :: (body ++ stop :: after)) ∧
      start.kind = .argumentStart ∧ stop.kind = .argumentStop ∧
      Operator.read ⟨body, stop⟩ = .ok ⟨.phrases words, false, ⟨none, 1, 15⟩⟩ ∧
      Behind rest body ∧ ¬ Interrupted rest ∧ words = (phraseRuns rest).map tokensText ∧
      words = ["a", "b"] := by
  let before : List Token :=
    [token .directive "SecRule" ⟨none, 1, 1⟩, token .argumentStart "" ⟨none, 1, 9⟩,
      token .word "ARGS" ⟨none, 1, 9⟩, token .argumentStop "" ⟨none, 1, 13⟩]
  let rest : List Token :=
    [token .blanks "   " ⟨none, 1, 18⟩, token .word "a" ⟨none, 1, 21⟩,
      token .blanks " " ⟨none, 1, 22⟩, token .word "b" ⟨none, 1, 23⟩]
  let body : List Token :=
    token (.punct .atSign) "@" ⟨none, 1, 15⟩ :: token .word "pm" ⟨none, 1, 16⟩ :: rest
  let start : Token := token .argumentStart "\"" ⟨none, 1, 14⟩
  let stop : Token := token .argumentStop "\"" ⟨none, 1, 24⟩
  have tokenized : tokenize "" "SecRule ARGS \"@pm   a b\"" =
      .ok (before ++ start :: (body ++ stop :: [token .endOfInput "" ⟨none, 1, 25⟩])) := by
    decide +kernel
  have read : Operator.read ⟨body, stop⟩ = .ok ⟨.phrases ["a", "b"], false, ⟨none, 1, 15⟩⟩ := by
    decide +kernel
  obtain ⟨phrases, -, -⟩ := phrases_of_argument tokenized rfl rfl rfl (by decide) read
  obtain ⟨found, behind, -, -, plain, -⟩ := phrases _ (.inl rfl)
  obtain rfl : found = rest := behind.unique (.plain rfl rfl)
  have apart : ¬ Interrupted rest := by
    rintro ⟨first, second, others, same, -, isBlanks⟩
    obtain ⟨rfl, rfl, -⟩ : _ ∧ _ ∧ _ := by simpa [rest] using same
    cases isBlanks
  exact ⟨before, body, _, rest, start, stop, _, tokenized, rfl, rfl, read,
    .plain rfl rfl, apart, plain apart, rfl⟩

/-- A blank, a line continuation and another blank in front of the only phrase: there is an empty
phrase in front of it. -/
theorem phrases_of_argument_continuation :
    ∃ (before body after rest : List Token) (start stop : Token) (words : List String),
      tokenize "" "SecRule ARGS \"@pm \\\n foo\"" =
        .ok (before ++ start :: (body ++ stop :: after)) ∧
      start.kind = .argumentStart ∧ stop.kind = .argumentStop ∧
      Operator.read ⟨body, stop⟩ = .ok ⟨.phrases words, false, ⟨none, 1, 15⟩⟩ ∧
      Document.parse "" "SecRule ARGS \"@pm \\\n foo\"" =
        .ok (Pattern.ruleDocument "" (.phrases words) false) ∧
      Behind rest body ∧ words = ["", "foo"] ∧ (phraseRuns rest).map tokensText = ["foo"] := by
  let rest : List Token :=
    [token .blanks " " ⟨none, 1, 18⟩, token .blanks " " ⟨none, 2, 1⟩,
      token .word "foo" ⟨none, 2, 2⟩]
  refine ⟨[token .directive "SecRule" ⟨none, 1, 1⟩, token .argumentStart "" ⟨none, 1, 9⟩,
      token .word "ARGS" ⟨none, 1, 9⟩, token .argumentStop "" ⟨none, 1, 13⟩],
    token (.punct .atSign) "@" ⟨none, 1, 15⟩ :: token .word "pm" ⟨none, 1, 16⟩ :: rest,
    [token .endOfInput "" ⟨none, 2, 6⟩], rest, token .argumentStart "\"" ⟨none, 1, 14⟩,
    token .argumentStop "\"" ⟨none, 2, 5⟩, ["", "foo"], ?_, rfl, rfl, ?_, ?_, .plain rfl rfl,
    rfl, ?_⟩
  · decide +kernel
  · decide +kernel
  · decide +kernel
  · decide +kernel

end Operator

end WafRules
