import WafRules.Proofs.Continuations
import WafRules.Proofs.Items
import WafRules.Proofs.Pieces
import WafRules.Proofs.QuotedArguments
import WafRules.Proofs.References

/-!
# Operators from their written form

What an operator is written as names it in one way, puts one blank between its name and its argument
and between words, and one comma between items, whatever the rule was written with.  It is read to
the operator again all the same.  For each shape of argument there are tidy tokens that say the
written argument and from which it is read, with no regard to the tokens around them; behind the
name, the at sign and the exclamation mark they say the written operator.  As tidy tokens are
decided by what they say, these are the tokens that the written form is cut into.

## Main Definitions

* `Operator.Kind.reader` — how the argument of a kind of operators is read.
* `Indented` — tidy tokens behind blanks.
* `Operand.ReadsFrom` — a text that a value is read from.

## Main Statements

* `ExpandableString.render_of_readOnto` — a string with references is written as it was read.
* `Operator.Kind.readsFrom_renderArgument` — every argument is read again.
* `Operator.read_render` — every operator is read again.
-/

namespace WafRules

open Grammar (Atom Style bodyTokens)
open Lexer (token)

/-! ### Strings with references -/

namespace ExpandableString

/-- Reading **loses nothing of the text.** -/
theorem render_of_readOnto {s r : ExpandableString} {w : Window}
    (holds : ∀ t ∈ w.tokens, ∃ style : Style, style.Holds t) (read : readOnto s w = .ok r) :
    r.render.toList = s.render.toList ++ w.tokens.flatMap fun t => t.value.toList := by
  obtain ⟨segments, division, rfl⟩ := readOnto_eq_ok_iff.mp read
  rw [pushAll_segments, render_pushAll, ← render_of_divides division holds, List.flatMap_map]

end ExpandableString

/-! ### Readers

The table of operators is searched by name in any case.  The names themselves are found in it, and
each of them is a single word, so that behind the at sign stands one token. -/

/-- Letters of words make a word. -/
theorem WordText.of_standsInWord {letters : List Char}
    (inWord : ∀ c ∈ letters, Grammar.StandsInWord c) : WordText letters := by
  induction letters with
  | nil => exact .nil
  | cons c letters ih =>
    obtain ⟨⟨notBlank, notPunct, -, notBackslash, -⟩, others⟩ := List.forall_mem_cons.mp inWord
    exact .char notBackslash notBlank notPunct (ih others)

namespace Operator.Kind

/-- The reader of a kind of operators, with its canonical name. -/
def reader : Kind → Reader
  | regex _ => fun o => .regex <$> o.verbatim
  | compare how _ => fun o => .compare how <$> o.expandable
  | phrases _ => fun o => .phrases <$> o.words
  | phraseFiles _ => fun o => .phraseFiles <$> o.words
  | addresses _ => fun o => .addresses <$> o.items .address Network.read?
  | addressFile _ => fun o => .addressFile <$> o.trimmed
  | blockList _ => fun o => .blockList <$> o.trimmed
  | byteRanges _ => fun o => .byteRanges <$> o.items .byteRange ByteRange.read?
  | detect what => fun o => (fun _ => .detect what) <$> o.absent

/-- Every kind of operators is in the table of readers. -/
theorem reader_mem_readers (kind : Kind) : (kind.name, kind.reader) ∈ readers := by
  cases kind with
  | compare how argument =>
    have listed : how ∈ Comparison.all := by cases how <;> decide
    exact List.mem_append_left _ (List.mem_append_right _ (List.mem_map.mpr ⟨how, listed, rfl⟩))
  | detect what =>
    have listed : what ∈ Detector.all := by cases what <;> decide
    exact List.mem_append_right _ (List.mem_map.mpr ⟨what, listed, rfl⟩)
  | _ =>
    refine List.mem_append_left _ (List.mem_append_left _ ?_)
    simp only [name, reader, List.mem_cons, true_or, or_true]

/-- The name of an operator finds its reader. -/
theorem lookup?_name (kind : Kind) : Text.lookup? readers kind.name = some kind.reader := by
  have spellings : (readers.map fun entry => Text.foldCase entry.1).Nodup := by decide +kernel
  exact (Text.lookup?_eq_some_iff (List.inj_on_of_nodup_map spellings)).mpr
    ⟨_, kind.reader_mem_readers, rfl⟩

/-- The name of an operator is a word. -/
theorem name_standsInWord (kind : Kind) :
    kind.name.toList ≠ [] ∧ ∀ c ∈ kind.name.toList, Grammar.StandsInWord c := by
  have word : kind.name.toList ≠ [] ∧ kind.name.toList.Forall Grammar.StandsInWord := by
    cases kind with
    | compare how argument => cases how <;> (dsimp only [name, Comparison.name]; decide +kernel)
    | detect what => cases what <;> (dsimp only [name, Detector.name]; decide +kernel)
    | _ => dsimp only [name]; decide +kernel
  exact word.imp_right List.forall_iff_forall_mem.mp

/-- An operator has the same reader by whatever name it is read. -/
theorem readers_reader {name : String} {read : Reader} (listed : (name, read) ∈ readers)
    (o : Operand) : Yields (fun kind => kind.reader = read) (read o) := by
  simp only [readers, List.mem_append, List.mem_cons, List.mem_map, Prod.mk.injEq,
    List.not_mem_nil, or_false] at listed
  rcases listed with (listed | ⟨how, -, -, rfl⟩) | ⟨what, -, -, rfl⟩
  · rcases listed with ⟨-, rfl⟩ | ⟨-, rfl⟩ | ⟨-, rfl⟩ | ⟨-, rfl⟩ | ⟨-, rfl⟩ | ⟨-, rfl⟩ |
      ⟨-, rfl⟩ | ⟨-, rfl⟩ | ⟨-, rfl⟩ <;> exact .map_of_forall fun _ => rfl
  · exact .map_of_forall fun _ => rfl
  · exact .map_of_forall fun _ => rfl

end Operator.Kind

/-! ### Arguments that are written again

One blank is written behind a name, and the argument may begin with blanks of its own, for operators
that keep those.  All of them together are then one token, of which the reader takes the first
character for the separator and gives back the others.  `Indented` says what is behind that
character: blanks, and tidy tokens that do not go on with them. -/

/-- Blanks, and tidy tokens behind them that do not go on with blanks. -/
structure Indented (leading : List Char) (tokens : List Token) : Prop where
  blanks : ∀ c ∈ leading, Text.isBlank c = true
  tidy : Tidy tokens
  border : ∀ t ∈ tokens.head?, t.isBlanks = false

theorem Indented.nil : Indented [] [] := ⟨nofun, .nil, nofun⟩

theorem Indented.of_tidy {tokens : List Token} (tidy : Tidy tokens)
    (border : ∀ t ∈ tokens.head?, t.isBlanks = false) : Indented [] tokens := ⟨nofun, tidy, border⟩

/-- Nothing that follows blanks goes on with them. -/
theorem Tidy.indented {t : Token} {tokens : List Token} (tidy : Tidy (t :: tokens))
    (isBlanks : t.kind = .blanks) : Indented t.value.toList tokens := by
  obtain ⟨-, shape⟩ := tidy.holds t List.mem_cons_self
  rw [isBlanks] at shape
  refine ⟨shape.2, tidy.tail, fun u first => ?_⟩
  rw [Bool.eq_false_iff]
  intro alike
  obtain ⟨others, rfl⟩ := List.head?_eq_some_iff.mp first
  have apart := (List.isChain_cons_cons.mp tidy.apart).1
  exact apart ⟨isBlanks.trans (Token.isBlanks_iff.mp alike).symm, .inr isBlanks⟩

/-- A token of blanks in front of tokens that do not go on with blanks. -/
theorem Indented.cons {leading : List Char} {tokens : List Token}
    (indented : Indented leading tokens) {c : Char} (blank : Text.isBlank c = true) (p : Position) :
    Tidy (token .blanks (String.ofList (c :: leading)) p :: tokens) := by
  have blanks : ∀ d ∈ c :: leading, Text.isBlank d = true :=
    List.forall_mem_cons.mpr ⟨blank, indented.blanks⟩
  have value : (token .blanks (String.ofList (c :: leading)) p).value.toList = c :: leading :=
    String.toList_ofList
  refine indented.tidy.cons ⟨?_, rfl, ?_⟩ ⟨?_, ?_⟩ fun u first => ?_
  · intro empty
    have none : (String.ofList (c :: leading)).toList = [] := congrArg String.toList empty
    rw [String.toList_ofList] at none
    cases none
  · rwa [value]
  · rw [value]
    exact fun member => absurd (blanks _ member) (by decide)
  · rw [value]
    exact fun member => absurd (blanks _ member) (by decide)
  · rintro ⟨same, -⟩
    have notBlanks := indented.border u first
    rw [Token.isBlanks_iff.mpr same.symm] at notBlanks
    cases notBlanks

/-- Tidy tokens are others behind the blanks they begin with, if they do. -/
theorem Tidy.exists_indented {tokens : List Token} (tidy : Tidy tokens) :
    ∃ leading rest, Indented leading rest ∧
      (tokens.flatMap fun t => t.value.toList) =
        leading ++ rest.flatMap fun t => t.value.toList := by
  cases tokens with
  | nil => exact ⟨[], [], .nil, rfl⟩
  | cons t tokens =>
    by_cases isBlanks : t.kind = .blanks
    · exact ⟨t.value.toList, tokens, tidy.indented isBlanks, rfl⟩
    · refine ⟨[], t :: tokens, .of_tidy tidy ?_, rfl⟩
      rintro _ ⟨⟩
      exact Bool.eq_false_iff.mpr (mt Token.isBlanks_iff.mp isBlanks)

/-- A mark is a token of its own, whatever it stands in front of. -/
theorem Tidy.cons_mark {tokens : List Token} (tidy : Tidy tokens) (punct : Punct) (p : Position) :
    Tidy (token (.punct punct) punct.char.toString p :: tokens) := by
  have value : (token (.punct punct) punct.char.toString p).value.toList = [punct.char] := by
    simp [token]
  have plain : '\\' ≠ punct.char ∧ '\n' ≠ punct.char := by cases punct <;> decide
  refine tidy.cons ⟨?_, value⟩ ⟨?_, ?_⟩ ?_
  · intro empty
    rw [empty] at value
    cases value
  · rw [value]
    exact mt List.mem_singleton.mp plain.1
  · rw [value]
    exact mt List.mem_singleton.mp plain.2
  · rintro u - ⟨-, word | blanks⟩
    · cases word
    · cases blanks

theorem Tidy.append_mark {tokens tokens' : List Token} (front : Tidy tokens) (back : Tidy tokens')
    (punct : Punct) (p : Position) :
    Tidy (tokens ++ token (.punct punct) punct.char.toString p :: tokens') := by
  refine front.append (back.cons_mark punct p) ?_
  rintro t - _ ⟨⟩ ⟨same, goesOn⟩
  rw [same] at goesOn
  rcases goesOn with word | blanks
  · cases word
  · cases blanks

/-- A word in front of something else. -/
theorem Tidy.cons_word {tokens : List Token} (tidy : Tidy tokens) {text : String}
    (nonempty : text.toList ≠ []) (inWord : ∀ c ∈ text.toList, Grammar.StandsInWord c)
    (border : ∀ u ∈ tokens.head?, u.kind ≠ .word) (p : Position) :
    Tidy (token .word text p :: tokens) := by
  have plain {c : Char} (notInWord : ¬ Grammar.StandsInWord c) : c ∉ text.toList :=
    fun member => notInWord (inWord c member)
  refine tidy.cons ⟨?_, WordText.of_standsInWord inWord⟩
    ⟨plain (by decide), plain (by decide)⟩ fun u first => ?_
  · exact fun empty => nonempty (congrArg String.toList empty)
  · rintro ⟨same, -⟩
    exact border u first same.symm

/-! ### Words that are written again

A list of words is written with single blanks, and no word is empty, so the words are the runs
between the blanks.  Each shape of argument ends in one lemma of the form `ReadsFrom`, and that is
all that is known of the shape from there on. -/

/-- A single space between words. -/
def wordGap : Token := token .blanks " " default

theorem phraseRuns_intercalate {runs : List (List Token)}
    (sound : ∀ run ∈ runs, run ≠ [] ∧ ∀ t ∈ run, t.isBlanks = false) :
    phraseRuns ([wordGap].intercalate runs) = runs := by
  induction runs with
  | nil => rfl
  | cons run runs ih =>
    obtain ⟨⟨nonempty, noBlanks⟩, others⟩ := List.forall_mem_cons.mp sound
    cases runs with
    | nil =>
      have single : phraseRuns (run ++ []) = [run] := phraseRuns_append nonempty noBlanks nofun
      rw [List.append_nil] at single
      rwa [List.intercalate_singleton]
    | cons second runs =>
      have gap : wordGap.isBlanks = true := rfl
      rw [List.intercalate_cons_cons, List.append_assoc, List.singleton_append,
        phraseRuns_append nonempty noBlanks (by rintro _ ⟨⟩; exact gap),
        phraseRuns_cons_blanks gap, ih others]

/-- Words with spaces between them are tidy, and begin with the first of them. -/
theorem indented_intercalate {runs : List (List Token)}
    (sound : ∀ run ∈ runs, run ≠ [] ∧ ∀ t ∈ run, t.isBlanks = false)
    (tidy : ∀ run ∈ runs, Tidy run) : Indented [] ([wordGap].intercalate runs) := by
  induction runs with
  | nil => exact .nil
  | cons run runs ih =>
    obtain ⟨⟨nonempty, noBlanks⟩, others⟩ := List.forall_mem_cons.mp sound
    obtain ⟨here, later⟩ := List.forall_mem_cons.mp tidy
    obtain ⟨t, run, rfl⟩ := List.exists_cons_of_ne_nil nonempty
    have border : ∀ u ∈ (t :: run).head?, u.isBlanks = false := by
      rintro _ ⟨⟩
      exact noBlanks t List.mem_cons_self
    cases runs with
    | nil =>
      rw [List.intercalate_singleton]
      exact .of_tidy here border
    | cons second runs =>
      have rest := (ih others later).cons (c := ' ') (by decide) default
      rw [List.intercalate_cons_cons, List.append_assoc, List.singleton_append]
      refine .of_tidy (here.append rest fun last isLast next isNext joins => ?_) border
      cases isNext
      have notBlanks := noBlanks last (List.mem_of_mem_getLast? isLast)
      rw [Token.isBlanks_iff.mpr joins.1] at notBlanks
      cases notBlanks

/-- What is said with a token between the parts. -/
theorem flatMap_intercalate (gap : Token) (runs : List (List Token)) :
    ([gap].intercalate runs).flatMap (fun t => t.value.toList) =
      (String.intercalate gap.value (runs.map tokensText)).toList := by
  rw [String.toList_intercalate, List.map_map]
  induction runs with
  | nil => rfl
  | cons run runs ih =>
    have text : (String.toList ∘ tokensText) run = run.flatMap fun t => t.value.toList :=
      String.toList_ofList
    cases runs with
    | nil => rw [List.intercalate_singleton, List.map_singleton, List.intercalate_singleton, text]
    | cons second runs =>
      rw [List.intercalate_cons_cons, List.flatMap_append, List.flatMap_append, ih, ← text,
        List.flatMap_singleton]
      simp only [List.map_cons, List.intercalate_cons_cons]

namespace Operand

/-- The words of an argument that does not begin with blanks. -/
theorem words_eq_ok_iff {o : Operand} (border : ∀ t ∈ o.window.tokens.head?, t.isBlanks = false)
    {words : List String} :
    o.words = .ok words ↔ phraseRuns o.window.tokens ≠ [] ∧
      words = (phraseRuns o.window.tokens).map tokensText := by
  have front : ¬ o.window.tokens.head?.any Token.isBlanks = true := by
    intro begins
    obtain ⟨t, first, isBlanks⟩ := (Option.any_eq_true _ _).mp begins
    exact absurd isBlanks (Bool.eq_false_iff.mp (border t first))
  have value {w : Window} (required : o.required = .ok w) :
      wordsOf w.tokens = (phraseRuns o.window.tokens).map tokensText := by
    obtain ⟨first, runs, -⟩ := head?_of_required required
    rw [wordsOf_eq, first, if_neg front, runs]
    rfl
  constructor
  · intro read
    obtain ⟨w, required, same⟩ := bind_eq_ok_iff.mp read
    obtain ⟨-, runs, nonempty⟩ := head?_of_required required
    exact ⟨runs ▸ nonempty, (Except.ok.inj same).symm.trans (value required)⟩
  · rintro ⟨nonempty, rfl⟩
    have required := required_of_ne_nil (o := o) fun none => nonempty (by
      rw [← phraseRuns_rdropWhile, none]
      rfl)
    exact bind_eq_ok_iff.mpr ⟨_, required, congrArg Except.ok (value required)⟩

/-- Whether a **value is read from a text**: the text is that of blanks and of tidy tokens behind
them, from which the reader makes the value whatever the tokens around them are. -/
def ReadsFrom {α : Type} (read : Operand → Except SyntaxError α) (text : List Char) (value : α) :
    Prop :=
  ∃ leading tokens, Indented leading tokens ∧
    (text = leading ++ tokens.flatMap fun t => t.value.toList) ∧
    ∀ name closing, read ⟨name, String.ofList leading, ⟨tokens, closing⟩⟩ = .ok value

theorem ReadsFrom.map {α β : Type} {read : Operand → Except SyntaxError α} {text : List Char}
    {value : α} (reads : ReadsFrom read text value) (make : α → β) :
    ReadsFrom (fun o => make <$> read o) text (make value) := by
  obtain ⟨leading, tokens, indented, said, again⟩ := reads
  refine ⟨leading, tokens, indented, said, fun name closing => ?_⟩
  show make <$> read _ = _
  rw [again]
  rfl

variable {o : Operand}

/-- A pattern is read from itself. -/
theorem verbatim_readsFrom (indented : Indented o.leading.toList o.window.tokens) {text : String}
    (read : o.verbatim = .ok text) : ReadsFrom verbatim text.toList text := by
  unfold verbatim at read
  dsimp only at read
  split at read
  · cases read
  · next present =>
    obtain rfl := Except.ok.inj read
    refine ⟨_, _, indented, ?_, fun name closing => ?_⟩
    · rw [String.toList_append, Window.text, String.toList_ofList]
    · rw [String.ofList_toList]
      exact if_neg present

/-- A string with references is read from its written form. -/
theorem expandable_readsFrom (indented : Indented o.leading.toList o.window.tokens)
    {argument : ExpandableString} (read : o.expandable = .ok argument) :
    ReadsFrom expandable argument.render.toList argument := by
  unfold expandable at read
  split at read
  · cases read
  · next present =>
    have text := ExpandableString.render_of_readOnto
      (fun t member => ⟨_, indented.tidy.holds t member⟩) read
    rw [ExpandableString.render_ofText] at text
    obtain ⟨segments, division, same⟩ := ExpandableString.readOnto_eq_ok_iff.mp read
    refine ⟨o.leading.toList, o.window.tokens, indented, text, fun name closing => ?_⟩
    rw [String.ofList_toList]
    exact (if_neg present).trans
      (ExpandableString.readOnto_eq_ok_iff.mpr ⟨segments, division, same⟩)

/-- A text without the blanks behind it is read from itself. -/
theorem trimmed_readsFrom (indented : Indented o.leading.toList o.window.tokens) {text : String}
    (read : o.trimmed = .ok text) : ReadsFrom trimmed text.toList text := by
  obtain ⟨w, required, same⟩ := bind_eq_ok_iff.mp read
  obtain rfl := Except.ok.inj same
  obtain ⟨cut, nonempty⟩ := required_eq_ok required
  have front : w.tokens <+: o.window.tokens := cut ▸ List.rdropWhile_prefix _ _
  have border : ∀ t ∈ w.tokens.head?, t.isBlanks = false := by
    rw [(head?_of_required required).1]
    exact indented.border
  have again : w.tokens.rdropWhile Token.isBlanks = w.tokens := by
    rw [cut, List.rdropWhile_idempotent]
  refine ⟨[], w.tokens, .of_tidy (indented.tidy.of_infix front.isInfix) border, ?_,
    fun name closing => ?_⟩
  · rw [Window.text, String.toList_ofList, List.nil_append]
  · refine bind_eq_ok_iff.mpr ⟨_, required_of_ne_nil (by rwa [again]), ?_⟩
    show Except.ok (Window.text _) = _
    rw [Window.text, Window.trimEnd_tokens, again]
    rfl

/-- Words are read from a text with single spaces between them. -/
theorem words_readsFrom (indented : Indented o.leading.toList o.window.tokens) {words : List String}
    (read : o.words = .ok words) :
    ReadsFrom Operand.words (String.intercalate " " words).toList words := by
  obtain ⟨nonempty, rfl⟩ := (words_eq_ok_iff indented.border).mp read
  have sound : ∀ run ∈ phraseRuns o.window.tokens, run ≠ [] ∧ ∀ t ∈ run, t.isBlanks = false :=
    fun run member => ⟨(of_mem_phraseRuns member).1, (isInfix_of_mem_phraseRuns member).2⟩
  have joined := indented_intercalate sound fun run member =>
    indented.tidy.of_infix (isInfix_of_mem_phraseRuns member).1
  refine ⟨[], _, joined, ?_, fun name closing => (words_eq_ok_iff joined.border).mpr ?_⟩
  · exact (flatMap_intercalate wordGap _).symm
  · dsimp only
    rw [phraseRuns_intercalate sound]
    exact ⟨nonempty, rfl⟩

/-- Items are read from a text with commas between them.  The items may be of any kind that has a
reader and a written form without commas and blanks. -/
theorem items_readsFrom {α : Type} {write : α → String} {read? : List Char → Option α}
    {values : List α} (filled : values ≠ []) (back : ∀ a ∈ values, read? (write a).toList = some a)
    (inItem : ∀ a ∈ values, ∀ c ∈ (write a).toList, Text.StandsInItem c) (empty : read? [] = none)
    (what : ListItem) :
    ReadsFrom (fun o => o.items what read?) (String.intercalate "," (values.map write)).toList
      values := by
  have characters : ∀ c ∈ (String.intercalate "," (values.map write)).toList,
      c = ',' ∨ Text.StandsInItem c := by
    intro c member
    rw [String.toList_intercalate] at member
    rcases Text.mem_intercalate member with comma | ⟨item, inList, inside⟩
    · exact .inl comma
    · obtain ⟨_, written, rfl⟩ := List.mem_map.mp inList
      obtain ⟨a, inValues, rfl⟩ := List.mem_map.mp written
      exact .inr (inItem a inValues c inside)
  have other {c : Char} (noComma : c ≠ ',') (notInItem : ¬ Text.StandsInItem c) :
      c ∉ (String.intercalate "," (values.map write)).toList :=
    fun member => (characters c member).elim noComma notInItem
  -- Neither a backslash nor a blank nor a line feed stands in an item: nothing is escaped, and
  -- the reader, which cuts at commas and trims, gets the items as they were written.
  obtain ⟨units, writes⟩ := Pattern.exists_writes
    (Pattern.Paired.of_notMem (other (c := '\\') (by decide) (by decide)))
    (other (c := '\n') (by decide) (by decide))
  have tidy : Tidy (bodyTokens (.quoted default) default units) :=
    Tidy.of_units (writes.fits []) writes.solid
  have solid : ∀ t ∈ bodyTokens (.quoted default) default units, t.isBlanks = false := by
    intro t member
    rw [Bool.eq_false_iff]
    intro isBlanks
    obtain ⟨c, inText, blank⟩ :=
      writes.exists_blank default default member (Token.isBlanks_iff.mp isBlanks)
    rcases characters c inText with rfl | inItem
    · exact absurd blank (by decide)
    · exact absurd blank (Bool.eq_false_iff.mp inItem.isBlank)
  have text := writes.values default default
  exact ⟨[], _, .of_tidy tidy fun t first => solid t (List.mem_of_mem_head? first), text.symm,
    fun name closing => items_of_intercalate filled back inItem empty solid text what⟩

end Operand

/-! ### Operators that are written again

The written operator is a sign, a name and a written argument.  An operator without an at sign has
been read as a regular expression, and is written with its name, so there is one way to write it. -/

namespace Operator.Kind

/-- The argument that a reader took is **read again from the written argument.**  The written
argument begins with the one blank that is taken for the separator. -/
theorem readsFrom_renderArgument {o : Operand}
    (indented : Indented o.leading.toList o.window.tokens) {kind : Kind}
    (read : kind.reader o = .ok kind) (takesOne : ∀ what, kind ≠ .detect what) :
    ∃ text, kind.renderArgument.toList = ' ' :: text ∧
      Operand.ReadsFrom kind.reader text kind := by
  have solid : o.window.Solid := fun t member => (indented.tidy.holds t member).1
  have sound : kind.WellFormed := readers_yields kind.reader_mem_readers solid kind read
  have behindSpace (text : String) : (" " ++ text).toList = ' ' :: text.toList :=
    String.toList_append
  -- Texts are read again because they were read once, addresses and ranges because what is
  -- printed for them is read, whatever they were read from.
  cases kind with
  | regex pattern =>
    obtain ⟨text, taken, same⟩ := map_eq_ok_iff.mp read
    cases same
    exact ⟨_, behindSpace pattern, (Operand.verbatim_readsFrom indented taken).map regex⟩
  | compare how argument =>
    obtain ⟨value, taken, same⟩ := map_eq_ok_iff.mp read
    cases same
    exact ⟨_, behindSpace argument.render,
      (Operand.expandable_readsFrom indented taken).map (compare how)⟩
  | phrases words =>
    obtain ⟨values, taken, same⟩ := map_eq_ok_iff.mp read
    cases same
    exact ⟨_, behindSpace _, (Operand.words_readsFrom indented taken).map phrases⟩
  | phraseFiles files =>
    obtain ⟨values, taken, same⟩ := map_eq_ok_iff.mp read
    cases same
    exact ⟨_, behindSpace _, (Operand.words_readsFrom indented taken).map phraseFiles⟩
  | addresses networks =>
    have again := Operand.items_readsFrom sound (fun n _ => Network.read?_render n)
      (fun n _ c member => Network.standsInItem_render member) rfl .address
    exact ⟨_, behindSpace _, again.map addresses⟩
  | addressFile file =>
    obtain ⟨text, taken, same⟩ := map_eq_ok_iff.mp read
    cases same
    exact ⟨_, behindSpace file, (Operand.trimmed_readsFrom indented taken).map addressFile⟩
  | blockList host =>
    obtain ⟨text, taken, same⟩ := map_eq_ok_iff.mp read
    cases same
    exact ⟨_, behindSpace host, (Operand.trimmed_readsFrom indented taken).map blockList⟩
  | byteRanges ranges =>
    have again := Operand.items_readsFrom sound.1
      (fun r member => ByteRange.read?_render (sound.2 r member))
      (fun r _ c member => ByteRange.standsInItem_render member) rfl .byteRange
    exact ⟨_, behindSpace _, again.map byteRanges⟩
  | detect what => exact absurd rfl (takesOne what)

/-- Tokens of the written argument, from which it is read behind any name. -/
theorem exists_argument {o : Operand} (indented : Indented o.leading.toList o.window.tokens)
    {kind : Kind} (read : kind.reader o = .ok kind) :
    ∃ rest, Tidy rest ∧ (∀ t ∈ rest.head?, t.isBlanks = true) ∧
      (rest.flatMap fun t => t.value.toList) = kind.renderArgument.toList ∧
      ∀ name closing, ∃ o, Operand.ofWindow name ⟨rest, closing⟩ = .ok o ∧
        kind.reader o = .ok kind := by
  by_cases takesOne : ∀ what, kind ≠ .detect what
  · obtain ⟨text, written, leading, tokens, argument, said, again⟩ :=
      readsFrom_renderArgument indented read takesOne
    refine ⟨token .blanks (String.ofList (' ' :: leading)) default :: tokens,
      argument.cons (by decide) default, ?_, ?_, fun name closing => ⟨_, ?_, again name closing⟩⟩
    · rintro _ ⟨⟩
      rfl
    · rw [List.flatMap_cons, written, said]
      exact congrArg (· ++ _) String.toList_ofList
    · refine Operand.ofWindow_eq_ok_iff.mpr (.inr ⟨_, _, rfl, rfl, ?_⟩)
      have characters : (token .blanks (String.ofList (' ' :: leading)) default).value.toList =
          ' ' :: leading := String.toList_ofList
      rw [characters]
      rfl
  · simp only [not_forall, not_not] at takesOne
    obtain ⟨what, rfl⟩ := takesOne
    exact ⟨[], .nil, nofun, rfl, fun name closing =>
      ⟨_, Operand.ofWindow_eq_ok_iff.mpr (.inl ⟨rfl, rfl⟩), rfl⟩⟩

/-- Tokens of the operator with its at sign, from which it is read. -/
theorem exists_unsigned {o : Operand} (indented : Indented o.leading.toList o.window.tokens)
    {kind : Kind} (read : kind.reader o = .ok kind) :
    ∃ mark rest, mark.kind = .punct .atSign ∧ Tidy (mark :: rest) ∧
      ((mark :: rest).flatMap fun t => t.value.toList) =
        '@' :: (kind.name.toList ++ kind.renderArgument.toList) ∧
      ∀ closing, Kind.readUnsigned ⟨mark :: rest, closing⟩ = .ok kind := by
  obtain ⟨rest, tidy, border, said, again⟩ := exists_argument indented read
  obtain ⟨nonempty, inWord⟩ := kind.name_standsInWord
  have named : Tidy (token .word kind.name default :: rest) := by
    refine tidy.cons_word nonempty inWord (fun u first isWord => ?_) default
    rw [Token.isBlanks_iff.mp (border u first)] at isWord
    cases isWord
  refine ⟨_, _, rfl, named.cons_mark .atSign default, ?_, fun closing => ?_⟩
  · rw [List.flatMap_cons, List.flatMap_cons, said]
    rfl
  · obtain ⟨o, operand, taken⟩ := again (token .word kind.name default) closing
    exact read_eq_ok_iff.mpr ⟨_, _, o, kind.reader, rfl, rfl, operand, kind.lookup?_name, taken⟩

/-- The argument of an operator among tidy tokens: behind its name, or the whole of an implicit
pattern. -/
theorem exists_indented {w : Window} (tidy : Tidy w.tokens) {kind : Kind}
    (read : Kind.readUnsigned w = .ok kind) (nonempty : kind ≠ .regex "") :
    ∃ o : Operand, Indented o.leading.toList o.window.tokens ∧ kind.reader o = .ok kind := by
  unfold readUnsigned at read
  split at read
  · next starts =>
    obtain ⟨mark, others, tokens, -⟩ := Window.tokens_of_startsWith starts
    obtain ⟨name, rest, o, reader, behind, -, operand, found, taken⟩ := read_eq_ok_iff.mp read
    rw [Window.drop_tokens, tokens] at behind
    obtain rfl : others = name :: rest := behind
    obtain ⟨spelling, listed⟩ := Text.exists_mem_of_lookup? found
    obtain rfl := readers_reader listed o kind taken
    refine ⟨o, ?_, taken⟩
    rw [tokens] at tidy
    rcases Operand.ofWindow_eq_ok_iff.mp operand with
      ⟨none, rfl⟩ | ⟨blanks, argument, split, isBlanks, rfl⟩
    · obtain rfl : rest = [] := none
      exact .nil
    · obtain rfl : rest = blanks :: argument := split
      have indented := tidy.tail.tail.indented isBlanks
      refine ⟨fun c member => ?_, indented.tidy, indented.border⟩
      rw [String.toList_ofList] at member
      exact indented.blanks c (List.mem_of_mem_drop member)
  · obtain rfl := Except.ok.inj read
    -- blanks in front of an implicit pattern belong to it, like those behind the one that separates
    obtain ⟨leading, rest, indented, said⟩ := tidy.exists_indented
    have whole : String.ofList leading ++ Window.text ⟨rest, w.closing⟩ = w.text := by
      rw [Window.text, Window.text, said, ← String.ofList_append]
    have present : w.text ≠ "" := fun empty => nonempty (congrArg regex empty)
    refine ⟨⟨w.closing, String.ofList leading, ⟨rest, w.closing⟩⟩, ?_, ?_⟩
    · rwa [String.toList_ofList]
    · refine map_eq_ok_iff.mpr ⟨w.text, ?_, rfl⟩
      unfold Operand.verbatim
      dsimp only
      rw [whole, if_neg (mt String.isEmpty_iff.mp present)]

end Operator.Kind

namespace Operator

/-- Tokens of the **written form** of an operator, from which it is read. -/
theorem exists_tokens {w : Window} (tidy : Tidy w.tokens) {o : Operator}
    (read : Operator.read w = .ok o) (nonempty : o.kind ≠ .regex "") :
    ∃ tokens, Tidy tokens ∧ (tokens.flatMap fun t => t.value.toList) = o.render.toList ∧
      ∀ closing, ∃ p, Operator.read ⟨tokens, closing⟩ = .ok ⟨o.kind, o.negated, p⟩ := by
  have tidyRest : Tidy (if w.startsWith (.punct .exclamation) then w.drop 1 else w).tokens := by
    split
    · exact tidy.of_infix (List.drop_suffix 1 w.tokens).isInfix
    · exact tidy
  obtain ⟨operand, indented, taken⟩ :=
    Kind.exists_indented tidyRest (readUnsigned_of_read read) nonempty
  obtain ⟨mark, rest, isMark, unsigned, said, again⟩ := Kind.exists_unsigned indented taken
  obtain ⟨kind, negated, position⟩ := o
  dsimp only at nonempty taken said again ⊢
  cases negated with
  | false =>
    refine ⟨mark :: rest, unsigned, ?_, fun closing => ⟨_, read_unsigned ?_ (again closing)⟩⟩
    · rw [said]
      simp [render]
    · simp [Window.startsWith, Token.isKind, isMark]
  | true =>
    refine ⟨_, unsigned.cons_mark .exclamation default, ?_,
      fun closing => ⟨_, read_negated rfl (again closing)⟩⟩
    rw [List.flatMap_cons, said]
    simp [render, token, Punct.char]

/-- An operator is read from tokens whatever their places are. -/
theorem read_of_lexemes {tokens tokens' : List Token}
    (same : tokens'.map Token.toLexeme = tokens.map Token.toLexeme) {kind : Kind} {negated : Bool}
    (read : ∀ closing, ∃ p, Operator.read ⟨tokens, closing⟩ = .ok ⟨kind, negated, p⟩)
    (closing : Token) :
    Operator.read ⟨tokens', closing⟩ =
      .ok ⟨kind, negated, Window.position ⟨tokens', closing⟩⟩ := by
  -- moved to one and the same place, the windows are the same
  have alike : relocate Position.forget (Window.mk tokens' closing) =
      relocate Position.forget (Window.mk tokens closing) :=
    congrArg (Window.mk · _) (relocate_forget_congr same)
  obtain ⟨p, read⟩ := read closing
  have moved := congrArg Operator.read alike
  rw [read_relocate, read_relocate, read] at moved
  rw [read_eq] at moved ⊢
  cases unsigned : Kind.readUnsigned _ with
  | error e =>
    rw [unsigned] at moved
    cases moved
  | ok kind' =>
    rw [unsigned] at moved
    obtain ⟨rfl, rfl, -⟩ := Operator.mk.inj (Except.ok.inj moved)
    rfl

/-- **Operators are read again from their written form.**  That holds of an operator in a rule, and
of the written form anywhere in quotes.  The empty pattern is left out: its written form has the
name of the operator without an argument. -/
theorem read_render {source : List Char} {body : List Token} {stop : Token}
    (argument : QuotedArgument source body stop)
    (plain : ∀ ending, ¬ Grammar.continuation ending <:+: source) {o : Operator}
    (read : Operator.read ⟨body, stop⟩ = .ok o) (nonempty : o.kind ≠ .regex "") :
    (∀ label, Document.parse label (Pattern.ruleText (Pattern.escaped o.render.toList)) =
      .ok (Pattern.ruleDocument label o.kind o.negated)) ∧
    ∀ body' stop', QuotedArgument (Pattern.escaped o.render.toList) body' stop' →
      ∃ o', Operator.read ⟨body', stop'⟩ = .ok o' ∧ o'.kind = o.kind ∧ o'.negated = o.negated := by
  obtain ⟨tokens, tidy, said, again⟩ := exists_tokens (argument.tidy plain) read nonempty
  obtain ⟨units, writes⟩ := tidy.exists_writes
  rw [← said]
  constructor
  · intro label
    refine writes.parse_ruleText label fun opened p closing => ?_
    have present : (tokens.flatMap fun t => t.value.toList) ≠ [] := by
      rw [said]
      simp [render]
    rw [read_of_lexemes (tidy.lexemes_of_writes writes opened p) again,
      writes.position present opened p closing]
  · intro body' stop' argument'
    exact ⟨_, read_of_lexemes (tidy.lexemes_of_argument argument') again stop', rfl, rfl⟩

/-- Files of words by the shorter name of the operator, with more blanks than one and a double quote
in a name. -/
theorem read_render_phraseFiles :
    ∃ body stop body' stop',
      let o : Operator := ⟨.phraseFiles ["a", "b\x22c"], true, ⟨none, 1, 15⟩⟩
      QuotedArgument "!@pmf  a \t b\\\x22c".toList body stop ∧
      (∀ ending, ¬ Grammar.continuation ending <:+: "!@pmf  a \t b\\\x22c".toList) ∧
      Operator.read ⟨body, stop⟩ = .ok o ∧ o.kind ≠ .regex "" ∧
      o.render = "!@pmFromFile a b\x22c" ∧
      Document.parse "" "SecRule ARGS \x22!@pmFromFile a b\\\x22c\x22" =
        .ok (Pattern.ruleDocument "" o.kind true) ∧
      QuotedArgument (Pattern.escaped o.render.toList) body' stop' ∧
      ∃ o', Operator.read ⟨body', stop'⟩ = .ok o' ∧ o'.kind = o.kind ∧ o'.negated = true := by
  let before : List Token :=
    [token .directive "SecRule" ⟨none, 1, 1⟩, token .argumentStart "" ⟨none, 1, 9⟩,
      token .word "ARGS" ⟨none, 1, 9⟩, token .argumentStop "" ⟨none, 1, 13⟩]
  let start : Token := token .argumentStart "\x22" ⟨none, 1, 14⟩
  let sign : List Token :=
    [token (.punct .exclamation) "!" ⟨none, 1, 15⟩, token (.punct .atSign) "@" ⟨none, 1, 16⟩]
  let body : List Token := sign ++
    [token .word "pmf" ⟨none, 1, 17⟩, token .blanks "  " ⟨none, 1, 20⟩,
      token .word "a" ⟨none, 1, 22⟩, token .blanks " \t " ⟨none, 1, 23⟩,
      token .word "b\x22c" ⟨none, 1, 26⟩]
  let stop : Token := token .argumentStop "\x22" ⟨none, 1, 30⟩
  let body' : List Token := sign ++
    [token .word "pmFromFile" ⟨none, 1, 17⟩, token .blanks " " ⟨none, 1, 27⟩,
      token .word "a" ⟨none, 1, 28⟩, token .blanks " " ⟨none, 1, 29⟩,
      token .word "b\x22c" ⟨none, 1, 30⟩]
  let stop' : Token := token .argumentStop "\x22" ⟨none, 1, 34⟩
  have tokenized : tokenize "" "SecRule ARGS \x22!@pmf  a \t b\\\x22c\x22" =
      .ok (before ++ start :: (body ++ stop :: [token .endOfInput "" ⟨none, 1, 31⟩])) := by
    decide +kernel
  have tokenized' : tokenize "" "SecRule ARGS \x22!@pmFromFile a b\\\x22c\x22" =
      .ok (before ++ start :: (body' ++ stop' :: [token .endOfInput "" ⟨none, 1, 35⟩])) := by
    decide +kernel
  have written : "SecRule ARGS \x22!@pmf  a \t b\\\x22c\x22".toList =
      "SecRule ARGS ".toList ++ '\x22' :: ("!@pmf  a \t b\\\x22c".toList ++ ['\x22']) := by
    decide
  have written' : "SecRule ARGS \x22!@pmFromFile a b\\\x22c\x22".toList =
      "SecRule ARGS ".toList ++ '\x22' :: ("!@pmFromFile a b\\\x22c".toList ++ ['\x22']) := by
    decide
  have argument : QuotedArgument "!@pmf  a \t b\\\x22c".toList body stop :=
    .intro tokenized rfl rfl (by decide) rfl written (by decide) (by decide)
  have argument' : QuotedArgument "!@pmFromFile a b\\\x22c".toList body' stop' :=
    .intro tokenized' rfl rfl (by decide) rfl written' (by decide) (by decide)
  have plain : ∀ ending, ¬ Grammar.continuation ending <:+: "!@pmf  a \t b\\\x22c".toList := by
    intro ending
    cases ending <;> decide
  have read : Operator.read ⟨body, stop⟩ =
      .ok ⟨.phraseFiles ["a", "b\x22c"], true, ⟨none, 1, 15⟩⟩ := by
    decide +kernel
  obtain ⟨parsed, again⟩ := read_render argument plain read (by decide)
  exact ⟨body, stop, body', stop', argument, plain, read, by decide, by decide, parsed "",
    argument', again body' stop' argument'⟩

end Operator

end WafRules
