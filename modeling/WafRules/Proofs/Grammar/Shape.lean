import Mathlib.Computability.Language
import Mathlib.Data.List.Chain
import WafRules.Proofs.Grammar.Faithful

/-!
# The shape of token streams

The readers index into stretches of tokens and rely on what may stand there: marks come in pairs,
no token but a mark is empty, and two words never meet, because they would have been one.  The
order of the kinds is a regular language, and it is that of any entries whatever.  The rest is a
matter of the text: which characters a token is made of, and where the words of an argument are
cut.

## Main Definitions

* `Token.Kind.ofStream` — the kinds of the tokens of a text, as a language.
* `WordText` — the texts of words.
* `Apart` — kinds of which no two of one stand side by side.
* `Style.Holds` — the tokens that may stand in an argument.
* `Style.Writes` — the arguments that are written in a style.
* `StreamShape` — what the tokens of a text look like.

## Main Statements

* `kinds_entryTokens_mem` — entries give tokens in the order of the language.
* `Grammar.bodyTokens_hold` — the tokens of an argument are such as may stand there.
* `Grammar.bodyTokens_apart` — no two words of an argument stand side by side, nor two runs of
  blanks that no continuation cuts.
* `tokenize_shape` — all of this for the tokens of a text.
-/

namespace WafRules

open scoped Computability

/-! ### The order of the kinds

The language of kinds is given by a regular expression, and each part of an entry is a word of the
part of the expression that is named for it. -/

namespace Token.Kind

/-- The kinds of single tokens inside arguments. -/
def ofBody : Language Kind := {kinds | ∃ kind : Kind, kinds = [kind] ∧ kind.IsBody}

/-- The kinds of the tokens of an argument. -/
def ofArgument : Language Kind := {[argumentStart]} * ofBody∗ * {[argumentStop]}

/-- The kinds of the tokens of a comment, which may have no text. -/
def ofComment : Language Kind := {[commentStart]} * ({[comment]} + 1)

/-- The kinds of the tokens of a directive. -/
def ofDirective : Language Kind := {[directive]} * ofArgument∗

/-- The kinds of the tokens of a text. -/
def ofStream : Language Kind := (ofComment + ofDirective)∗ * {[endOfInput]}

end Token.Kind

open Token.Kind (ofBody ofArgument ofComment ofDirective ofStream)

/-- The kinds of tokens in order. -/
def tokenKinds (tokens : List Token) : List Token.Kind := tokens.map fun t => t.kind

@[simp]
theorem tokenKinds_nil : tokenKinds [] = [] := rfl

@[simp]
theorem tokenKinds_cons (t : Token) (tokens : List Token) :
    tokenKinds (t :: tokens) = t.kind :: tokenKinds tokens := rfl

@[simp]
theorem tokenKinds_append (first second : List Token) :
    tokenKinds (first ++ second) = tokenKinds first ++ tokenKinds second := List.map_append

/-- Stretches of tokens whose kinds are in a language, one after the other. -/
theorem kinds_flatMap_mem {α : Type} {toList : α → List Token} {language : Language Token.Kind}
    {parts : List α} (kinds : ∀ part ∈ parts, tokenKinds (toList part) ∈ language) :
    tokenKinds (parts.flatMap toList) ∈ language∗ := by
  have flat : tokenKinds (parts.flatMap toList) =
      (parts.map fun part => tokenKinds (toList part)).flatten := by
    rw [tokenKinds, List.map_flatMap, List.flatMap_def]
    rfl
  rw [flat]
  apply Language.join_mem_kstar
  intro word member
  obtain ⟨part, listed, rfl⟩ := List.mem_map.mp member
  exact kinds part listed

/-- The kinds of an **argument**: two marks with what they enclose. -/
theorem ArgumentTokens.kinds_mem (a : ArgumentTokens) : tokenKinds a.toList ∈ ofArgument := by
  have single : ∀ t ∈ a.body, tokenKinds [t] ∈ ofBody :=
    fun t member => ⟨t.kind, rfl, a.body_kind t member⟩
  have body := kinds_flatMap_mem single
  rw [List.flatMap_singleton'] at body
  have whole : tokenKinds a.toList =
      [Token.Kind.argumentStart] ++ tokenKinds a.body ++ [.argumentStop] := by
    simp [ArgumentTokens.toList, a.start_kind, a.stop_kind]
  rw [whole]
  exact Language.append_mem_mul (Language.append_mem_mul rfl body) rfl

/-- The kinds of a **comment**: the mark, and its text if it has one. -/
theorem CommentTokens.kinds_mem (c : CommentTokens) : tokenKinds c.toList ∈ ofComment := by
  obtain ⟨mark, text, markKind, textKind⟩ := c
  show mark.kind :: tokenKinds text.toList ∈ ofComment
  rw [markKind]
  cases text with
  | none =>
    show [Token.Kind.commentStart] ++ [] ∈ ofComment
    exact Language.append_mem_mul rfl ((Language.mem_add _ _ _).mpr (.inr rfl))
  | some text =>
    show [Token.Kind.commentStart] ++ [text.kind] ∈ ofComment
    rw [textKind text rfl]
    exact Language.append_mem_mul rfl ((Language.mem_add _ _ _).mpr (.inl rfl))

/-- The kinds of a **directive**: the name and its arguments. -/
theorem DirectiveTokens.kinds_mem (d : DirectiveTokens) : tokenKinds d.toList ∈ ofDirective := by
  have arguments : tokenKinds (d.arguments.flatMap ArgumentTokens.toList) ∈ ofArgument∗ :=
    kinds_flatMap_mem fun a _ => a.kinds_mem
  rw [DirectiveTokens.toList, tokenKinds_cons, d.name_kind, ← List.singleton_append]
  exact Language.append_mem_mul rfl arguments

/-- The **kinds of the tokens of entries**, and the end mark. -/
theorem kinds_entryTokens_mem (entries : List EntryTokens) {last : Token}
    (ending : last.kind = .endOfInput) :
    tokenKinds (entryTokens entries ++ [last]) ∈ ofStream := by
  have lines : tokenKinds (entryTokens entries) ∈ (ofComment + ofDirective)∗ := by
    apply kinds_flatMap_mem
    intro entry _
    cases entry with
    | comment c => exact .inl c.kinds_mem
    | directive d => exact .inr d.kinds_mem
  rw [tokenKinds_append, tokenKinds_cons, tokenKinds_nil, ending]
  exact Language.append_mem_mul lines rfl

/-! ### What tokens are made of

The invariant of reading an argument unit by unit is that what is complete and what is pending may
stand in the argument.  Text that is pending is never empty, so no empty token is ever completed. -/

/-- Whether a text is that of a word.  It is read from the left: a backslash makes a pair with the
character behind it, whatever that is, and outside pairs there are neither blanks nor
punctuation. -/
inductive WordText : List Char → Prop
  | nil : WordText []
  | pair (c : Char) {text : List Char} (rest : WordText text) : WordText ('\\' :: c :: text)
  | char {c : Char} {text : List Char} (notBackslash : c ≠ '\\')
      (notBlank : Text.isBlank c = false) (notPunct : Punct.ofChar? c = none)
      (rest : WordText text) : WordText (c :: text)

/-- A word may be longer by the text of another one. -/
theorem WordText.append {first second : List Char} (front : WordText first)
    (back : WordText second) : WordText (first ++ second) := by
  induction front with
  | nil => exact back
  | pair c rest ih => exact .pair c ih
  | char notBackslash notBlank notPunct rest ih => exact .char notBackslash notBlank notPunct ih

namespace Grammar

open Lexer (Run Quoting token)

/-- Whether a token may stand in an argument: a word, a punctuation character, or in quotes a run of
blanks. -/
def Style.Holds (style : Style) (t : Token) : Prop :=
  t.value ≠ "" ∧
    match t.kind with
    | .word => WordText t.value.toList
    | .blanks => style = .quoted ∧ ∀ c ∈ t.value.toList, Text.isBlank c = true
    | .punct punct => t.value.toList = [punct.char]
    | _ => False

/-- A text that says something is that of a word. -/
theorem holds_word {style : Style} {text : String} {p : Position} (nonempty : text ≠ "")
    (word : WordText text.toList) : style.Holds (token .word text p) := ⟨nonempty, word⟩

/-- What a **pair stands for** is the text of a word, also where its backslash is dropped. -/
theorem wordText_escapedText (quoting : Quoting) (c : Char) :
    WordText (Lexer.escapedText quoting c).toList := by
  rw [escapedText_toList]
  unfold Atom.text
  dsimp only
  split
  · exact .char (by decide) (by decide) (by decide) .nil
  · exact .pair c .nil

/-- A pair always stands for **something**. -/
theorem escapedText_ne_empty (quoting : Quoting) (c : Char) :
    Lexer.escapedText quoting c ≠ "" := by
  intro empty
  have characters := escapedText_toList quoting c
  rw [empty] at characters
  unfold Atom.text at characters
  dsimp only at characters
  split at characters <;> cases characters

/-- More text of a word leaves words behind. -/
theorem Pending.extend_hold {style : Style} {pending : Pending} {text : String} (p : Position)
    (held : ∀ t ∈ pending.tokens, style.Holds t) (nonempty : text ≠ "")
    (word : WordText text.toList) :
    ∀ t ∈ (pending.extend p text).1 ++ (pending.extend p text).2.tokens, style.Holds t := by
  cases pending with
  | nothing =>
    intro t member
    rw [List.mem_singleton.mp member]
    exact holds_word nonempty word
  | word run =>
    intro t member
    obtain ⟨-, begun⟩ := held _ (List.mem_singleton_self _)
    rw [List.mem_singleton.mp member]
    refine holds_word (fun empty => nonempty (String.append_eq_empty_iff.mp empty).2) ?_
    rw [String.toList_append]
    exact WordText.append begun word
  | blanks run =>
    intro t member
    rcases List.mem_append.mp member with before | last
    · exact held t before
    · rw [List.mem_singleton.mp last]
      exact holds_word nonempty word

/-- A blank in quotes leaves runs of blanks behind. -/
theorem Pending.pushBlank_hold {pending : Pending} {c : Char} (p : Position)
    (held : ∀ t ∈ pending.tokens, Style.quoted.Holds t) (blank : Text.isBlank c = true) :
    ∀ t ∈ (pending.pushBlank p c).1 ++ (pending.pushBlank p c).2.tokens,
      Style.quoted.Holds t := by
  have single : Style.quoted.Holds (token .blanks c.toString p) := by
    refine ⟨by simp [token], rfl, ?_⟩
    intro d member
    obtain rfl : d = c := by simpa [token] using member
    exact blank
  cases pending with
  | nothing =>
    intro t member
    rw [List.mem_singleton.mp member]
    exact single
  | word run =>
    intro t member
    rcases List.mem_append.mp member with before | last
    · exact held t before
    · rw [List.mem_singleton.mp last]
      exact single
  | blanks run =>
    intro t member
    obtain ⟨-, -, blanks⟩ := held _ (List.mem_singleton_self _)
    rw [List.mem_singleton.mp member]
    refine ⟨by simp [token, Run.push], rfl, ?_⟩
    intro d inRun
    have found : d ∈ run.text.toList ∨ d = c := by simpa [token, Run.push] using inRun
    rcases found with before | rfl
    · exact blanks d before
    · exact blank

/-- One **unit of an argument** leaves tokens behind that may stand there.  What is complete may
stand there, and so may what is pending, were it completed at once. -/
theorem Atom.read_hold {quoting : Quoting} {pending : Pending} {atom : Atom} {after : List Char}
    (p : Position) (held : ∀ t ∈ pending.tokens, (styleOf quoting).Holds t)
    (fits : atom.Fits (styleOf quoting) after) :
    ∀ t ∈ (atom.read quoting p pending).1 ++ (atom.read quoting p pending).2.tokens,
      (styleOf quoting).Holds t := by
  cases atom with
  | char c =>
    have admitted : (styleOf quoting).Admits c := fits
    unfold Atom.read
    dsimp only
    split
    · next blank =>
      -- blanks stand for themselves in quotes only
      cases quoting with
      | bare => exact absurd blank (by rw [admitted.1]; exact Bool.false_ne_true)
      | quoted opened => exact Pending.pushBlank_hold p held blank
    · next notBlank =>
      cases found : Punct.ofChar? c with
      | none =>
        have notBackslash : c ≠ '\\' := by
          cases quoting with
          | bare => exact admitted.2.2
          | quoted opened => exact admitted.2.1
        refine Pending.extend_hold p held (by simp) ?_
        rw [show c.toString.toList = [c] by simp]
        exact .char notBackslash (Bool.eq_false_iff.mpr notBlank) found .nil
      | some punct =>
        obtain rfl := Punct.ofChar?_eq_some_iff.mp found
        refine List.forall_mem_append.mpr ⟨List.forall_mem_append.mpr ⟨held, ?_⟩, ?_⟩
        · intro t member
          rw [List.mem_singleton.mp member]
          exact ⟨by simp [token], by simp [token]⟩
        · intro t member
          cases member
  | pair c =>
    exact Pending.extend_hold p held (escapedText_ne_empty quoting c)
      (wordText_escapedText quoting c)
  | continuation ending =>
    cases pending with
    | nothing | word run => exact held
    | blanks run =>
      rw [Atom.read, Pending.interrupt, Pending.tokens, List.append_nil]
      exact held

/-- Several **units one after the other.** -/
theorem readBody_hold {quoting : Quoting} {pending : Pending} {body : List Atom}
    {after : List Char} (p : Position) (held : ∀ t ∈ pending.tokens, (styleOf quoting).Holds t)
    (fits : BodyFits (styleOf quoting) after body) :
    ∀ t ∈ (readBody quoting p pending body).1 ++ (readBody quoting p pending body).2.tokens,
      (styleOf quoting).Holds t := by
  induction body generalizing p pending with
  | nil => exact held
  | cons atom body ih =>
    obtain ⟨atomFits, bodyFits⟩ := fits
    obtain ⟨complete, heldNext⟩ := List.forall_mem_append.mp (Atom.read_hold p held atomFits)
    rw [readBody_cons, List.append_assoc]
    exact List.forall_mem_append.mpr ⟨complete, ih _ heldNext bodyFits⟩

/-- The token of a comment's text is not empty. -/
theorem commentToken?_value_ne_empty {p : Position} {text : List Char} {t : Token}
    (found : commentToken? p text = some t) : t.value ≠ "" := by
  unfold commentToken? at found
  split at found
  · cases found
  · next nonempty =>
    obtain rfl := Option.some.inj found
    intro empty
    exact nonempty (String.ofList_eq_empty_iff.mp empty)

/-- The **tokens of an argument** are such as may stand there. -/
theorem bodyTokens_hold {quoting : Quoting} {body : List Atom} {after : List Char} (p : Position)
    (fits : BodyFits (styleOf quoting) after body) :
    ∀ t ∈ bodyTokens quoting p body, (styleOf quoting).Holds t := by
  refine readBody_hold p ?_ fits
  intro t member
  cases member

end Grammar

/-! ### Where words are cut

That two tokens of a kind are apart is kept by every unit as well, but for that more has to be
known: what is pending is the last token so far, and when nothing is pending the last token is of
another kind. -/

/-- Whether no two of a kind stand side by side. -/
def Apart (kind : Token.Kind) (kinds : List Token.Kind) : Prop :=
  kinds.IsChain fun first second => ¬ (first = kind ∧ second = kind)

/-- Kinds in two stretches that do not meet in the given one. -/
theorem Apart.append {kind : Token.Kind} {first second : List Token.Kind}
    (front : Apart kind first) (back : Apart kind second)
    (joint : first.getLast? ≠ some kind ∨ second.head? ≠ some kind) :
    Apart kind (first ++ second) := by
  refine List.isChain_append.mpr ⟨front, back, ?_⟩
  rintro last isLast next isNext ⟨rfl, rfl⟩
  rcases joint with notLast | notNext
  · exact notLast isLast
  · exact notNext isNext

/-- One more kind behind others. -/
theorem Apart.concat {kind : Token.Kind} {kinds : List Token.Kind} (front : Apart kind kinds)
    (last : Token.Kind) (joint : kinds.getLast? ≠ some kind ∨ last ≠ kind) :
    Apart kind (kinds ++ [last]) :=
  front.append (.singleton last) (joint.imp_right fun other same => other (Option.some.inj same))

/-- One more kind in front of others. -/
theorem Apart.cons {kind : Token.Kind} {kinds : List Token.Kind} (back : Apart kind kinds)
    (first : Token.Kind) (joint : first ≠ kind ∨ kinds.head? ≠ some kind) :
    Apart kind (first :: kinds) := by
  have front : Apart kind [first] := .singleton first
  exact front.append back (joint.imp_left fun other same => other (Option.some.inj same))

/-- Of two kinds that differ one is not the given one, so two such tokens may meet. -/
theorem ne_or_ne_of_ne (kind : Token.Kind) {first second : Token.Kind} (differ : first ≠ second) :
    first ≠ kind ∨ second ≠ kind := by
  by_cases same : first = kind
  · exact .inr fun same' => differ (same.trans same'.symm)
  · exact .inl same

namespace Grammar

open Lexer (Run Quoting token)

variable {kind : Token.Kind} {kinds : List Token.Kind} {pending : Pending}

/-- Whether text may be pending behind tokens of given kinds if those of one kind are to stay
apart.  When nothing is pending, a token of that kind may begin, so none may stand last. -/
structure Pending.Keeps (kind : Token.Kind) (kinds : List Token.Kind) (pending : Pending) :
    Prop where
  apart : Apart kind (kinds ++ tokenKinds pending.tokens)
  notLast : pending = .nothing → kinds.getLast? ≠ some kind

/-- More text of a word, which may begin one behind blanks but never behind a word. -/
theorem Pending.Keeps.extend (keeps : pending.Keeps kind kinds) (p : Position) (text : String) :
    (pending.extend p text).2.Keeps kind (kinds ++ tokenKinds (pending.extend p text).1) := by
  obtain ⟨apart, notLast⟩ := keeps
  refine ⟨?_, by cases pending <;> simp [Pending.extend]⟩
  cases pending with
  | nothing =>
    have front : Apart kind kinds := by simpa [Pending.tokens] using apart
    have longer := front.concat .word (.inl (notLast rfl))
    simpa [Pending.extend, Pending.tokens, Lexer.wordTokens, token] using longer
  | word run =>
    simpa [Pending.extend, Pending.tokens, Lexer.wordTokens, token] using apart
  | blanks run =>
    have differ := ne_or_ne_of_ne kind (by decide : Token.Kind.blanks ≠ .word)
    have longer := apart.concat .word
      (differ.imp_left fun other => by simpa [Pending.tokens, Lexer.blankTokens, token] using other)
    simpa [Pending.extend, Pending.tokens, Lexer.wordTokens, Lexer.blankTokens, token] using longer

/-- One more blank, which may begin a run of them behind a word but never behind a run. -/
theorem Pending.Keeps.pushBlank (keeps : pending.Keeps kind kinds) (p : Position) (c : Char) :
    (pending.pushBlank p c).2.Keeps kind (kinds ++ tokenKinds (pending.pushBlank p c).1) := by
  obtain ⟨apart, notLast⟩ := keeps
  refine ⟨?_, by cases pending <;> simp [Pending.pushBlank]⟩
  cases pending with
  | nothing =>
    have front : Apart kind kinds := by simpa [Pending.tokens] using apart
    have longer := front.concat .blanks (.inl (notLast rfl))
    simpa [Pending.pushBlank, Pending.tokens, Lexer.blankTokens, token] using longer
  | word run =>
    have differ := ne_or_ne_of_ne kind (by decide : Token.Kind.word ≠ .blanks)
    have longer := apart.concat .blanks
      (differ.imp_left fun other => by simpa [Pending.tokens, Lexer.wordTokens, token] using other)
    simpa [Pending.pushBlank, Pending.tokens, Lexer.wordTokens, Lexer.blankTokens, token]
      using longer
  | blanks run =>
    simpa [Pending.pushBlank, Pending.tokens, Lexer.blankTokens, token] using apart

/-- A continuation.  It is the one thing that can cut a run of blanks in two. -/
theorem Pending.Keeps.interrupt (keeps : pending.Keeps kind kinds) (notBlanks : kind ≠ .blanks) :
    pending.interrupt.2.Keeps kind (kinds ++ tokenKinds pending.interrupt.1) := by
  cases pending with
  | nothing | word run => simpa [Pending.interrupt] using keeps
  | blanks run =>
    refine ⟨?_, ?_⟩
    · simpa [Pending.interrupt, Pending.tokens] using keeps.apart
    · simpa [Pending.interrupt, Lexer.blankTokens, token] using notBlanks.symm

/-- One **unit of an argument** brings no two tokens of a kind together, unless it is a continuation
and the kind is that of blanks.  Punctuation is left out: two commas do stand side by side. -/
theorem Atom.read_keeps (notPunct : ∀ punct, kind ≠ .punct punct) (quoting : Quoting) (p : Position)
    (keeps : pending.Keeps kind kinds) {atom : Atom}
    (uncut : kind = .blanks → ∀ ending, atom ≠ .continuation ending) :
    (atom.read quoting p pending).2.Keeps kind
      (kinds ++ tokenKinds (atom.read quoting p pending).1) := by
  cases atom with
  | char c =>
    unfold Atom.read
    dsimp only
    split
    · exact keeps.pushBlank p c
    · cases found : Punct.ofChar? c with
      | none => exact keeps.extend p c.toString
      | some punct =>
        have other : Token.Kind.punct punct ≠ kind := (notPunct punct).symm
        refine ⟨?_, by simpa [token] using other⟩
        simpa [Pending.tokens, token] using keeps.apart.concat _ (.inr other)
  | pair c => exact keeps.extend p _
  | continuation ending => exact keeps.interrupt fun blanks => uncut blanks ending rfl

/-- Several **units one after the other.**  By induction on the units. -/
theorem readBody_keeps (notPunct : ∀ punct, kind ≠ .punct punct) (quoting : Quoting) (p : Position)
    (keeps : pending.Keeps kind kinds) {body : List Atom}
    (uncut : kind = .blanks → ∀ ending, Atom.continuation ending ∉ body) :
    (readBody quoting p pending body).2.Keeps kind
      (kinds ++ tokenKinds (readBody quoting p pending body).1) := by
  induction body generalizing p kinds pending with
  | nil => simpa using keeps
  | cons atom body ih =>
    rw [readBody_cons, tokenKinds_append, ← List.append_assoc]
    have here : kind = .blanks → ∀ ending, atom ≠ .continuation ending := by
      rintro blanks ending rfl
      exact uncut blanks ending List.mem_cons_self
    exact ih _ (Atom.read_keeps notPunct quoting p keeps here)
      fun blanks ending later => uncut blanks ending (List.mem_cons_of_mem atom later)

/-- The **words of an argument are apart,** and if no continuation cuts them, so are its blanks. -/
theorem bodyTokens_apart (kind : Token.Kind) (notPunct : ∀ punct, kind ≠ .punct punct)
    (quoting : Quoting) (p : Position) {body : List Atom}
    (uncut : kind = .blanks → ∀ ending, Atom.continuation ending ∉ body) :
    Apart kind (tokenKinds (bodyTokens quoting p body)) := by
  have start : Pending.nothing.Keeps kind [] := ⟨.nil, by simp⟩
  have whole := (readBody_keeps notPunct quoting p start uncut).apart
  rwa [List.nil_append, ← tokenKinds_append] at whole

/-- What the style of an argument decides about its tokens. -/
structure Style.Writes (style : Style) (a : ArgumentTokens) : Prop where
  start : a.start.value.toList = style.mark
  stop : a.stop.value.toList = style.mark
  holds : ∀ t ∈ a.body, style.Holds t
  bare : style = .bare → a.body ≠ []
  apart : Apart .word (tokenKinds a.body)

/-- Every **argument of a text** is written in one of the two styles.  The mark in front tells
which, and the units between the marks are those of that style. -/
theorem exists_style_of_readAt {p : Position} {source : List Char} {a : ArgumentTokens}
    (read : ReadAt p source a) : ∃ style : Style, style.Writes a := by
  obtain ⟨quoting, body, after, -, fits, bare, start, words, stop⟩ := read
  refine ⟨styleOf quoting, ?_, ?_, ?_, ?_, ?_⟩
  · rw [start]
    exact String.toList_ofList
  · rw [stop]
    exact String.toList_ofList
  · rw [words]
    exact bodyTokens_hold _ fits
  · intro isBare none
    obtain ⟨⟨c, cs, source, opens⟩, -⟩ := bare isBare
    -- the first unit is a character, which some token has to say
    have unsaid : bodyText (styleOf quoting) body = [] := by
      rw [← (spelled_bodyTokens quoting (p.advance (styleOf quoting).mark) body).values, ← words,
        none]
      rfl
    cases body with
    | nil => cases source
    | cons atom body =>
      cases atom with
      | char d => cases unsaid
      | pair d => exact opens.2.2.1 (List.cons.inj source).1.symm
      | continuation ending => exact opens.2.2.1 (List.cons.inj source).1.symm
  · rw [words]
    exact bodyTokens_apart .word nofun _ _ nofun

/-- The same for the entries of a text. -/
theorem exists_style_of_mem_entries {p : Position} {layout : Layout} (fits : layout.Fits)
    {d : DirectiveTokens} (listed : .directive d ∈ layout.entries p) {a : ArgumentTokens}
    (member : a ∈ d.arguments) : ∃ style : Style, style.Writes a := by
  obtain ⟨before, rest, -, read⟩ :=
    exists_readAt_of_mem_arguments (lineAt_of_mem_entries fits listed) member
  exact exists_style_of_readAt read

end Grammar

/-- Stretches of tokens none of which begins with a word do not bring words together. -/
theorem apart_flatMap {α : Type} {toList : α → List Token} {parts : List α}
    (apart : ∀ part ∈ parts, Apart .word (tokenKinds (toList part)))
    (begins : ∀ part ∈ parts, (tokenKinds (toList part)).head? ≠ some .word) :
    Apart .word (tokenKinds (parts.flatMap toList)) ∧
      (tokenKinds (parts.flatMap toList)).head? ≠ some .word := by
  induction parts with
  | nil => exact ⟨.nil, by simp⟩
  | cons part parts ih =>
    obtain ⟨apartHere, apartLater⟩ := List.forall_mem_cons.mp apart
    obtain ⟨beginsHere, beginsLater⟩ := List.forall_mem_cons.mp begins
    obtain ⟨apartOthers, beginsOthers⟩ := ih apartLater beginsLater
    rw [List.flatMap_cons, tokenKinds_append]
    refine ⟨apartHere.append apartOthers (.inr beginsOthers), ?_⟩
    rw [List.head?_append]
    cases first : (tokenKinds (toList part)).head? with
    | none => exact beginsOthers
    | some kind =>
      rw [first] at beginsHere
      exact beginsHere

/-- The marks of an argument keep its words from those of others. -/
theorem ArgumentTokens.kinds_apart {a : ArgumentTokens} (apart : Apart .word (tokenKinds a.body)) :
    Apart .word (tokenKinds a.toList) := by
  have whole := (apart.concat .argumentStop (.inr nofun)).cons .argumentStart (.inl nofun)
  simpa [ArgumentTokens.toList, a.start_kind, a.stop_kind] using whole

/-- The words of a text are apart if those of every argument are.  Between two arguments there are
marks, and a mark is no word. -/
theorem kinds_entryTokens_apart {entries : List EntryTokens} {last : Token}
    (ending : last.kind = .endOfInput)
    (apart : ∀ d, .directive d ∈ entries → ∀ a ∈ d.arguments, Apart .word (tokenKinds a.body)) :
    Apart .word (tokenKinds (entryTokens entries ++ [last])) := by
  have lines : Apart .word (tokenKinds (entryTokens entries)) := by
    refine (apart_flatMap ?_ ?_).1
    · intro entry listed
      cases entry with
      | comment c =>
        obtain ⟨mark, text, markKind, textKind⟩ := c
        cases text with
        | none => exact .singleton _
        | some text =>
          have alone : Apart .word [text.kind] := .singleton _
          exact alone.cons mark.kind (.inl (by simp [markKind]))
      | directive d =>
        have arguments :
            Apart .word (tokenKinds (d.arguments.flatMap ArgumentTokens.toList)) := by
          refine (apart_flatMap ?_ ?_).1
          · intro a member
            exact a.kinds_apart (apart d listed a member)
          · intro a _
            simp [ArgumentTokens.toList, a.start_kind]
        exact arguments.cons d.name.kind (.inl (by simp [d.name_kind]))
    · intro entry _
      cases entry with
      | comment c => simp [EntryTokens.toList, CommentTokens.toList, c.mark_kind]
      | directive d => simp [EntryTokens.toList, DirectiveTokens.toList, d.name_kind]
  rw [tokenKinds_append]
  exact lines.concat last.kind (.inr (by simp [ending]))

/-! ### Token streams

The three parts are put together for the tokens of a text, whose arguments are those of its
directives. -/

/-- Whether the tokens between the marks of an argument are such as its first mark lets stand
there: blanks stand in quotes only, and without quotes there is something. -/
structure ArgumentShape (start : Token) (body : List Token) : Prop where
  mark : start.value = "\"" ∨ start.value = ""
  blanks : ∀ t ∈ body, t.kind = .blanks → start.value = "\""
  bare : start.value ≠ "\"" → body ≠ []

/-- What the tokens of a text look like. -/
structure StreamShape (tokens : List Token) : Prop where
  /-- The kinds are those of comments, directives and the end mark. -/
  kinds : tokenKinds tokens ∈ ofStream
  /-- The end mark stands at the end and nowhere else. -/
  ending : ∃ front last, tokens = front ++ [last] ∧ last.kind = .endOfInput ∧
    ∀ t ∈ front, t.kind ≠ .endOfInput
  /-- Only marks may be empty. -/
  value_ne_empty : ∀ t ∈ tokens, t.kind = .comment ∨ t.kind = .directive ∨ t.kind.IsBody →
    t.value ≠ ""
  /-- No two words stand side by side. -/
  apart : Apart .word (tokenKinds tokens)
  blanks : ∀ t ∈ tokens, t.kind = .blanks → ∀ c ∈ t.value.toList, Text.isBlank c = true
  punct : ∀ t ∈ tokens, ∀ punct, t.kind = .punct punct → t.value.toList = [punct.char]
  word : ∀ t ∈ tokens, t.kind = .word → WordText t.value.toList
  argument : ∀ before start body stop after, tokens = before ++ start :: (body ++ stop :: after) →
    start.kind = .argumentStart → stop.kind = .argumentStop →
    (∀ t ∈ body, t.kind ≠ .argumentStop) → ArgumentShape start body

open Grammar

open Lexer (token)

/-- The entries of a text, the lines they stand in, and the styles of their arguments. -/
theorem exists_shapedEntries {label text : String} {tokens : List Token}
    (tokenized : tokenize label text = .ok tokens) :
    ∃ entries last, tokens = entryTokens entries ++ [last] ∧ last.kind = .endOfInput ∧
      (∀ entry ∈ entries, LineAt (.start label) text.toList entry) ∧
      ∀ d, .directive d ∈ entries → ∀ a ∈ d.arguments, ∃ style : Style, style.Writes a := by
  obtain ⟨layout, fits, source, same⟩ := tokenize_eq_ok_iff_layout.mp tokenized
  rw [← source]
  exact ⟨_, _, same, rfl, fun entry listed => lineAt_of_mem_entries fits listed,
    fun d listed a member => exists_style_of_mem_entries fits listed member⟩

/-- The last token of a text is the end mark. -/
theorem endOfInput_of_tokenize {label text : String} {front : List Token} {last : Token}
    (tokenized : tokenize label text = .ok (front ++ [last])) : last.kind = .endOfInput := by
  obtain ⟨entries, found, same, ending, -⟩ := exists_shapedEntries tokenized
  obtain rfl : last = found := by simpa using (List.append_inj' same rfl).2
  exact ending

/-- A mark **tells the style** of its argument, as the mark of a bare one is empty. -/
theorem Grammar.Style.mark_quoted_iff {style : Style} {value : String}
    (marked : value.toList = style.mark) : value = "\"" ↔ style = .quoted := by
  cases style with
  | bare =>
    obtain rfl : value = "" := String.toList_injective marked
    decide
  | quoted =>
    obtain rfl : value = "\"" := String.toList_injective (marked.trans (by decide))
    decide

/-- The **shape of a token stream.**  The order of the kinds comes from the entries, whatever they
say; all the rest is first shown of the tokens of one argument, from the units that write it, and
then of the whole stream, since marks stand around the tokens of every argument. -/
theorem tokenize_shape {label text : String} {tokens : List Token}
    (tokenized : tokenize label text = .ok tokens) : StreamShape tokens := by
  obtain ⟨entries, last, rfl, ending, lines, arguments⟩ := exists_shapedEntries tokenized
  -- What is said of a single token inside an argument comes from the style of that argument.
  have held {t : Token} (member : t ∈ entryTokens entries ++ [last]) (kind : t.kind.IsBody) :
      ∃ style : Style, style.Holds t := by
    obtain ⟨d, listed, a, inDirective, inBody⟩ := exists_body_of_mem ending member kind
    obtain ⟨style, writes⟩ := arguments d listed a inDirective
    exact ⟨style, writes.holds t inBody⟩
  constructor
  case kinds => exact kinds_entryTokens_mem entries ending
  case ending =>
    refine ⟨entryTokens entries, last, rfl, ending, ?_⟩
    intro t member
    obtain ⟨entry, -, inside⟩ := List.mem_flatMap.mp member
    exact entry.kind_ne_endOfInput inside
  case value_ne_empty =>
    rintro t member (comment | directive | body)
    · obtain ⟨c, listed, text⟩ := exists_comment_of_mem ending member comment
      obtain ⟨before, line, after, -, -, -, -, -, same⟩ :=
        exists_comment_of_lineAt (lines _ listed)
      rw [same] at text
      exact commentToken?_value_ne_empty text
    · obtain ⟨d, listed, rfl⟩ := exists_directive_of_mem ending member directive
      obtain ⟨before, after, -, -, -, nonempty, -⟩ := nameAt_of_lineAt (lines _ listed)
      exact fun empty => nonempty (by rw [empty]; rfl)
    · obtain ⟨style, nonempty, -⟩ := held member body
      exact nonempty
  case apart =>
    apply kinds_entryTokens_apart ending
    intro d listed a member
    obtain ⟨style, writes⟩ := arguments d listed a member
    exact writes.apart
  case blanks =>
    intro t member kind
    obtain ⟨style, -, holds⟩ := held member (by rw [kind]; trivial)
    rw [kind] at holds
    exact holds.2
    -- A stretch between two marks is that of an argument of some entry, so its style is known.
  case punct =>
    intro t member punct kind
    obtain ⟨style, -, holds⟩ := held member (by rw [kind]; trivial)
    rw [kind] at holds
    exact holds
  case word =>
    intro t member kind
    obtain ⟨style, -, holds⟩ := held member (by rw [kind]; trivial)
    rw [kind] at holds
    exact holds
  case argument =>
    intro before start body stop after split startKind stopKind inside
    obtain ⟨d, listed, a, member, rfl, rfl, rfl⟩ :=
      exists_argument_of_split ending split startKind stopKind inside
    obtain ⟨style, writes⟩ := arguments d listed a member
    have quoted := Style.mark_quoted_iff writes.start
    constructor
    case mark =>
      cases style with
      | bare => exact .inr (String.toList_injective writes.start)
      | quoted => exact .inl (quoted.mpr rfl)
    case blanks =>
      intro t inBody kind
      obtain ⟨-, shape⟩ := writes.holds t inBody
      rw [kind] at shape
      exact quoted.mpr shape.1
    case bare =>
      intro notQuote
      cases style with
      | bare => exact writes.bare rfl
      | quoted => exact absurd (quoted.mpr rfl) notQuote

/-- An argument in quotes with blanks, a comma and an escaped quote, one without quotes that holds
an escaped blank, and a comment without text. -/
theorem tokenize_shape_quote :
    tokenize "" "SecMarker \"a, \\\"\" b\\ \n#" =
      .ok [token .directive "SecMarker" ⟨none, 1, 1⟩, token .argumentStart "\"" ⟨none, 1, 11⟩,
        token .word "a" ⟨none, 1, 12⟩, token (.punct .comma) "," ⟨none, 1, 13⟩,
        token .blanks " " ⟨none, 1, 14⟩, token .word "\"" ⟨none, 1, 15⟩,
        token .argumentStop "\"" ⟨none, 1, 17⟩, token .argumentStart "" ⟨none, 1, 19⟩,
        token .word "b\\ " ⟨none, 1, 19⟩, token .argumentStop "" ⟨none, 1, 22⟩,
        token .commentStart "#" ⟨none, 2, 1⟩, token .endOfInput "" ⟨none, 2, 2⟩] ∧
    StreamShape [token .directive "SecMarker" ⟨none, 1, 1⟩,
      token .argumentStart "\"" ⟨none, 1, 11⟩, token .word "a" ⟨none, 1, 12⟩,
      token (.punct .comma) "," ⟨none, 1, 13⟩, token .blanks " " ⟨none, 1, 14⟩,
      token .word "\"" ⟨none, 1, 15⟩, token .argumentStop "\"" ⟨none, 1, 17⟩,
      token .argumentStart "" ⟨none, 1, 19⟩, token .word "b\\ " ⟨none, 1, 19⟩,
      token .argumentStop "" ⟨none, 1, 22⟩, token .commentStart "#" ⟨none, 2, 1⟩,
      token .endOfInput "" ⟨none, 2, 2⟩] := by
  have tokenized : tokenize "" "SecMarker \"a, \\\"\" b\\ \n#" =
      .ok [token .directive "SecMarker" ⟨none, 1, 1⟩, token .argumentStart "\"" ⟨none, 1, 11⟩,
        token .word "a" ⟨none, 1, 12⟩, token (.punct .comma) "," ⟨none, 1, 13⟩,
        token .blanks " " ⟨none, 1, 14⟩, token .word "\"" ⟨none, 1, 15⟩,
        token .argumentStop "\"" ⟨none, 1, 17⟩, token .argumentStart "" ⟨none, 1, 19⟩,
        token .word "b\\ " ⟨none, 1, 19⟩, token .argumentStop "" ⟨none, 1, 22⟩,
        token .commentStart "#" ⟨none, 2, 1⟩, token .endOfInput "" ⟨none, 2, 2⟩] := by
    decide +kernel
  exact ⟨tokenized, tokenize_shape tokenized⟩

end WafRules
