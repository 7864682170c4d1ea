import Mathlib.Data.List.Basic
import Mathlib.Data.List.TakeWhile
import WafRules.Proofs.Grammar.Shape
import WafRules.Proofs.Patterns
import WafRules.Proofs.Relocation.Actions

/-!
# Texts of actions

A line may consist of actions alone.  Its document is read from the tokens between its double
quotes, which are those of the units of its argument, so what is proved of lists of actions is
proved of texts.

For a single action the whole way is put together once.  Its keyword is a word, the colon a mark,
and the characters of its value become the tokens of its window; so what a text with one action is
read to is what `Action.ofValue` says of that window, whatever the keyword.  What is shown of single
actions elsewhere starts from there, and says nothing of the lexer any more.

## Main Definitions

* `Action.lineText`, `Action.lineDocument` — a text of one line of actions, and its document.

## Main Statements

* `Pattern.Writes.parse_lineText` — a line of actions is read as its tokens are.
-/

namespace WafRules

open Grammar (Atom bodyTokens)

namespace Action

/-- A text of one line, with the given characters between its double quotes. -/
def lineText (cs : List Char) : String := "SecAction \"" ++ String.ofList cs ++ "\""

/-- The document of a line of actions. -/
def lineDocument (label : String) (actions : List (Positioned Action)) : Document :=
  ⟨label, [.directive ⟨.action actions, ⟨(Position.start label).file, 1, 1⟩⟩]⟩

/-- The line of units. -/
def lineLayout (body : List Atom) : Grammar.Layout where
  first := ⟨[], .directive "SecAction".toList [.blank ' ', .quoted body]⟩
  following := []

/-- The tokens of the line. -/
def lineTokens (file : Option String) (body : List Atom) : DirectiveTokens where
  name := Lexer.token .directive "SecAction" ⟨file, 1, 1⟩
  arguments := Grammar.piecesArguments ⟨file, 1, 10⟩ [.blank ' ', .quoted body]
  name_kind := rfl

end Action

/-- Changing errors changes **no value**. -/
theorem mapError_eq_ok_iff {ε ε' α : Type} {f : ε → ε'} {result : Except ε α} {a : α} :
    result.mapError f = .ok a ↔ result = .ok a := by
  cases result with
  | error e => exact ⟨nofun, nofun⟩
  | ok b => simp [Except.mapError]

/-- A document of one directive. -/
theorem Document.ofItems_directive (label : String) (d : DirectiveTokens) :
    ofItems label (readEntries [.directive d]) =
      (d.read.map fun directive => ⟨label, [.directive directive]⟩).mapError .structural := by
  cases read : d.read with
  | error e =>
    have failed : (EntryTokens.directive d).read = .error e := congrArg (Except.map _) read
    rw [readEntries_cons_error [] failed]
    rfl
  | ok directive =>
    have taken : (EntryTokens.directive d).read = .ok (.directive directive) :=
      congrArg (Except.map _) read
    rw [readEntries_cons_ok [] taken]
    rfl

namespace Pattern

open WafRules.Action (lineText lineDocument lineLayout lineTokens)

variable {body : List Atom} {cs : List Char}

/-- A line of units that can be written **is well laid out**. -/
theorem Writes.lineLayout_fits (writes : Writes body cs) : (lineLayout body).Fits := by
  have letters : "SecAction".toList.all Text.isLetter = true := by decide +kernel
  have blank : Text.isBlank ' ' = true := by decide
  refine ⟨⟨by simp [lineLayout], by simp, List.all_eq_true.mp letters, ?_, ?_⟩, trivial⟩
  · intro piece first
    cases first
    trivial
  · exact ⟨blank, writes.fits _, trivial⟩

/-- A line of units **has the text** that is written for it. -/
theorem Writes.lineLayout_source (writes : Writes body cs) :
    (lineLayout body).source = (lineText (escaped cs)).toList := by
  simp [lineLayout, lineText, Grammar.Layout.source, Grammar.Line.source, Grammar.Content.source,
    Grammar.Piece.source, Grammar.followingSource, writes.source]

/-- A **line of actions** is read as its tokens are.  The line is laid out as one directive with one
argument in quotes, so its tokens are known, and the closing token, which nothing here depends on,
is left open. -/
theorem Writes.parse_lineText (writes : Writes body cs) (label : String) :
    ∃ closing, Document.parse label (lineText (escaped cs)) =
      ((Action.readList
        ⟨bodyTokens (.quoted ⟨(Position.start label).file, 1, 11⟩)
          ⟨(Position.start label).file, 1, 12⟩ body, closing⟩).map
            (lineDocument label)).mapError .structural := by
  have keyword : Directive.Keyword.ofName? "SecAction" = some .action := by decide +kernel
  let file := (Position.start label).file
  obtain ⟨last, tokenized⟩ : ∃ last, tokenize label (lineText (escaped cs)) =
      .ok (entryTokens ((lineLayout body).entries (.start label)) ++ [last]) :=
    ⟨_, tokenize_eq_ok_iff_layout.mpr
      ⟨lineLayout body, writes.lineLayout_fits, writes.lineLayout_source, rfl⟩⟩
  have entries : (lineLayout body).entries (.start label) =
      [.directive (lineTokens file body)] := rfl
  obtain ⟨closing, arguments⟩ : ∃ closing,
      (lineTokens file body).arguments.map ArgumentTokens.argument =
        [⟨⟨file, 1, 11⟩, ⟨bodyTokens (.quoted ⟨file, 1, 11⟩) ⟨file, 1, 12⟩ body, closing⟩⟩] :=
    ⟨_, rfl⟩
  refine ⟨closing, ?_⟩
  rw [Document.parse_of_entryTokens tokenized, entries]
  rw [Document.ofItems_directive]
  have body : (lineTokens file body).read =
      (Action.readList ⟨bodyTokens (.quoted ⟨file, 1, 11⟩) ⟨file, 1, 12⟩ body, closing⟩).map
        fun actions => ⟨.action actions, ⟨file, 1, 1⟩⟩ := by
    unfold DirectiveTokens.read
    rw [show (lineTokens file body).name.value = "SecAction" from rfl, keyword, arguments]
    dsimp only [Directive.Body.read?]
    cases Action.readList ⟨bodyTokens (.quoted ⟨file, 1, 11⟩) ⟨file, 1, 12⟩ body, closing⟩ <;> rfl
  rw [body]
  cases Action.readList ⟨bodyTokens (.quoted ⟨file, 1, 11⟩) ⟨file, 1, 12⟩ _, closing⟩ <;> rfl

end Pattern

/-! ### Words in front of marks

A keyword and a name of a collection are words of characters that never end a word.  Written between
quotes they are one token each, whatever mark follows them. -/

namespace Grammar

open Lexer (Run Quoting token)

/-- Whether a character **stands in words alone**, wherever it is written. -/
def StandsInWord (c : Char) : Prop :=
  Text.isBlank c = false ∧ Punct.ofChar? c = none ∧ c ≠ '\n' ∧ c ≠ '\\' ∧ c ≠ '\x22'

instance (c : Char) : Decidable (StandsInWord c) := inferInstanceAs (Decidable (_ ∧ _))

/-- Characters of a word are **added to the word** that is pending, and complete nothing. -/
theorem readBody_word (quoting : Quoting) (p : Position) (run : Run) {letters : List Char}
    (inWord : ∀ c ∈ letters, StandsInWord c) :
    readBody quoting p (.word run) (letters.map .char) =
      ([], .word ⟨run.start, run.text ++ String.ofList letters⟩) := by
  induction letters generalizing p run with
  | nil => simp
  | cons c letters ih =>
    obtain ⟨notBlank, notPunct, -⟩ := inWord c List.mem_cons_self
    have read : (Atom.char c).read quoting p (.word run) =
        ([], .word ⟨run.start, run.text ++ c.toString⟩) := by
      simp [Atom.read, notBlank, notPunct, Pending.extend]
    have text : run.text ++ c.toString ++ String.ofList letters =
        run.text ++ String.ofList (c :: letters) := by
      rw [← String.toList_inj]
      simp
    rw [List.map_cons, readBody_cons, read,
      ih _ _ fun d member => inWord d (List.mem_cons_of_mem c member), text]
    rfl

/-- Characters of a word are one token. -/
theorem bodyTokens_word (quoting : Quoting) (p : Position) {letters : List Char}
    (nonempty : letters ≠ []) (inWord : ∀ c ∈ letters, StandsInWord c) :
    bodyTokens quoting p (letters.map .char) = [token .word (String.ofList letters) p] := by
  obtain ⟨c, letters, rfl⟩ := List.exists_cons_of_ne_nil nonempty
  obtain ⟨notBlank, notPunct, -⟩ := inWord c List.mem_cons_self
  have read : (Atom.char c).read quoting p .nothing = ([], .word ⟨p, c.toString⟩) := by
    simp [Atom.read, notBlank, notPunct, Pending.extend]
  have text : c.toString ++ String.ofList letters = String.ofList (c :: letters) := by
    rw [← String.toList_inj]
    simp
  rw [bodyTokens, List.map_cons, readBody_cons, read,
    readBody_word _ _ _ fun d member => inWord d (List.mem_cons_of_mem c member), text]
  rfl

/-- A word and the mark behind it are two tokens. -/
theorem bodyTokens_word_punct (quoting : Quoting) (p : Position) {letters : List Char}
    (nonempty : letters ≠ []) (inWord : ∀ c ∈ letters, StandsInWord c) (punct : Punct)
    (body : List Atom) :
    ∃ q r, bodyTokens quoting p (letters.map .char ++ .char punct.char :: body) =
      token .word (String.ofList letters) p :: token (.punct punct) punct.char.toString q ::
        bodyTokens quoting r body := by
  rw [bodyTokens_append_punct quoting p _ (Punct.ofChar?_char punct),
    bodyTokens_word quoting p nonempty inWord]
  exact ⟨_, _, rfl⟩

end Grammar

namespace Pattern

variable {body : List Atom} {cs : List Char}

/-- A text without backslashes can be written. -/
theorem Paired.of_notMem {cs : List Char} (noBackslash : '\\' ∉ cs) : Paired cs := by
  induction cs with
  | nil => exact .nil
  | cons c cs ih =>
    rw [List.mem_cons, not_or] at noBackslash
    exact .char (Ne.symm noBackslash.1) (ih noBackslash.2)

/-- Texts that can be written can be written **one behind the other**. -/
theorem Paired.append {front back : List Char} (first : Paired front) (second : Paired back) :
    Paired (front ++ back) := by
  induction first with
  | nil => exact second
  | pair notQuote _ ih => exact .pair notQuote ih
  | char notBackslash _ ih => exact .char notBackslash ih

/-- Escaping goes character by character. -/
theorem escaped_append (front cs : List Char) :
    escaped (front ++ cs) = escaped front ++ escaped cs := List.flatMap_append

/-- A text without double quotes is written **as it is**. -/
theorem escaped_of_notMem {cs : List Char} (noQuote : '\x22' ∉ cs) : escaped cs = cs := by
  induction cs with
  | nil => rfl
  | cons c cs ih =>
    rw [List.mem_cons, not_or] at noQuote
    rw [escaped_cons (Ne.symm noQuote.1), ih noQuote.2]

/-- A text behind characters of a word. -/
theorem Writes.word (writes : Writes body cs) {letters : List Char}
    (inWord : ∀ c ∈ letters, Grammar.StandsInWord c) :
    Writes (letters.map .char ++ body) (letters ++ cs) := by
  induction letters with
  | nil => exact writes
  | cons c letters ih =>
    obtain ⟨-, -, notLineFeed, notBackslash, notQuote⟩ := inWord c List.mem_cons_self
    exact (ih fun d member => inWord d (List.mem_cons_of_mem c member)).char notLineFeed
      notBackslash notQuote

/-- A text behind a mark. -/
theorem Writes.punct (writes : Writes body cs) (punct : Punct) :
    Writes (.char punct.char :: body) (punct.char :: cs) := by
  refine writes.char ?_ ?_ ?_ <;> cases punct <;> decide

/-- The tokens of a text are of its characters. -/
theorem Writes.token_subset (writes : Writes body cs) (opened p : Position) {t : Token}
    (member : t ∈ bodyTokens (.quoted opened) p body) : t.value.toList ⊆ cs := by
  intro c inToken
  rw [← writes.values opened p]
  exact List.mem_flatMap.mpr ⟨t, member, inToken⟩

/-- Every token of a written text **has the form** of one between quotes. -/
theorem Writes.holds (writes : Writes body cs) (opened p : Position) :
    ∀ t ∈ bodyTokens (.quoted opened) p body, Grammar.Style.quoted.Holds t := by
  have fits : Grammar.BodyFits (Grammar.styleOf (.quoted opened)) ['\x22'] body := writes.fits []
  exact Grammar.bodyTokens_hold p fits

/-- A mark among the tokens of a text is one of its characters. -/
theorem Writes.mem_of_punct (writes : Writes body cs) (opened p : Position) {t : Token}
    (member : t ∈ bodyTokens (.quoted opened) p body) {punct : Punct}
    (isPunct : t.kind = .punct punct) : punct.char ∈ cs := by
  obtain ⟨-, shape⟩ := writes.holds opened p t member
  rw [isPunct] at shape
  refine writes.token_subset opened p member ?_
  rw [shape]
  exact List.mem_singleton_self _

/-- Blanks among the tokens of a text are among its characters. -/
theorem Writes.exists_blank (writes : Writes body cs) (opened p : Position) {t : Token}
    (member : t ∈ bodyTokens (.quoted opened) p body) (isBlanks : t.kind = .blanks) :
    ∃ c ∈ cs, Text.isBlank c = true := by
  obtain ⟨nonempty, shape⟩ := writes.holds opened p t member
  rw [isBlanks] at shape
  obtain ⟨-, blanks⟩ := shape
  obtain ⟨c, others, characters⟩ := List.exists_cons_of_ne_nil
    (fun empty => nonempty (String.toList_injective empty) : t.value.toList ≠ [])
  have inToken : c ∈ t.value.toList := by
    rw [characters]
    exact List.mem_cons_self
  exact ⟨c, writes.token_subset opened p member inToken, blanks c inToken⟩

end Pattern

/-! ### Actions with a bare value

A value without quotes ends at a comma or a quote, and for some keywords at blanks.  A value that
has none of the three is taken whole whatever its keyword, and is then all the tokens of a
window. -/

namespace Action

/-- Whether tokens can be a value without quotes: none of them ends it or opens quotes. -/
def IsBare (tokens : List Token) : Prop :=
  ∀ t ∈ tokens, t.kind ≠ .punct .comma ∧ t.kind ≠ .blanks ∧ t.kind ≠ .punct .singleQuote

variable {tokens : List Token}

/-- A bare value begins **neither with a blank nor with a quote**. -/
theorem IsBare.startsWith_eq_false (bare : IsBare tokens) (closing : Token) {kind : Token.Kind}
    (other : kind = .blanks ∨ kind = .punct .singleQuote) :
    Window.startsWith ⟨tokens, closing⟩ kind = false := by
  rw [Bool.eq_false_iff]
  intro starts
  obtain ⟨t, rest, same, isKind⟩ := Window.tokens_of_startsWith starts
  have whole : tokens = t :: rest := same
  rw [whole] at bare
  obtain ⟨-, notBlanks, notQuote⟩ := bare t List.mem_cons_self
  rcases other with rfl | rfl
  · exact notBlanks isKind
  · exact notQuote isKind

/-- A bare value goes on to the end. -/
theorem bareValue_of_isBare (bare : IsBare tokens) (singleWord : Bool) (closing : Token) :
    bareValue singleWord ⟨tokens, closing⟩ = (⟨tokens, closing⟩, ⟨[], closing⟩) := by
  have goesOn : ∀ t ∈ tokens,
      (!(t.isKind (.punct .comma) || singleWord && t.isKind .blanks)) = true := by
    intro t member
    obtain ⟨notComma, notBlanks, -⟩ := bare t member
    simp [Token.isKind, notComma, notBlanks]
  have cut : Window.splitAt ⟨tokens, closing⟩ tokens.length =
      (⟨tokens, closing⟩, ⟨[], closing⟩) := by
    simp [Window.splitAt, Window.drop]
  have untrimmed : Window.trimEnd ⟨tokens, closing⟩ = ⟨tokens, closing⟩ := by
    have noBlanks : tokens.reverse.takeWhile (·.isKind .blanks) = [] := by
      refine List.takeWhile_eq_nil_iff.mpr fun nonempty => ?_
      obtain ⟨-, notBlanks, -⟩ := bare _ (List.mem_reverse.mp (List.getElem_mem nonempty))
      simpa [Token.isKind] using notBlanks
    unfold Window.trimEnd
    dsimp only
    rw [noBlanks, List.length_nil, Nat.sub_zero, cut]
  unfold bareValue
  dsimp only
  rw [List.takeWhile_eq_self_iff.mpr goesOn, cut]
  dsimp only
  rw [untrimmed]

/-- A list of **one action** holds what its value says, when the value is all that follows. -/
theorem readList_single {name closing : Token} {rest : List Token} {value : Option Window}
    (isName : name.kind = .word) {keyword : Keyword}
    (named : Keyword.ofName? name.value = some keyword)
    (split : splitValue keyword.isSingleWord ⟨rest, closing⟩ = .ok (value, ⟨[], closing⟩)) :
    readList ⟨name :: rest, closing⟩ =
      (ofValue keyword ⟨name, value⟩).map fun a => [⟨a, name.position⟩] := by
  have whole : skipSeparators ⟨name :: rest, closing⟩ = ⟨name :: rest, closing⟩ := by
    simp [skipSeparators, Window.dropKinds, isName]
  have expected : Window.expect ⟨name :: rest, closing⟩ .word .actionName =
      .ok (name, ⟨rest, closing⟩) := by
    simp [Window.expect, Window.startsWith, Token.isKind, isName, Window.first, Window.drop]
  have read : Action.read ⟨name :: rest, closing⟩ =
      (ofValue keyword ⟨name, value⟩).map fun a => (⟨a, name.position⟩, ⟨[], closing⟩) := by
    rw [Action.read, expected]
    dsimp only [bind, Except.bind]
    rw [named, Option.any_some, split]
    dsimp only
    cases ofValue keyword ⟨name, value⟩ <;> rfl
  rw [readList, whole, readOnto_eq, read]
  cases ofValue keyword ⟨name, value⟩ with
  | error e => rfl
  | ok a =>
    show readOnto #[⟨a, name.position⟩] (skipSeparators ⟨[], closing⟩) = _
    rw [readOnto_eq]
    rfl

/-- A colon in front. -/
theorem startsWith_colon {colon closing : Token} (isColon : colon.kind = .punct .colon)
    (rest : List Token) : Window.startsWith ⟨colon :: rest, closing⟩ (.punct .colon) = true := by
  simp [Window.startsWith, Token.isKind, isColon]

/-- A list of one action with a bare value. -/
theorem readList_bare {name colon : Token} (isName : name.kind = .word)
    (isColon : colon.kind = .punct .colon) {keyword : Keyword}
    (named : Keyword.ofName? name.value = some keyword) (bare : IsBare tokens) (closing : Token) :
    readList ⟨name :: colon :: tokens, closing⟩ =
      (ofValue keyword ⟨name, some ⟨tokens, closing⟩⟩).map fun a => [⟨a, name.position⟩] := by
  refine readList_single isName named ?_
  have behind : ((Window.mk (colon :: tokens) closing).drop 1).skipBlanks = ⟨tokens, closing⟩ := by
    have noBlanks := bare.startsWith_eq_false closing (.inl rfl)
    cases tokens with
    | nil => rfl
    | cons t rest =>
      have notBlanks : ¬ t.kind = .blanks := by
        simpa [Window.startsWith, Token.isKind] using noBlanks
      simp [Window.drop, Window.skipBlanks, Window.dropKinds, notBlanks]
  unfold splitValue
  rw [if_pos (startsWith_colon isColon tokens)]
  dsimp only
  rw [behind, bare.startsWith_eq_false closing (.inr rfl), bareValue_of_isBare bare]
  rfl

/-- A list of one action with a value between single quotes. -/
theorem readList_quoted {name colon opening close : Token} (isName : name.kind = .word)
    (isColon : colon.kind = .punct .colon) (opens : opening.kind = .punct .singleQuote)
    (closes : close.kind = .punct .singleQuote)
    (noQuote : ∀ t ∈ tokens, t.kind ≠ .punct .singleQuote) {keyword : Keyword}
    (named : Keyword.ofName? name.value = some keyword) (closing : Token) :
    readList ⟨name :: colon :: opening :: (tokens ++ [close]), closing⟩ =
      (ofValue keyword ⟨name, some ⟨tokens, close⟩⟩).map fun a => [⟨a, name.position⟩] := by
  refine readList_single isName named ?_
  have behind : ((Window.mk (colon :: opening :: (tokens ++ [close])) closing).drop 1).skipBlanks =
      ⟨opening :: (tokens ++ [close]), closing⟩ := by
    simp [Window.drop, Window.skipBlanks, Window.dropKinds, opens]
  have quote : Window.startsWith ⟨opening :: (tokens ++ [close]), closing⟩
      (.punct .singleQuote) = true := by
    simp [Window.startsWith, Token.isKind, opens]
  have value : quotedValue opening.position ⟨tokens ++ [close], closing⟩ =
      .ok (⟨tokens, close⟩, ⟨[], closing⟩) := by
    have found : Window.index? ⟨tokens ++ [close], closing⟩ (.punct .singleQuote) =
        some tokens.length :=
      Window.index?_eq_some_iff.mpr ⟨tokens, close, [], rfl, rfl, closes, noQuote⟩
    rw [quotedValue, found]
    simp [Window.splitAt, Window.drop]
  unfold splitValue
  rw [if_pos (startsWith_colon isColon _)]
  dsimp only
  rw [behind, if_pos quote]
  show (quotedValue opening.position ⟨tokens ++ [close], closing⟩ >>= _) = _
  rw [value]
  rfl

namespace Keyword

/-- Every keyword is **found by its spelling**. -/
theorem ofName?_spelling (keyword : Keyword) : ofName? keyword.spelling = some keyword := by
  have found : ∀ keyword ∈ all, ofName? keyword.spelling = some keyword := by decide +kernel
  exact found keyword (mem_all keyword)

/-- The spelling of a keyword is a word. -/
theorem spelling_standsInWord (keyword : Keyword) :
    keyword.spelling.toList ≠ [] ∧ ∀ c ∈ keyword.spelling.toList, Grammar.StandsInWord c := by
  have words : ∀ keyword ∈ all,
      keyword.spelling.toList ≠ [] ∧ keyword.spelling.toList.Forall Grammar.StandsInWord := by
    decide +kernel
  exact (words keyword (mem_all keyword)).imp_right List.forall_iff_forall_mem.mp

end Keyword

end Action

namespace Pattern

open WafRules.Action (lineText lineDocument)

variable {body : List Atom} {cs : List Char}

/-- Whether characters can be the value of an action without quotes: no comma, no single quote and
no blank. -/
structure Bare (cs : List Char) : Prop where
  noComma : ',' ∉ cs
  noQuote : '\x27' ∉ cs
  noBlank : ∀ c ∈ cs, Text.isBlank c = false

instance (cs : List Char) : Decidable (Bare cs) :=
  decidable_of_iff (',' ∉ cs ∧ '\x27' ∉ cs ∧ cs.Forall fun c => Text.isBlank c = false)
    ⟨fun ⟨comma, quote, blank⟩ => ⟨comma, quote, List.forall_iff_forall_mem.mp blank⟩,
      fun bare => ⟨bare.noComma, bare.noQuote, List.forall_iff_forall_mem.mpr bare.noBlank⟩⟩

/-- Bare texts may stand **one behind the other**. -/
theorem Bare.append {front back : List Char} (first : Bare front) (second : Bare back) :
    Bare (front ++ back) where
  noComma := List.not_mem_append first.noComma second.noComma
  noQuote := List.not_mem_append first.noQuote second.noQuote
  noBlank c member := (List.mem_append.mp member).elim (first.noBlank c) (second.noBlank c)

/-- The tokens of a bare text **make a bare value**. -/
theorem Writes.isBare (writes : Writes body cs) (bare : Bare cs) (opened p : Position) :
    Action.IsBare (bodyTokens (.quoted opened) p body) := by
  intro t member
  refine ⟨fun isComma => bare.noComma (writes.mem_of_punct opened p member isComma), ?_,
    fun isQuote => bare.noQuote (writes.mem_of_punct opened p member isQuote)⟩
  intro isBlanks
  obtain ⟨c, inText, blank⟩ := writes.exists_blank opened p member isBlanks
  rw [bare.noBlank c inText] at blank
  cases blank

/-- A **line of one action with a bare value** has the document of the value.  The list has this
action alone, because neither a comma nor a blank is in the value. -/
theorem Writes.parse_bareAction (writes : Writes body cs) (bare : Bare cs)
    (keyword : Action.Keyword) (label : String) :
    ∃ name opened p closing,
      Document.parse label (lineText (keyword.spelling.toList ++ ':' :: escaped cs)) =
        ((Action.ofValue keyword
            ⟨name, some ⟨bodyTokens (.quoted opened) p body, closing⟩⟩).map fun a =>
          lineDocument label [⟨a, ⟨(Position.start label).file, 1, 12⟩⟩]).mapError .structural := by
  obtain ⟨nonempty, inWord⟩ := keyword.spelling_standsInWord
  have source : escaped (keyword.spelling.toList ++ ':' :: cs) =
      keyword.spelling.toList ++ ':' :: escaped cs := by
    rw [escaped_append, escaped_cons (by decide), escaped_of_notMem fun member => ?_]
    exact (inWord _ member).2.2.2.2 rfl
  obtain ⟨closing, parsed⟩ := ((writes.punct .colon).word inWord).parse_lineText label
  obtain ⟨q, r, tokens⟩ := Grammar.bodyTokens_word_punct
    (.quoted ⟨(Position.start label).file, 1, 11⟩) ⟨(Position.start label).file, 1, 12⟩
    nonempty inWord .colon body
  have named : Action.Keyword.ofName? (String.ofList keyword.spelling.toList) = some keyword := by
    rw [String.ofList_toList]
    exact keyword.ofName?_spelling
  refine ⟨Lexer.token .word (String.ofList keyword.spelling.toList)
    ⟨(Position.start label).file, 1, 12⟩, ⟨(Position.start label).file, 1, 11⟩, r, closing, ?_⟩
  rw [← source]
  refine parsed.trans ?_
  have isName : (Lexer.token .word (String.ofList keyword.spelling.toList)
      ⟨(Position.start label).file, 1, 12⟩).kind = .word := rfl
  have isColon : (Lexer.token (.punct .colon) Punct.colon.char.toString q).kind =
      .punct .colon := rfl
  rw [tokens, Action.readList_bare isName isColon named (writes.isBare bare _ r) closing]
  generalize Action.ofValue keyword _ = value
  cases value <;> rfl

/-- The same for texts without double quotes: there is a document when the value can be read. -/
theorem Writes.parse_bareAction_eq_ok_iff (writes : Writes body cs) (bare : Bare cs)
    (noDouble : '\x22' ∉ cs) (keyword : Action.Keyword) (label : String) :
    ∃ name opened p closing, ∀ d,
      Document.parse label (lineText (keyword.spelling.toList ++ ':' :: cs)) = .ok d ↔
        ∃ a, Action.ofValue keyword
            ⟨name, some ⟨bodyTokens (.quoted opened) p body, closing⟩⟩ = .ok a ∧
          lineDocument label [⟨a, ⟨(Position.start label).file, 1, 12⟩⟩] = d := by
  obtain ⟨name, opened, p, closing, parsed⟩ := writes.parse_bareAction bare keyword label
  refine ⟨name, opened, p, closing, fun d => ?_⟩
  rw [escaped_of_notMem noDouble] at parsed
  rw [parsed, mapError_eq_ok_iff, map_eq_ok_iff]

end Pattern

end WafRules
