import Mathlib.Data.List.TakeWhile
import WafRules.Proofs.Patterns
import WafRules.Proofs.Relocation.Operands

/-!
# Quoted selectors

The members of a collection may be named between single quotes.  A text without bars, blanks and
quotes has no need of them, and should name the same members with and without them.  It does, for
every collection but one: the members of the XML collection are path expressions, whose slashes
belong to the name, but between quotes slashes mark a regular expression there too.

The tokens of a text do not depend on where it stands, so they are the same between quotes.

What a plain text names is computed from the lexemes of its tokens (`MemberPattern.ofPlain?`), which
are the same with and without quotes.  The two readers are compared with that function, and the
function differs for the two of them in a single case, a text that begins with a slash, where it
asks whether slashes mark a regular expression.

## Main Definitions

* `Grammar.bodyLexemes` — the tokens of units of an argument without their places.
* `MemberPattern.ofPlain?` — the members that a plain text names.

## Main Statements

* `Grammar.lexemes_bodyTokens` — the tokens of units do not depend on the place.
* `MemberPattern.read_plain`, `MemberPattern.read_quoted` — a plain text, and the same in quotes.
* `Selector.readList_quoted_iff` — when quotes make no difference.
-/

namespace WafRules

/-! ### Tokens without their places

Pending text is compared without the place where it began.  What a unit does depends on the kind and
the text of what is pending and on nothing else, so the lexemes of an argument follow from its
units. -/

namespace Grammar

open Lexer (Run Quoting token)

/-- Whether the same text is pending at two places. -/
inductive Pending.SameText : Pending → Pending → Prop
  | nothing : SameText .nothing .nothing
  | word (text : String) (p q : Position) : SameText (.word ⟨p, text⟩) (.word ⟨q, text⟩)
  | blanks (text : String) (p q : Position) : SameText (.blanks ⟨p, text⟩) (.blanks ⟨q, text⟩)

variable {pending pending' : Pending}

theorem Pending.SameText.tokens (same : pending.SameText pending') :
    pending.tokens.map Token.toLexeme = pending'.tokens.map Token.toLexeme := by
  cases same <;> rfl

theorem Pending.SameText.extend (same : pending.SameText pending') (p q : Position)
    (text : String) :
    (pending.extend p text).1.map Token.toLexeme = (pending'.extend q text).1.map Token.toLexeme ∧
      (pending.extend p text).2.SameText (pending'.extend q text).2 := by
  cases same with
  | nothing => exact ⟨rfl, .word _ _ _⟩
  | word => exact ⟨rfl, .word _ _ _⟩
  | blanks => exact ⟨rfl, .word _ _ _⟩

theorem Pending.SameText.pushBlank (same : pending.SameText pending') (p q : Position) (c : Char) :
    (pending.pushBlank p c).1.map Token.toLexeme = (pending'.pushBlank q c).1.map Token.toLexeme ∧
      (pending.pushBlank p c).2.SameText (pending'.pushBlank q c).2 := by
  cases same with
  | nothing => exact ⟨rfl, .blanks _ _ _⟩
  | word => exact ⟨rfl, .blanks _ _ _⟩
  | blanks => exact ⟨rfl, .blanks _ _ _⟩

/-- One **unit of an argument at two places.** -/
theorem Atom.read_sameText (same : pending.SameText pending') (quoting : Quoting) (p q : Position)
    (atom : Atom) :
    (atom.read quoting p pending).1.map Token.toLexeme =
        (atom.read quoting q pending').1.map Token.toLexeme ∧
      (atom.read quoting p pending).2.SameText (atom.read quoting q pending').2 := by
  cases atom with
  | char c =>
    unfold Atom.read
    dsimp only
    split
    · exact same.pushBlank p q c
    · split
      · rw [List.map_append, List.map_append, same.tokens]
        exact ⟨rfl, .nothing⟩
      · exact same.extend p q _
  | pair c => exact same.extend p q _
  | continuation ending =>
    cases same with
    | nothing => exact ⟨rfl, .nothing⟩
    | word => exact ⟨rfl, .word _ _ _⟩
    | blanks => exact ⟨rfl, .nothing⟩

theorem readBody_sameText (same : pending.SameText pending') (quoting : Quoting) (p q : Position)
    (body : List Atom) :
    (readBody quoting p pending body).1.map Token.toLexeme =
        (readBody quoting q pending' body).1.map Token.toLexeme ∧
      (readBody quoting p pending body).2.SameText (readBody quoting q pending' body).2 := by
  induction body generalizing p q pending pending' with
  | nil => exact ⟨rfl, same⟩
  | cons atom body ih =>
    obtain ⟨here, next⟩ := Atom.read_sameText same quoting p q atom
    obtain ⟨later, last⟩ := ih next (p.advance atom.source) (q.advance atom.source)
    rw [readBody_cons, readBody_cons, List.map_append, List.map_append, here, later]
    exact ⟨rfl, last⟩

/-- The tokens of units of an argument, without their places. -/
def bodyLexemes (quoting : Quoting) (body : List Atom) : List Lexeme :=
  (bodyTokens quoting default body).map Token.toLexeme

/-- The **tokens of units do not depend on the place** but in their places. -/
theorem lexemes_bodyTokens (quoting : Quoting) (p : Position) (body : List Atom) :
    (bodyTokens quoting p body).map Token.toLexeme = bodyLexemes quoting body := by
  obtain ⟨tokens, pending⟩ := readBody_sameText .nothing quoting p default body
  rw [bodyLexemes, bodyTokens, bodyTokens, List.map_append, List.map_append, tokens,
    pending.tokens]

end Grammar

/-! ### Plain texts

A plain text has nothing that would end a selector, so it is taken whole in both ways of writing.
The results are compared as options, because the errors are about different windows. -/

/-- Whether tokens are a text that ends nowhere before its end: without bars, blanks and quotes. -/
def IsPlain (tokens : List Token) : Prop :=
  ∀ t ∈ tokens, t.kind ≠ .punct .singleQuote ∧ t.kind ≠ .punct .pipe ∧ t.kind ≠ .blanks

theorem toOption_map {ε α β : Type} (f : α → β) (result : Except ε α) :
    (result.map f).toOption = result.toOption.map f := by
  cases result <;> rfl

namespace MemberPattern

/-- The text of lexemes. -/
def lexemesText (lexemes : List Lexeme) : String :=
  String.ofList (lexemes.flatMap fun l => l.value.toList)

theorem lexemesText_toLexeme (tokens : List Token) (closing : Token) :
    lexemesText (tokens.map Token.toLexeme) = Window.text ⟨tokens, closing⟩ := by
  rw [lexemesText, List.flatMap_map]
  rfl

/-- The regular expression in front of its closing slash, which stands at the end. -/
def regexOf? (body : List Lexeme) : Option MemberPattern :=
  if (body.getLast?.any fun l => l.kind == .punct .slash) ∧ body.dropLast ≠ [] then
    some (.regex (lexemesText body.dropLast))
  else none

/-- The members that a plain text names, where slashes mark a regular expression or do not. -/
def ofPlain? (slashes : Bool) : List Lexeme → Option MemberPattern
  | [] => none
  | first :: rest =>
    if slashes ∧ first.kind = .punct .slash then regexOf? rest
    else some (.key (lexemesText (first :: rest)))

variable {tokens : List Token}

theorem endsSelector_of_isPlain (plain : IsPlain tokens) :
    ∀ t ∈ tokens, endsSelector t = false := by
  intro t member
  obtain ⟨-, notPipe, notBlanks⟩ := plain t member
  simp [endsSelector, Token.isKind, notPipe, notBlanks]

/-- In a plain text nothing but the last slash can close a regular expression. -/
theorem closingSlash?_of_isPlain (plain : IsPlain tokens) :
    closingSlash? tokens =
      if (tokens.getLast?.any fun t => t.isKind (.punct .slash)) then some (tokens.length - 1)
      else none := by
  fun_induction closingSlash? tokens with
  | case1 => rfl
  | case2 t isSlash => simp [isSlash]
  | case3 t noSlash => simp [noSlash]
  | case4 t u rest closes =>
    have goesOn := endsSelector_of_isPlain plain u (by simp)
    simp [goesOn] at closes
  | case5 t u rest goesOn ih =>
    rw [ih fun v member => plain v (List.mem_cons_of_mem t member), List.getLast?_cons_cons]
    split <;> simp

/-- A regular expression between slashes, the second of which ends a plain text.  Inside of a plain
text no slash has a bar or a blank behind it, so only its last one can close. -/
theorem readRegex_of_isPlain (plain : IsPlain tokens) (opening : Position) (closing : Token) :
    (readRegex opening ⟨tokens, closing⟩).toOption =
      (regexOf? (tokens.map Token.toLexeme)).map fun m => (m, ⟨[], closing⟩) := by
  rcases List.eq_nil_or_concat tokens with rfl | ⟨front, last, rfl⟩
  · rfl
  · rw [List.concat_eq_append] at plain ⊢
    have text := lexemesText_toLexeme front last
    have meant : regexOf? ((front ++ [last]).map Token.toLexeme) =
        if last.kind = .punct .slash ∧ front ≠ [] then
          some (.regex (Window.text ⟨front, last⟩)) else none := by
      simp [regexOf?, text]
    have found : closingSlash? (front ++ [last]) =
        if last.kind = .punct .slash then some front.length else none := by
      simpa [Token.isKind] using closingSlash?_of_isPlain plain
    have cut : Window.splitAt ⟨front ++ [last], closing⟩ front.length =
        (⟨front, last⟩, ⟨[last], closing⟩) := by
      simp [Window.splitAt, Window.drop]
    unfold readRegex
    by_cases isSlash : last.kind = .punct .slash
    · rw [found, if_pos isSlash, meant]
      dsimp only
      rw [cut]
      cases front with
      | nil => simp [Window.isEmpty, Except.toOption]
      | cons first front => simp [Window.isEmpty, Except.toOption, isSlash, Window.drop]
    · rw [found, if_neg isSlash, meant, if_neg fun both => isSlash both.1]
      rfl

/-- A key that fills a window. -/
theorem readBareKey_of_isPlain (plain : IsPlain tokens) (closing : Token) :
    readBareKey ⟨tokens, closing⟩ =
      (readKey ⟨tokens, closing⟩).map fun m => (m, ⟨[], closing⟩) := by
  have whole : tokens.takeWhile (fun t => !endsSelector t) = tokens := by
    refine List.takeWhile_eq_self_iff.mpr fun t member => ?_
    rw [endsSelector_of_isPlain plain t member]
    rfl
  have cut : Window.splitAt ⟨tokens, closing⟩ tokens.length =
      (⟨tokens, closing⟩, ⟨[], closing⟩) := by
    simp [Window.splitAt, Window.drop]
  unfold readBareKey
  dsimp only
  rw [whole, cut]
  dsimp only
  cases readKey ⟨tokens, closing⟩ <;> rfl

theorem toOption_readKey (w : Window) :
    (readKey w).toOption = ofPlain? false (w.tokens.map Token.toLexeme) := by
  obtain ⟨tokens, closing⟩ := w
  cases tokens with
  | nil => rfl
  | cons t tokens =>
    have text := lexemesText_toLexeme (t :: tokens) closing
    rw [List.map_cons] at text ⊢
    rw [ofPlain?, if_neg (by simp), text]
    rfl

/-- A text is a regular expression where slashes mark one and it begins with a slash. -/
theorem ofPlain?_of_slash {w : Window} (starts : w.startsWith (.punct .slash) = true) :
    ofPlain? true (w.tokens.map Token.toLexeme) =
      regexOf? ((w.drop 1).tokens.map Token.toLexeme) := by
  obtain ⟨t, rest, tokens, isSlash⟩ := Window.tokens_of_startsWith starts
  rw [Window.drop_tokens, tokens]
  exact if_pos ⟨rfl, isSlash⟩

/-- Everywhere else it is a key. -/
theorem ofPlain?_of_not_slash (slashes : Bool) (w : Window)
    (isKey : ¬ (w.startsWith (.punct .slash) = true ∧ slashes = true)) :
    ofPlain? slashes (w.tokens.map Token.toLexeme) =
      ofPlain? false (w.tokens.map Token.toLexeme) := by
  obtain ⟨tokens, closing⟩ := w
  cases tokens with
  | nil => rfl
  | cons t rest =>
    have noRegex : ¬ (slashes = true ∧ t.kind = .punct .slash) := by
      rintro ⟨allowed, isSlash⟩
      exact isKey ⟨by simp [Window.startsWith, Token.isKind, isSlash], allowed⟩
    rw [List.map_cons, ofPlain?, ofPlain?, if_neg noRegex, if_neg (by simp)]

/-- Where slashes mark nothing, a text means the same unless it begins with one. -/
theorem ofPlain?_eq_iff (slashes : Bool) (lexemes : List Lexeme) :
    ofPlain? slashes lexemes = ofPlain? true lexemes ↔
      ¬ (slashes = false ∧ (lexemes.head?.any fun l => l.kind == .punct .slash) = true) := by
  cases slashes with
  | true => simp
  | false =>
    cases lexemes with
    | nil => simp [ofPlain?]
    | cons first rest =>
      by_cases isSlash : first.kind = .punct .slash
      · have regex : ofPlain? false (first :: rest) ≠ regexOf? rest := by
          rw [ofPlain?, if_neg (by simp), regexOf?]
          split <;> simp
        have marked : ofPlain? true (first :: rest) = regexOf? rest := if_pos ⟨rfl, isSlash⟩
        rw [marked]
        simp [regex, isSlash]
      · simp [ofPlain?, isSlash]

/-- A **plain text without quotes.** -/
theorem read_plain (plain : IsPlain tokens) (subject : Variable) (closing : Token) :
    (MemberPattern.read subject ⟨tokens, closing⟩).toOption =
      (ofPlain? (subject ≠ .builtIn .xml) (tokens.map Token.toLexeme)).map
        fun m => (m, ⟨[], closing⟩) := by
  have noQuote : ¬ Window.startsWith ⟨tokens, closing⟩ (.punct .singleQuote) = true := by
    intro starts
    obtain ⟨t, rest, same, isQuote⟩ := Window.tokens_of_startsWith starts
    have whole : tokens = t :: rest := same
    rw [whole] at plain
    exact (plain t List.mem_cons_self).1 isQuote
  unfold MemberPattern.read
  rw [if_neg noQuote]
  split
  · next isRegex =>
    obtain ⟨starts, notXml⟩ := isRegex
    have rest : IsPlain (tokens.drop 1) := fun t member => plain t (List.mem_of_mem_drop member)
    rw [decide_eq_true notXml, ofPlain?_of_slash starts]
    exact readRegex_of_isPlain rest _ closing
  · next isKey =>
    have same := ofPlain?_of_not_slash (decide (subject ≠ .builtIn .xml)) ⟨tokens, closing⟩
      (by rwa [decide_eq_true_iff])
    rw [readBareKey_of_isPlain plain, toOption_map, toOption_readKey, same]

/-- A plain text between quotes. -/
theorem toOption_readInner (plain : IsPlain tokens) (closing : Token) :
    (readInner ⟨tokens, closing⟩).toOption = ofPlain? true (tokens.map Token.toLexeme) := by
  unfold readInner
  split
  · next starts =>
    have rest : IsPlain (tokens.drop 1) := fun t member => plain t (List.mem_of_mem_drop member)
    have regex := readRegex_of_isPlain rest (Window.position ⟨tokens, closing⟩) closing
    have rule := ofPlain?_of_slash starts
    dsimp only at rule
    rw [rule, Window.drop_tokens]
    show (readRegex _ ⟨tokens.drop 1, closing⟩ >>= _).toOption = _
    cases read : readRegex (Window.position ⟨tokens, closing⟩) ⟨tokens.drop 1, closing⟩ with
    | error e =>
      rw [read] at regex
      exact (Option.map_eq_none_iff.mp regex.symm).symm
    | ok result =>
      rw [read] at regex
      obtain ⟨m, meant, rfl⟩ := Option.map_eq_some_iff.mp regex.symm
      exact meant.symm
  · next noSlash =>
    rw [toOption_readKey]
    exact (ofPlain?_of_not_slash true ⟨tokens, closing⟩ fun both => noSlash both.1).symm

/-- A **plain text in quotes.** -/
theorem read_quoted (plain : IsPlain tokens) (subject : Variable) {opening ending : Token}
    (opens : opening.kind = .punct .singleQuote) (ends : ending.kind = .punct .singleQuote)
    (closing : Token) :
    (MemberPattern.read subject ⟨opening :: (tokens ++ [ending]), closing⟩).toOption =
      (ofPlain? true (tokens.map Token.toLexeme)).map fun m => (m, ⟨[], closing⟩) := by
  have isQuoted : Window.startsWith ⟨opening :: (tokens ++ [ending]), closing⟩
      (.punct .singleQuote) = true := by
    simp [Window.startsWith, Token.isKind, opens]
  have close : Window.index? ⟨tokens ++ [ending], closing⟩ (.punct .singleQuote) =
      some tokens.length := by
    have none : tokens.findIdx? (fun t => t.isKind (.punct .singleQuote)) = none := by
      rw [List.findIdx?_eq_none_iff]
      intro t member
      simpa [Token.isKind] using (plain t member).1
    rw [Window.index?, List.findIdx?_append, none]
    simp [Token.isKind, ends]
  have cut : Window.splitAt ⟨tokens ++ [ending], closing⟩ tokens.length =
      (⟨tokens, ending⟩, ⟨[ending], closing⟩) := by
    simp [Window.splitAt, Window.drop]
  unfold MemberPattern.read
  rw [if_pos isQuoted]
  show (readQuoted opening.position ⟨tokens ++ [ending], closing⟩).toOption = _
  unfold readQuoted
  rw [close]
  dsimp only
  rw [cut, ← toOption_readInner plain ending]
  cases readInner ⟨tokens, ending⟩ <;> rfl

end MemberPattern

/-! ### Selectors

In front of the members stands the name of the collection, which decides whether slashes mark a
regular expression outside of quotes. -/

namespace Selector

/-- A selector that fills a window is what its member text names, for a collection.  The text is the
member of the only selector there is, which is why nothing may be left behind it. -/
theorem toOption_readList {name : Token} (isName : name.kind = .word) {colon : Token}
    (isColon : colon.kind = .punct .colon)
    (collection : (Variable.ofName name.value).isCollection = true) (text : List Token)
    (closing : Token) {member : Option MemberPattern}
    (read : (MemberPattern.read (Variable.ofName name.value) ⟨text, closing⟩).toOption =
      member.map fun m => (m, ⟨[], closing⟩)) :
    (readList ⟨name :: colon :: text, closing⟩).toOption =
      member.map fun m => [⟨.add, Variable.ofName name.value, some m, name.position⟩] := by
  have whole : Window.skipBlanks ⟨name :: colon :: text, closing⟩ =
      ⟨name :: colon :: text, closing⟩ := by
    simp [Window.skipBlanks, Window.dropKinds, isName]
  have mode : readMode ⟨name :: colon :: text, closing⟩ =
      .ok (.add, ⟨name :: colon :: text, closing⟩) := by
    simp [readMode, Window.startsWith, Token.isKind, isName]
  have expected : Window.expect ⟨name :: colon :: text, closing⟩ .word .variableName =
      .ok (name, ⟨colon :: text, closing⟩) := by
    simp [Window.expect, Window.startsWith, Token.isKind, isName, Window.first, Window.drop]
  have behind : Window.startsWith ⟨colon :: text, closing⟩ (.punct .colon) = true := by
    simp [Window.startsWith, Token.isKind, isColon]
  have selector : Selector.read ⟨name :: colon :: text, closing⟩ =
      (MemberPattern.read (Variable.ofName name.value) ⟨text, closing⟩).map fun found =>
        (⟨.add, Variable.ofName name.value, some found.1, name.position⟩, found.2) := by
    unfold Selector.read
    rw [mode]
    simp only [bind, Except.bind, expected, behind, if_pos, collection]
    have rest : Window.drop ⟨colon :: text, closing⟩ 1 = ⟨text, closing⟩ := rfl
    rw [rest]
    cases MemberPattern.read (Variable.ofName name.value) ⟨text, closing⟩ <;> rfl
  rw [readList, whole, readOnto_eq, selector]
  cases found : MemberPattern.read (Variable.ofName name.value) ⟨text, closing⟩ with
  | error e =>
    rw [found] at read
    obtain rfl := Option.map_eq_none_iff.mp read.symm
    rfl
  | ok result =>
    rw [found] at read
    obtain ⟨m, rfl, rfl⟩ := Option.map_eq_some_iff.mp read.symm
    rfl

/-- A selector whose member text is plain. -/
theorem readList_plain {name : Token} (isName : name.kind = .word) (colon : Token)
    (isColon : colon.kind = .punct .colon)
    (collection : (Variable.ofName name.value).isCollection = true) {text : List Token}
    (plain : IsPlain text) (closing : Token) :
    (readList ⟨name :: colon :: text, closing⟩).toOption =
      (MemberPattern.ofPlain? (Variable.ofName name.value ≠ .builtIn .xml)
        (text.map Token.toLexeme)).map
          fun m => [⟨.add, Variable.ofName name.value, some m, name.position⟩] :=
  toOption_readList isName isColon collection text closing
    (MemberPattern.read_plain plain _ closing)

/-- A selector whose member text is plain and stands in quotes. -/
theorem readList_quoted {name : Token} (isName : name.kind = .word) (colon opening ending : Token)
    (isColon : colon.kind = .punct .colon) (opens : opening.kind = .punct .singleQuote)
    (ends : ending.kind = .punct .singleQuote)
    (collection : (Variable.ofName name.value).isCollection = true) {text : List Token}
    (plain : IsPlain text) (closing : Token) :
    (readList ⟨name :: colon :: opening :: (text ++ [ending]), closing⟩).toOption =
      (MemberPattern.ofPlain? true (text.map Token.toLexeme)).map
        fun m => [⟨.add, Variable.ofName name.value, some m, name.position⟩] :=
  toOption_readList isName isColon collection _ closing
    (MemberPattern.read_quoted plain _ opens ends closing)

/-- **Quotes make no difference** to a plain member text of a collection, unless the collection is
XML and the text begins with a slash.  There it is a path without quotes, and in quotes it is taken
for a regular expression. -/
theorem readList_quoted_iff (quoting : Lexer.Quoting) (p : Position) {name : List Grammar.Atom}
    {v : String} (named : Grammar.bodyLexemes quoting name = [⟨.word, v⟩])
    (collection : (Variable.ofName v).isCollection = true) (k : List Grammar.Atom)
    (plain : ∀ l ∈ Grammar.bodyLexemes quoting k,
      l.kind ≠ .punct .singleQuote ∧ l.kind ≠ .punct .pipe ∧ l.kind ≠ .blanks)
    (closing closing' : Token) :
    (readList ⟨Grammar.bodyTokens quoting p (name ++ .char ':' :: k), closing⟩).toOption =
        (readList ⟨Grammar.bodyTokens quoting p
          (name ++ .char ':' :: .char '\'' :: (k ++ [.char '\''])), closing'⟩).toOption ↔
      ¬ (Variable.ofName v = .builtIn .xml ∧
        ((Grammar.bodyLexemes quoting k).head?.any fun l => l.kind == .punct .slash) = true) := by
  obtain ⟨t, tokens, isName, rfl⟩ : ∃ t, Grammar.bodyTokens quoting p name = [t] ∧
      t.kind = .word ∧ t.value = v := by
    have lexemes := Grammar.lexemes_bodyTokens quoting p name
    rw [named] at lexemes
    obtain ⟨t, single, lexeme⟩ := List.map_eq_singleton_iff.mp lexemes
    exact ⟨t, single, congrArg Lexeme.kind lexeme, congrArg Lexeme.value lexeme⟩
  have plainAt (q : Position) : IsPlain (Grammar.bodyTokens quoting q k) := by
    intro t member
    refine plain t.toLexeme ?_
    rw [← Grammar.lexemes_bodyTokens quoting q k]
    exact List.mem_map_of_mem member
  have colon : Punct.ofChar? ':' = some .colon := by decide
  have quote : Punct.ofChar? '\'' = some .singleQuote := by decide
  have bare := Grammar.bodyTokens_append_punct quoting p name colon k
  have quoted := Grammar.bodyTokens_append_punct quoting p name colon
    (.char '\'' :: (k ++ [.char '\'']))
  have nothing (q : Position) : Grammar.bodyTokens quoting q [] = [] := rfl
  rw [Grammar.bodyTokens_punct quoting _ quote,
    Grammar.bodyTokens_append_punct quoting _ k quote [], nothing] at quoted
  rw [bare, quoted, tokens]
  have apart : Function.Injective fun m =>
      [Selector.mk .add (Variable.ofName t.value) (some m) t.position] := by
    intro m m' same
    simpa using same
  rw [List.singleton_append, List.singleton_append,
    readList_plain isName (Lexer.token (.punct .colon) _ _) rfl collection (plainAt _),
    readList_quoted isName (Lexer.token (.punct .colon) _ _)
      (Lexer.token (.punct .singleQuote) _ _) (Lexer.token (.punct .singleQuote) _ _) rfl rfl rfl
      collection (plainAt _),
    Grammar.lexemes_bodyTokens, Grammar.lexemes_bodyTokens, (Option.map_injective apart).eq_iff,
    MemberPattern.ofPlain?_eq_iff, decide_eq_false_iff_not, not_not]

/-- A regular expression on the names of arguments, with and without quotes. -/
theorem readList_quoted_iff_args :
    ∃ (name k : List Grammar.Atom) (closing closing' : Token),
      Grammar.bodySource (name ++ .char ':' :: k) = "ARGS:/a/".toList ∧
      Grammar.bodySource (name ++ .char ':' :: .char '\'' :: (k ++ [.char '\''])) =
        "ARGS:'/a/'".toList ∧
      (readList
          ⟨Grammar.bodyTokens .bare ⟨none, 1, 9⟩ (name ++ .char ':' :: k), closing⟩).toOption =
        (readList ⟨Grammar.bodyTokens .bare ⟨none, 1, 9⟩
          (name ++ .char ':' :: .char '\'' :: (k ++ [.char '\''])), closing'⟩).toOption := by
  have collection : (Variable.ofName "ARGS").isCollection = true := by decide +kernel
  have notXml : Variable.ofName "ARGS" ≠ .builtIn .xml := by decide +kernel
  have agree := readList_quoted_iff .bare ⟨none, 1, 9⟩
    (show Grammar.bodyLexemes .bare [.char 'A', .char 'R', .char 'G', .char 'S'] =
      [⟨.word, "ARGS"⟩] by decide +kernel)
    collection [.char '/', .char 'a', .char '/'] (by decide +kernel)
    (Lexer.token .argumentStop "" ⟨none, 1, 17⟩) (Lexer.token .argumentStop "" ⟨none, 1, 19⟩)
  exact ⟨_, _, _, _, by decide +kernel, by decide +kernel, agree.mpr fun xml => notXml xml.1⟩

/-- A path expression as a member of XML, without quotes and in quotes: the first is a key, and the
second lacks the end of a regular expression. -/
theorem readList_quoted_xml :
    Document.parse "" "SecRule XML:/* \"@rx a\"" =
      .ok ⟨"", [.directive ⟨.rule ⟨[⟨.add, .builtIn .xml, some (.key "/*"), ⟨none, 1, 9⟩⟩],
        ⟨.regex "a", false, ⟨none, 1, 17⟩⟩, []⟩, ⟨none, 1, 1⟩⟩]⟩ ∧
    Document.parse "" "SecRule XML:'/*' \"@rx a\"" =
      .error (.structural ⟨.unclosedRegex, ⟨none, 1, 14⟩⟩) := by
  decide +kernel

end Selector

end WafRules
