import WafRules.Proofs.Dump
import WafRules.Proofs.OperatorTexts
import WafRules.Proofs.SelectorForms

/-!
# Selectors from their written form

What selectors are written as has their names in one spelling and a bar without blanks between any
two of them.  Read again from there they are the same selectors: a name is read to the variable it
was the name of, members are the tokens they were before, and the bar ends every selector as well
as blanks or the end of the argument did.

Only continuations leave their mark on the tokens of an argument, by cutting the blanks around them
in two, and only the pattern of a regular expression can hold blanks.  With the blanks joined again
it has the text it had, and a slash is in front of blanks where it was in front of blanks before, so
that the pattern ends at the same slash.

## Main Definitions

* `joined` — tokens with every run of blanks as one token.
* `Selector.ruleText` — a rule with selectors in quotes.

## Main Statements

* `Loose.tidy_joined` — loose tokens are tidy once their blanks are joined.
* `Variable.ofName_name` — a name is read to the variable it is the name of.
* `Selector.Written.exists_tidy` — the tokens that say a selector as it is written.
* `Selector.readList_render` — lists of selectors are read again.
-/

namespace WafRules

open Grammar (Atom Style bodyTokens)
open Lexer (token)
open Pattern (Paired Writes escaped)

/-! ### Blanks that are joined

Joining blanks is done on lexemes, by one step for each of them, and each fact about the result is
an induction with the cases of that step: what it says, what it begins with, what stands side by
side. -/

/-- Joining a lexeme to others keeps them, or makes one of two runs of blanks. -/
theorem joinBlanks_cases (first : Lexeme) (rest : List Lexeme) :
    (joinBlanks first rest = first :: rest ∧
      ∀ second ∈ rest.head?, ¬ (first.kind = .blanks ∧ second.kind = .blanks)) ∨
    ∃ second others, rest = second :: others ∧ first.kind = .blanks ∧ second.kind = .blanks ∧
      joinBlanks first rest = ⟨.blanks, first.value ++ second.value⟩ :: others := by
  cases rest with
  | nil => exact .inl ⟨rfl, nofun⟩
  | cons second others =>
    by_cases join : first.kind = .blanks ∧ second.kind = .blanks
    · exact .inr ⟨second, others, rfl, join.1, join.2, if_pos join⟩
    · refine .inl ⟨if_neg join, ?_⟩
      rintro _ ⟨⟩
      exact join

theorem mergeBlanks_cons (first : Lexeme) (rest : List Lexeme) :
    mergeBlanks (first :: rest) = joinBlanks first (mergeBlanks rest) := rfl

/-- Joined blanks say what they said before. -/
theorem flatMap_mergeBlanks (lexemes : List Lexeme) :
    ((mergeBlanks lexemes).flatMap fun l => l.value.toList) =
      lexemes.flatMap fun l => l.value.toList := by
  induction lexemes with
  | nil => rfl
  | cons first rest ih =>
    rw [mergeBlanks_cons, List.flatMap_cons, ← ih]
    rcases joinBlanks_cases first (mergeBlanks rest) with
      ⟨kept, -⟩ | ⟨second, others, merged, -, -, joined⟩
    · rw [kept, List.flatMap_cons]
    · rw [joined, merged]
      simp

/-- What holds of lexemes holds of them with joined blanks, if it holds of joined blanks. -/
theorem forall_mem_mergeBlanks {P : Lexeme → Prop}
    (joins : ∀ first second, P ⟨.blanks, first⟩ → P ⟨.blanks, second⟩ →
      P ⟨.blanks, first ++ second⟩)
    {lexemes : List Lexeme} (all : ∀ l ∈ lexemes, P l) : ∀ l ∈ mergeBlanks lexemes, P l := by
  induction lexemes with
  | nil => exact nofun
  | cons first rest ih =>
    obtain ⟨here, later⟩ := List.forall_mem_cons.mp all
    have merged := ih later
    rw [mergeBlanks_cons]
    rcases joinBlanks_cases first (mergeBlanks rest) with
      ⟨kept, -⟩ | ⟨⟨_, second⟩, others, split, isBlanks, rfl, joined⟩
    · rw [kept]
      exact List.forall_mem_cons.mpr ⟨here, merged⟩
    · rw [joined]
      rw [split] at merged
      obtain ⟨_, first⟩ := first
      obtain rfl := isBlanks
      obtain ⟨next, behind⟩ := List.forall_mem_cons.mp merged
      exact List.forall_mem_cons.mpr ⟨joins first second here next, behind⟩

/-- The first kind stays. -/
theorem head?_mergeBlanks (lexemes : List Lexeme) :
    (mergeBlanks lexemes).head?.map Lexeme.kind = lexemes.head?.map Lexeme.kind := by
  cases lexemes with
  | nil => rfl
  | cons first rest =>
    rw [mergeBlanks_cons]
    rcases joinBlanks_cases first (mergeBlanks rest) with
      ⟨kept, -⟩ | ⟨second, others, -, isBlanks, -, joined⟩
    · rw [kept]
      rfl
    · rw [joined]
      exact congrArg some isBlanks.symm

/-- Kinds that may stand side by side do so with joined blanks as well. -/
theorem isChain_mergeBlanks {R : Token.Kind → Token.Kind → Prop} {lexemes : List Lexeme}
    (chain : (lexemes.map Lexeme.kind).IsChain R) :
    ((mergeBlanks lexemes).map Lexeme.kind).IsChain R := by
  induction lexemes with
  | nil => exact chain
  | cons first rest ih =>
    have merged := ih chain.tail
    rw [mergeBlanks_cons]
    rcases joinBlanks_cases first (mergeBlanks rest) with
      ⟨kept, -⟩ | ⟨second, others, split, -, isBlanks, joined⟩
    · rw [kept]
      refine merged.cons fun kind next => (List.isChain_cons.mp chain).1 kind ?_
      rwa [List.head?_map, head?_mergeBlanks, ← List.head?_map] at next
    · rw [joined]
      rw [split] at merged
      rw [List.map_cons] at merged ⊢
      rwa [isBlanks] at merged

/-- No two runs of joined blanks stand side by side. -/
theorem apart_mergeBlanks (lexemes : List Lexeme) :
    Apart .blanks ((mergeBlanks lexemes).map Lexeme.kind) := by
  induction lexemes with
  | nil => exact .nil
  | cons first rest ih =>
    rw [mergeBlanks_cons]
    rcases joinBlanks_cases first (mergeBlanks rest) with
      ⟨kept, apart⟩ | ⟨second, others, split, -, isBlanks, joined⟩
    · rw [kept]
      refine List.IsChain.cons ih fun kind next => ?_
      rw [List.head?_map] at next
      obtain ⟨second, isSecond, rfl⟩ := Option.mem_map.mp next
      exact apart second isSecond
    · rw [joined]
      rw [split] at ih
      rw [List.map_cons] at ih ⊢
      rwa [isBlanks] at ih

/-! ### Tokens whose blanks are joined

Loose tokens differ from tidy ones in blanks that stand side by side and in nothing else.  So they
are tidy once these are joined, and what they say is unchanged. -/

/-- The tokens with every run of blanks as one token, at no place. -/
def joined (tokens : List Token) : List Token :=
  (mergeBlanks (tokens.map Token.toLexeme)).map fun lexeme => ⟨lexeme, default⟩

theorem tokenKinds_joined (tokens : List Token) :
    tokenKinds (joined tokens) = (mergeBlanks (tokens.map Token.toLexeme)).map Lexeme.kind :=
  List.map_map ..

theorem flatMap_joined (tokens : List Token) :
    ((joined tokens).flatMap fun t => t.value.toList) = tokens.flatMap fun t => t.value.toList := by
  rw [joined, List.flatMap_map]
  exact (flatMap_mergeBlanks _).trans (List.flatMap_map ..)

theorem joined_ne_nil {tokens : List Token} (nonempty : tokens ≠ []) : joined tokens ≠ [] := by
  obtain ⟨t, tokens, rfl⟩ := List.exists_cons_of_ne_nil nonempty
  intro none
  have first := head?_mergeBlanks ((t :: tokens).map Token.toLexeme)
  rw [List.map_eq_nil_iff.mp none] at first
  cases first

/-- Kinds that may stand side by side do so in joined tokens as well. -/
theorem isChain_joined {R : Token.Kind → Token.Kind → Prop} {tokens : List Token}
    (chain : (tokenKinds tokens).IsChain R) : (tokenKinds (joined tokens)).IsChain R := by
  rw [tokenKinds_joined]
  refine isChain_mergeBlanks ?_
  rwa [List.map_map]

/-- **Loose tokens are tidy** once they are joined.  Joining is what a second reading does with
blanks that a continuation has cut. -/
theorem Loose.tidy_joined {tokens : List Token} (loose : Loose tokens) : Tidy (joined tokens) := by
  have sound : ∀ l ∈ mergeBlanks (tokens.map Token.toLexeme),
      Style.quoted.Holds ⟨l, default⟩ ∧ Paired l.value.toList ∧ '\n' ∉ l.value.toList := by
    refine forall_mem_mergeBlanks ?_ (List.forall_mem_map.mpr fun t member =>
      ⟨loose.holds t member, loose.paired t member, loose.oneLine t member⟩)
    rintro first second ⟨⟨some, -, blanks⟩, paired, oneLine⟩ ⟨⟨-, -, blanks'⟩, paired', oneLine'⟩
    have text : (first ++ second).toList = first.toList ++ second.toList := String.toList_append
    refine ⟨⟨fun empty => some ?_, rfl, ?_⟩, ?_, ?_⟩
    · exact (String.append_eq_empty_iff.mp empty).1
    · show ∀ c ∈ (first ++ second).toList, Text.isBlank c = true
      rw [text]
      exact List.forall_mem_append.mpr ⟨blanks, blanks'⟩
    · show Paired (first ++ second).toList
      rw [text]
      exact paired.append paired'
    · show '\n' ∉ (first ++ second).toList
      rw [text]
      exact List.not_mem_append oneLine oneLine'
  refine Loose.tidy ⟨?_, ?_, ?_, isChain_joined loose.wordsApart⟩ ?_
  · exact List.forall_mem_map.mpr fun l member => (sound l member).1
  · exact List.forall_mem_map.mpr fun l member => (sound l member).2.1
  · exact List.forall_mem_map.mpr fun l member => (sound l member).2.2
  · rw [tokenKinds_joined]
    exact apart_mergeBlanks _

/-! ### Names

A variable is found by its name in any case, and its own name is one of those.  For a collection of
the user this asks that it is not called like a built-in variable. -/

namespace BuiltIn

/-- The letters of the name of a built-in variable stand in words, and none is in lower case. -/
theorem name_letters (v : BuiltIn) :
    v.name.toList ≠ [] ∧ ∀ c ∈ v.name.toList, Grammar.StandsInWord c ∧ c.toLower.toUpper = c := by
  have letters : v.name.toList ≠ [] ∧
      v.name.toList.Forall fun c => Grammar.StandsInWord c ∧ c.toLower.toUpper = c := by
    cases v <;> (dsimp only [name]; decide +kernel)
  exact letters.imp_right List.forall_iff_forall_mem.mp

/-- Built-in variables whose names differ in case only are the same. -/
theorem eq_of_foldCase_eq {v other : BuiltIn}
    (same : Text.foldCase v.name = Text.foldCase other.name) : v = other := by
  have upper (v : BuiltIn) : (Text.foldCase v.name).map Char.toUpper = v.name.toList := by
    rw [Text.foldCase, List.map_map]
    exact (List.map_congr_left fun c member => (v.name_letters.2 c member).2).trans (List.map_id _)
  apply name_injective
  rw [← String.toList_inj, ← upper v, ← upper other, same]

end BuiltIn

namespace Variable

/-- A **name is read to the variable** it is the name of. -/
theorem ofName_name (text : String) : ofName (ofName text).name = ofName text := by
  cases read : ofName text with
  | builtIn v =>
    have found : Text.keyword? BuiltIn.name BuiltIn.all v.name = some v :=
      (Text.keyword?_eq_some_iff fun _ _ _ _ => BuiltIn.eq_of_foldCase_eq).mpr ⟨v.mem_all, rfl⟩
    rw [name, ofName, found]
  | user name =>
    obtain ⟨rfl, -⟩ := (ofName_eq_user_iff text name).mp read
    exact read

/-- The **name of a variable is written** as a word from which the variable is read. -/
theorem Written.exists_tidy {subject : Variable} {name : Token} (named : subject.Written name)
    (loose : Loose [name]) :
    ∃ name', subject.Written name' ∧ Tidy [name'] ∧ name'.value = subject.name := by
  obtain ⟨⟨kind, value⟩, position⟩ := name
  obtain ⟨isName, rfl⟩ := named
  obtain rfl : kind = .word := isName
  show ∃ name', (ofName value).Written name' ∧ Tidy [name'] ∧ name'.value = (ofName value).name
  refine ⟨token .word (ofName value).name default, ⟨rfl, ofName_name value⟩, ?_, rfl⟩
  cases read : ofName value with
  | builtIn v =>
    obtain ⟨nonempty, letters⟩ := v.name_letters
    exact Tidy.nil.cons_word nonempty (fun c member => (letters c member).1) nofun default
  | user name =>
    obtain ⟨rfl, -⟩ := (ofName_eq_user_iff value name).mp read
    have holds := loose.holds _ List.mem_cons_self
    have paired := loose.paired _ List.mem_cons_self
    have oneLine := loose.oneLine _ List.mem_cons_self
    exact ⟨List.forall_mem_singleton.mpr holds, List.forall_mem_singleton.mpr paired,
      List.forall_mem_singleton.mpr oneLine, .singleton _⟩

end Variable

/-! ### Selectors that are written again

For each part of a selector there are tokens that say it as it is written, that are tidy, and that
the reader of the part takes for it.  The bar between selectors is a mark and joins with nothing. -/

/-- Tokens of the **written form of members**, from which they are read.  A key holds no blanks and
is kept token by token; in a pattern blanks are joined, and the slashes are written anew. -/
theorem MemberPattern.Written.exists_tidy {subject : Variable} {tokens : List Token}
    {m : MemberPattern} (written : Written subject tokens m) (loose : Loose tokens) :
    ∃ tokens', Written subject tokens' m ∧ Tidy tokens' ∧
      (tokens'.flatMap fun t => t.value.toList) = m.render.toList := by
  cases written with
  | key nonempty goesOn noQuote noSlash =>
    have noBlanks : ∀ kind ∈ tokenKinds tokens, kind ≠ .blanks := by
      refine List.forall_mem_map.mpr fun t member isBlanks => ?_
      have ended := goesOn t member
      simp [endsSelector, Token.isKind, isBlanks] at ended
    have apart : Apart .blanks (tokenKinds tokens) :=
      List.Pairwise.isChain (List.pairwise_of_forall_mem_list fun kind member _ _ both =>
        noBlanks kind member both.1)
    exact ⟨tokens, .key nonempty goesOn noQuote noSlash, loose.tidy apart,
      String.toList_ofList.symm⟩
  | @regex opening closing pattern notXml opens closes nonempty stays =>
    have within : pattern <:+: opening :: (pattern ++ [closing]) := ⟨[opening], [closing], rfl⟩
    have tidy := (loose.of_infix within).tidy_joined
    have text : tokensText (joined pattern) = tokensText pattern :=
      congrArg String.ofList (flatMap_joined pattern)
    -- which slashes close the pattern is known from the kinds of the tokens
    have kinds (tokens : List Token) : StaysOpen tokens ↔
        (tokenKinds tokens).IsChain fun kind next =>
          ¬ (kind = .punct .slash ∧ (next = .punct .pipe ∨ next = .blanks)) := by
      rw [tokenKinds, List.isChain_map]
      simp [StaysOpen, Closes, endsSelector, Token.isKind]
    refine ⟨token (.punct .slash) "/" default :: (joined pattern ++
      [token (.punct .slash) "/" default]), ?_, ?_, ?_⟩
    · rw [← text]
      exact .regex notXml rfl rfl (joined_ne_nil nonempty)
        ((kinds _).mpr (isChain_joined ((kinds _).mp stays)))
    · exact (tidy.append_mark .nil .slash default).cons_mark .slash default
    · rw [List.flatMap_cons, List.flatMap_append, flatMap_joined]
      simp [MemberPattern.render, tokensText, token]

/-- Tokens of the sign of a mode, which stands in front of anything. -/
theorem SelectorMode.exists_sign (mode : SelectorMode) :
    ∃ sign, mode.Written sign ∧ (sign.flatMap fun t => t.value.toList) = mode.sign.toList ∧
      ∀ tokens, Tidy tokens → Tidy (sign ++ tokens) := by
  cases mode with
  | add => exact ⟨[], rfl, rfl, fun _ => id⟩
  | remove =>
    exact ⟨[token (.punct .exclamation) "!" default], ⟨_, rfl, rfl⟩, rfl,
      fun tokens tidy => tidy.cons_mark .exclamation default⟩
  | count =>
    exact ⟨[token (.punct .ampersand) "&" default], ⟨_, rfl, rfl⟩, rfl,
      fun tokens tidy => tidy.cons_mark .ampersand default⟩

namespace Selector

/-- Tokens of the **written form of a selector**, from which it is read. -/
theorem Written.exists_tidy {tokens : List Token} {s : Selector} (written : Written tokens s)
    (loose : Loose tokens) :
    ∃ tokens', Written tokens' s ∧ Tidy tokens' ∧
      (tokens'.flatMap fun t => t.value.toList) = s.render.toList := by
  cases written with
  | @whole mode subject sign name signed named p =>
    obtain ⟨sign', signed', said, inFront⟩ := mode.exists_sign
    obtain ⟨name', named', tidy, value⟩ :=
      named.exists_tidy (loose.of_infix (List.suffix_append sign [name]).isInfix)
    refine ⟨sign' ++ [name'], .whole signed' named' p, inFront _ tidy, ?_⟩
    rw [List.flatMap_append, said, List.flatMap_singleton, value]
    simp [render]
  | @members mode subject member sign tokens name colon signed named isColon collection written p =>
    obtain ⟨sign', signed', said, inFront⟩ := mode.exists_sign
    have isInfix : [name] <:+: sign ++ name :: colon :: tokens := ⟨sign, colon :: tokens, by simp⟩
    obtain ⟨name', named', tidy, value⟩ := named.exists_tidy (loose.of_infix isInfix)
    have isSuffix : tokens <:+ sign ++ name :: colon :: tokens := ⟨sign ++ [name, colon], by simp⟩
    obtain ⟨tokens', written', tidy', text⟩ :=
      written.exists_tidy (loose.of_infix isSuffix.isInfix)
    have isColon' : (token (.punct .colon) ":" default).kind = .punct .colon := rfl
    refine ⟨_, .members signed' named' isColon' collection written' p,
      inFront _ (tidy.append_mark tidy' .colon default), ?_⟩
    rw [List.flatMap_append, said, List.flatMap_cons, List.flatMap_cons, text, value]
    simp [render, token]

/-- Tokens of the **written form of a list**, from which it is read. -/
theorem exists_tidy_list {selectors : List Selector}
    (forms : ∀ s ∈ selectors, ∃ tokens, Loose tokens ∧ Written tokens s) :
    ∃ runs, List.Forall₂ Written runs selectors ∧ (∀ run ∈ runs, Tidy run) ∧
      runs.map tokensText = selectors.map render := by
  induction selectors with
  | nil => exact ⟨[], .nil, nofun, rfl⟩
  | cons s selectors ih =>
    obtain ⟨⟨tokens, loose, written⟩, others⟩ := List.forall_mem_cons.mp forms
    obtain ⟨run, written, tidy, said⟩ := written.exists_tidy loose
    obtain ⟨runs, later, tidies, texts⟩ := ih others
    refine ⟨run :: runs, .cons written later, List.forall_mem_cons.mpr ⟨tidy, tidies⟩, ?_⟩
    rw [List.map_cons, List.map_cons, texts, tokensText, said, String.ofList_toList]

/-- Tidy tokens with bars between them are tidy. -/
theorem tidy_intercalate {runs : List (List Token)} (tidy : ∀ run ∈ runs, Tidy run) :
    Tidy ([bar].intercalate runs) := by
  induction runs with
  | nil => exact .nil
  | cons run runs ih =>
    obtain ⟨here, later⟩ := List.forall_mem_cons.mp tidy
    cases runs with
    | nil => rwa [List.intercalate_singleton]
    | cons second runs =>
      rw [List.intercalate_cons_cons, List.append_assoc, List.singleton_append]
      exact here.append_mark (ih later) .pipe default

/-- The **tokens that say a list as it is written**, from which it is read whatever closes them. -/
theorem exists_tokens {w : Window} (loose : Loose w.tokens) {list : List Selector}
    (read : readList w = .ok list) (unquoted : NoneQuoted w) :
    ∃ tokens, Tidy tokens ∧ (tokens.flatMap fun t => t.value.toList) = (renderList list).toList ∧
      ∀ closing, ∃ list', readList ⟨tokens, closing⟩ = .ok list' ∧
        relocate Position.forget list' = relocate Position.forget list := by
  obtain ⟨nonempty, forms⟩ := exists_written_of_readList read unquoted
  obtain ⟨runs, written, tidy, texts⟩ := exists_tidy_list fun s member => by
    obtain ⟨tokens, within, written⟩ := forms s member
    exact ⟨tokens, loose.of_infix within, written⟩
  refine ⟨_, tidy_intercalate tidy, ?_, readList_of_written written nonempty⟩
  rw [flatMap_intercalate, texts]
  rfl

/-- Selectors are read from tokens whatever their places are. -/
theorem readList_of_lexemes {tokens tokens' : List Token} {list : List Selector}
    (same : tokens'.map Token.toLexeme = tokens.map Token.toLexeme)
    (read : ∀ closing, ∃ list', readList ⟨tokens, closing⟩ = .ok list' ∧
      relocate Position.forget list' = relocate Position.forget list) (closing : Token) :
    ∃ list', readList ⟨tokens', closing⟩ = .ok list' ∧
      relocate Position.forget list' = relocate Position.forget list := by
  have alike : relocate Position.forget (Window.mk tokens' closing) =
      relocate Position.forget (Window.mk tokens closing) :=
    congrArg (Window.mk · _) (relocate_forget_congr same)
  have moved := congrArg readList alike
  obtain ⟨list', isRead, places⟩ := read closing
  rw [readList_relocate, readList_relocate, isRead] at moved
  cases again : readList ⟨tokens', closing⟩ with
  | error e =>
    rw [again] at moved
    cases moved
  | ok found =>
    rw [again] at moved
    exact ⟨found, rfl, (Except.ok.inj moved).trans places⟩

/-! ### Rules that look at what selectors say

A rule around the written selectors, whose operator is of no interest, brings the statement from
tokens to texts. -/

/-- A text of one rule with selectors in quotes. -/
def ruleText (selectors : List Char) : String := "SecRule \"" ++ String.ofList selectors ++ "\" a"

/-- The arguments of the rule. -/
def rulePieces (body : List Atom) : List Grammar.Piece :=
  [.blank ' ', .quoted body, .blank ' ', .bare 'a' []]

/-- The line of the rule. -/
def ruleLayout (body : List Atom) : Grammar.Layout where
  first := ⟨[], .directive "SecRule".toList (rulePieces body)⟩
  following := []

/-- The tokens of the line. -/
def ruleTokens (file : Option String) (body : List Atom) : DirectiveTokens :=
  { Pattern.ruleTokens file body with
    arguments := Grammar.piecesArguments ⟨file, 1, 8⟩ (rulePieces body) }

theorem ruleLayout_fits {body : List Atom} {cs : List Char} (writes : Writes body cs) :
    (ruleLayout body).Fits := by
  have letters : "SecRule".toList.all Text.isLetter = true := by decide +kernel
  have blank : Text.isBlank ' ' = true := by decide
  have opens : Grammar.OpensArgument 'a' := ⟨by decide, by decide, by decide, by decide⟩
  refine ⟨⟨by simp [ruleLayout], by simp, List.all_eq_true.mp letters, ?_, ?_⟩, trivial⟩
  · intro piece first
    cases first
    trivial
  · exact ⟨blank, writes.fits _, blank, ⟨opens, trivial, nofun⟩, trivial⟩

theorem ruleLayout_source {body : List Atom} {cs : List Char} (writes : Writes body cs) :
    (ruleLayout body).source = (ruleText (escaped cs)).toList := by
  simp [ruleLayout, rulePieces, ruleText, Grammar.Layout.source, Grammar.Line.source,
    Grammar.Content.source, Grammar.Piece.source, Grammar.followingSource, writes.source]

/-- The rule looks at what its selectors are read to. -/
theorem ruleTokens_read (file : Option String) (body : List Atom) :
    ∃ closing place, ∀ list,
      readList ⟨bodyTokens (.quoted ⟨file, 1, 9⟩) ⟨file, 1, 10⟩ body, closing⟩ = .ok list →
      (ruleTokens file body).read =
        .ok ⟨.rule ⟨list, ⟨.regex "a", false, place⟩, []⟩, ⟨file, 1, 1⟩⟩ := by
  have keyword : Directive.Keyword.ofName? "SecRule" = some .rule := by decide +kernel
  obtain ⟨stop, place, stop', arguments⟩ : ∃ stop place stop',
      (ruleTokens file body).arguments.map ArgumentTokens.argument =
        [⟨⟨file, 1, 9⟩, ⟨bodyTokens (.quoted ⟨file, 1, 9⟩) ⟨file, 1, 10⟩ body, stop⟩⟩,
          ⟨place, ⟨[token .word "a" place], stop'⟩⟩] :=
    ⟨_, _, _, rfl⟩
  have pattern : Operator.Kind.readUnsigned ⟨[token .word "a" place], stop'⟩ =
      .ok (.regex "a") := by
    show Except.ok (Operator.Kind.regex (String.ofList ("a".toList ++ []))) = _
    rw [List.append_nil, String.ofList_toList]
  have operator : Operator.read ⟨[token .word "a" place], stop'⟩ =
      .ok ⟨.regex "a", false, place⟩ := Operator.read_unsigned rfl pattern
  refine ⟨stop, place, fun list read => ?_⟩
  unfold DirectiveTokens.read
  rw [show (ruleTokens file body).name.value = "SecRule" from rfl, keyword, arguments]
  dsimp only [Directive.Body.read?, Directive.readRule]
  rw [read]
  dsimp only [bind, Except.bind]
  rw [operator]
  rfl

/-- The **document of the rule** looks at what its selectors are read to. -/
theorem parse_ruleText {body : List Atom} {cs : List Char} (writes : Writes body cs)
    (label : String) :
    ∃ opened p closing place, ∀ list,
      readList ⟨bodyTokens (.quoted opened) p body, closing⟩ = .ok list →
      Document.parse label (ruleText (escaped cs)) =
        .ok ⟨label, [.directive ⟨.rule ⟨list, ⟨.regex "a", false, place⟩, []⟩,
          .start label⟩]⟩ := by
  obtain ⟨last, tokenized⟩ : ∃ last, tokenize label (ruleText (escaped cs)) =
      .ok (entryTokens ((ruleLayout body).entries (.start label)) ++ [last]) :=
    ⟨_, tokenize_eq_ok_iff_layout.mpr
      ⟨ruleLayout body, ruleLayout_fits writes, ruleLayout_source writes, rfl⟩⟩
  have entries : (ruleLayout body).entries (.start label) =
      [.directive (ruleTokens (Position.start label).file body)] := rfl
  obtain ⟨closing, place, reads⟩ := ruleTokens_read (Position.start label).file body
  refine ⟨⟨(Position.start label).file, 1, 9⟩, ⟨(Position.start label).file, 1, 10⟩, closing, place,
    fun list read => ?_⟩
  have readEntry : (EntryTokens.directive (ruleTokens (Position.start label).file body)).read =
      .ok (.directive _) := congrArg (Except.map Item.directive) (reads list read)
  rw [Document.parse_of_entryTokens tokenized, entries, readEntries_cons_ok [] readEntry]
  rfl

/-- **Selectors are read again from their written form.**  That holds of a list in a rule, and of
the written form anywhere in quotes.  The selectors are the same up to places.  Quoted members are
left out, because their quotes are not written again. -/
theorem readList_render {source : List Char} {body : List Token} {stop : Token}
    (argument : QuotedArgument source body stop) {list : List Selector}
    (read : readList ⟨body, stop⟩ = .ok list) (unquoted : NoneQuoted ⟨body, stop⟩) :
    (∀ label, ∃ list' place, Document.parse label (ruleText (escaped (renderList list).toList)) =
        .ok ⟨label, [.directive ⟨.rule ⟨list', ⟨.regex "a", false, place⟩, []⟩, .start label⟩]⟩ ∧
      relocate Position.forget list' = relocate Position.forget list) ∧
    ∀ body' stop', QuotedArgument (escaped (renderList list).toList) body' stop' →
      ∃ list', readList ⟨body', stop'⟩ = .ok list' ∧
        relocate Position.forget list' = relocate Position.forget list := by
  obtain ⟨tokens, tidy, said, again⟩ := exists_tokens argument.loose read unquoted
  obtain ⟨units, writes⟩ := tidy.exists_writes
  rw [← said]
  constructor
  · intro label
    obtain ⟨opened, p, closing, place, parsed⟩ := parse_ruleText writes label
    obtain ⟨list', isRead, places⟩ :=
      readList_of_lexemes (tidy.lexemes_of_writes writes opened p) again closing
    exact ⟨list', place, parsed list' isRead, places⟩
  · intro body' stop' argument'
    exact readList_of_lexemes (tidy.lexemes_of_argument argument') again stop'

/-- A continuation among the blanks of a regular expression, a bar behind blanks, and a double quote
in a key of a collection of the user. -/
theorem readList_render_continued :
    ∃ body stop,
      let list : List Selector :=
        [⟨.add, .builtIn .args, some (.regex "a  b|"), ⟨none, 1, 10⟩⟩,
          ⟨.remove, .user "Mine", some (.key "k\x22y"), ⟨none, 2, 8⟩⟩]
      QuotedArgument "args:/a \\\n b|/ | !Mine:k\\\x22y".toList body stop ∧
      readList ⟨body, stop⟩ = .ok list ∧ NoneQuoted ⟨body, stop⟩ ∧
      renderList list = "ARGS:/a  b|/|!Mine:k\x22y" ∧
      ∃ list' place, Document.parse "" "SecRule \x22ARGS:/a  b|/|!Mine:k\\\x22y\x22 a" =
          .ok ⟨"", [.directive ⟨.rule ⟨list', ⟨.regex "a", false, place⟩, []⟩, .start ""⟩]⟩ ∧
        relocate Position.forget list' = relocate Position.forget list := by
  let start : Token := token .argumentStart "\x22" ⟨none, 1, 9⟩
  let body : List Token :=
    [token .word "args" ⟨none, 1, 10⟩, token (.punct .colon) ":" ⟨none, 1, 14⟩,
      token (.punct .slash) "/" ⟨none, 1, 15⟩, token .word "a" ⟨none, 1, 16⟩,
      token .blanks " " ⟨none, 1, 17⟩, token .blanks " " ⟨none, 2, 1⟩,
      token .word "b" ⟨none, 2, 2⟩, token (.punct .pipe) "|" ⟨none, 2, 3⟩,
      token (.punct .slash) "/" ⟨none, 2, 4⟩, token .blanks " " ⟨none, 2, 5⟩,
      token (.punct .pipe) "|" ⟨none, 2, 6⟩, token .blanks " " ⟨none, 2, 7⟩,
      token (.punct .exclamation) "!" ⟨none, 2, 8⟩, token .word "Mine" ⟨none, 2, 9⟩,
      token (.punct .colon) ":" ⟨none, 2, 13⟩, token .word "k\x22y" ⟨none, 2, 14⟩]
  let stop : Token := token .argumentStop "\x22" ⟨none, 2, 18⟩
  let after : List Token :=
    [token .argumentStart "" ⟨none, 2, 20⟩, token .word "a" ⟨none, 2, 20⟩,
      token .argumentStop "" ⟨none, 2, 21⟩, token .endOfInput "" ⟨none, 2, 21⟩]
  have tokenized : tokenize "" "SecRule \x22args:/a \\\n b|/ | !Mine:k\\\x22y\x22 a" =
      .ok ([token .directive "SecRule" ⟨none, 1, 1⟩] ++ start :: (body ++ stop :: after)) := by
    decide +kernel
  have written : "SecRule \x22args:/a \\\n b|/ | !Mine:k\\\x22y\x22 a".toList =
      "SecRule ".toList ++
        '\x22' :: ("args:/a \\\n b|/ | !Mine:k\\\x22y".toList ++ '\x22' :: " a".toList) := by
    decide
  have argument : QuotedArgument "args:/a \\\n b|/ | !Mine:k\\\x22y".toList body stop :=
    .intro tokenized rfl rfl (by decide) rfl written (by decide) (by decide)
  have read : readList ⟨body, stop⟩ =
      .ok [⟨.add, .builtIn .args, some (.regex "a  b|"), ⟨none, 1, 10⟩⟩,
        ⟨.remove, .user "Mine", some (.key "k\x22y"), ⟨none, 2, 8⟩⟩] := by
    decide +kernel
  have unquoted : NoneQuoted ⟨body, stop⟩ := noneQuoted_of_forall (by decide)
  obtain ⟨parsed, -⟩ := readList_render argument read unquoted
  exact ⟨body, stop, argument, read, unquoted, by decide, parsed ""⟩

end Selector

end WafRules
