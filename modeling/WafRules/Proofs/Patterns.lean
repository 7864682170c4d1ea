import WafRules.Proofs.Entry
import WafRules.Proofs.Grammar.Reading
import WafRules.Proofs.Grammar.Spelling
import WafRules.Proofs.Relocation.Operands

/-!
# Patterns from a text to a rule

A regular expression is cut into words, blanks and marks on the way from a text to a rule, with
its escapes read and its first blank taken for a separator, and is put together again.  Nothing of
it is lost: a rule holds the pattern that its text was written for.

The units of a pattern (`Pattern.Writes`) are what both ways meet at.  They are what the lexer reads
from the written pattern, and they say the pattern; so the tokens between the quotes, whose texts
put together are what the units say, have the pattern as their text.  What remains is the sign, the
name and the one blank behind the name, and whether a pattern without a name could be taken for
one.

## Main Definitions

* `Pattern.Paired` — the patterns that can be written between double quotes.
* `Pattern.escaped`, `Pattern.Writes` — how they are written, and the units that write them.
* `Pattern.ruleText`, `Pattern.ruleDocument` — a text of one rule, and its document.

## Main Statements

* `Pattern.exists_writes` — every such pattern can be written.
* `Operator.Kind.read_rx`, `Pattern.Writes.readUnsigned_implicit` — the tokens of a pattern are
  read as an operator, with its name and without.
* `Document.parse_pattern` — a pattern survives from a text to its document.
-/

namespace WafRules

open Grammar (Atom bodySource bodyText bodyTokens readBody BodyFits Pending styleOf)

namespace Pattern

/-! ### Patterns between quotes

A pattern may have backslashes if they are paired, and quotes, which get a backslash each.  No pair
of the pattern may be of a quote, since the backslash in front of it would be lost. -/

/-- Whether, read from the left, every backslash takes with it a character that is no double
quote. -/
inductive Paired : List Char → Prop
  | nil : Paired []
  | pair {c : Char} {cs : List Char} (notQuote : c ≠ '\x22') (rest : Paired cs) :
      Paired ('\\' :: c :: cs)
  | char {c : Char} {cs : List Char} (notBackslash : c ≠ '\\') (rest : Paired cs) :
      Paired (c :: cs)

/-- The pattern as it is written between double quotes. -/
def escaped (cs : List Char) : List Char :=
  cs.flatMap fun c => if c = '\x22' then ['\\', '\x22'] else [c]

/-- Every character but a double quote is written **as it is**. -/
theorem escaped_cons {c : Char} (notQuote : c ≠ '\x22') (cs : List Char) :
    escaped (c :: cs) = c :: escaped cs := by
  simp [escaped, notQuote]

/-- What is written for a pattern are **its characters and backslashes**. -/
theorem mem_of_mem_escaped {c : Char} {cs : List Char} (member : c ∈ escaped cs) :
    c ∈ cs ∨ c = '\\' := by
  obtain ⟨d, inPattern, written⟩ := List.mem_flatMap.mp member
  split at written
  · next quote =>
    simp only [List.mem_cons, List.not_mem_nil, or_false] at written
    rcases written with rfl | rfl
    · exact .inr rfl
    · exact .inl (quote ▸ inPattern)
  · rw [List.mem_singleton.mp written]
    exact .inl inPattern

/-- Units whose source is a pattern between quotes and that say the pattern. -/
structure Writes (body : List Atom) (cs : List Char) : Prop where
  source : bodySource body = escaped cs
  text : bodyText .quoted body = cs
  fits : ∀ after, BodyFits .quoted ('\x22' :: after) body
  solid : ∀ ending, .continuation ending ∉ body

/-- What is written behind a backslash is no line break, neither alone nor with what follows. -/
theorem not_continues {c : Char} {cs after : List Char} (notLineFeed : c ≠ '\n')
    (oneLine : '\n' ∉ cs) : ¬ Grammar.Continues c (escaped cs ++ '\x22' :: after) := by
  rintro (lineFeed | ⟨-, lineFeed⟩)
  · exact notLineFeed lineFeed
  · cases text : escaped cs with
    | nil => simp [text] at lineFeed
    | cons d ds =>
      obtain rfl : d = '\n' := by simpa [text] using lineFeed
      have member : '\n' ∈ escaped cs := by simp [text]
      rcases mem_of_mem_escaped member with inPattern | backslash
      · exact oneLine inPattern
      · exact absurd backslash (by decide)

/-- A pattern behind one more unit. -/
theorem Writes.cons {atom : Atom} {body : List Atom} (front : List Char) {cs : List Char}
    (writes : Writes body cs) (source : atom.source = escaped front)
    (text : atom.text .quoted = front)
    (fits : ∀ after, atom.Fits .quoted (escaped cs ++ '\x22' :: after))
    (solid : ∀ ending, atom ≠ .continuation ending) : Writes (atom :: body) (front ++ cs) where
  source := by
    rw [Grammar.bodySource_cons, writes.source, source]
    exact List.flatMap_append.symm
  text := by rw [Grammar.bodyText_cons, writes.text, text]
  fits after := by
    refine ⟨?_, writes.fits after⟩
    rw [writes.source]
    exact fits after
  solid ending := by
    intro member
    rcases List.mem_cons.mp member with same | inBody
    · exact solid ending same.symm
    · exact writes.solid ending inBody

/-- A pattern behind a character that stands for itself. -/
theorem Writes.char {body : List Atom} {c : Char} {cs : List Char} (writes : Writes body cs)
    (notLineFeed : c ≠ '\n') (notBackslash : c ≠ '\\') (notQuote : c ≠ '\x22') :
    Writes (.char c :: body) (c :: cs) := by
  refine writes.cons [c] ?_ rfl (fun _ => ⟨notLineFeed, notBackslash, notQuote⟩) ?_
  · exact (escaped_cons notQuote []).symm
  · intro ending same
    cases same

/-- A **pattern can be written.**  The cases are those of its reading from the left.  A backslash is
written by the pair it begins, a double quote by an escape, and any other character by itself. -/
theorem exists_writes {cs : List Char} (paired : Paired cs) (oneLine : '\n' ∉ cs) :
    ∃ body, Writes body cs := by
  induction paired with
  | nil => exact ⟨[], rfl, rfl, fun _ => trivial, by simp⟩
  | @pair c cs notQuote rest ih =>
    simp only [List.mem_cons, not_or] at oneLine
    obtain ⟨-, notLineFeed, others⟩ := oneLine
    obtain ⟨body, writes⟩ := ih others
    refine ⟨.pair c :: body, writes.cons ['\\', c] ?_ ?_ ?_ (fun _ => nofun)⟩
    · rw [escaped_cons (by decide), escaped_cons notQuote]
      rfl
    · exact if_neg fun quote => notQuote quote.2
    · intro after
      exact not_continues (Ne.symm notLineFeed) others
  | @char c cs notBackslash rest ih =>
    simp only [List.mem_cons, not_or] at oneLine
    obtain ⟨notLineFeed, others⟩ := oneLine
    obtain ⟨body, writes⟩ := ih others
    by_cases quote : c = '\x22'
    · subst quote
      refine ⟨.pair '\x22' :: body, writes.cons ['\x22'] rfl rfl ?_ (fun _ => nofun)⟩
      intro after
      exact not_continues (by decide) others
    · exact ⟨.char c :: body, writes.char (Ne.symm notLineFeed) notBackslash quote⟩

end Pattern

/-! ### The tokens of a pattern

Behind the name of the operator stands the blank, and the pattern may begin with blanks itself.
They are one token, and the reader takes off the first blank alone. -/

namespace Grammar

open Lexer (Run Quoting token)

/-- A run of blanks becomes a token with the blanks that follow it, and whatever comes then leaves
it alone. -/
theorem readBody_blanks (quoting : Quoting) (p : Position) (run : Run) (body : List Atom) :
    ∃ more others,
      (readBody quoting p (.blanks run) body).1 ++
          (readBody quoting p (.blanks run) body).2.tokens =
        token .blanks (run.text ++ more) run.start :: others := by
  induction body generalizing p run with
  | nil => exact ⟨"", [], by simp [Pending.tokens, Lexer.blankTokens]⟩
  | cons atom body ih =>
    rw [readBody_cons]
    by_cases joins : ∃ c, atom = .char c ∧ Text.isBlank c = true
    · obtain ⟨c, rfl, blank⟩ := joins
      obtain ⟨more, others, tokens⟩ := ih (p.advance (Atom.char c).source) (run.push c)
      have read : (Atom.char c).read quoting p (.blanks run) = ([], .blanks (run.push c)) :=
        if_pos blank
      refine ⟨c.toString ++ more, others, ?_⟩
      have text : (run.push c).text ++ more = run.text ++ (c.toString ++ more) := by
        rw [← String.toList_inj]
        simp [Run.push]
      rw [read, List.nil_append, tokens, text]
      rfl
    · -- every other unit completes the token
      have complete : ∃ others, (atom.read quoting p (.blanks run)).1 =
          token .blanks run.text run.start :: others := by
        cases atom with
        | char c =>
          have notBlank : ¬ Text.isBlank c = true := fun blank => joins ⟨c, rfl, blank⟩
          cases found : Punct.ofChar? c <;>
            simp [Atom.read, notBlank, found, Pending.tokens, Pending.extend, Lexer.blankTokens]
        | pair c => exact ⟨[], rfl⟩
        | continuation ending => exact ⟨[], rfl⟩
      obtain ⟨others, tokens⟩ := complete
      exact ⟨"", _, by rw [tokens, String.append_empty]; rfl⟩

/-- Units behind other units. -/
theorem readBody_append (quoting : Quoting) (p : Position) (pending : Pending)
    (first second : List Atom) :
    readBody quoting p pending (first ++ second) =
      ((readBody quoting p pending first).1 ++
        (readBody quoting (p.advance (bodySource first)) (readBody quoting p pending first).2
          second).1,
      (readBody quoting (p.advance (bodySource first)) (readBody quoting p pending first).2
        second).2) := by
  induction first generalizing p pending with
  | nil => rfl
  | cons atom first ih =>
    rw [List.cons_append, readBody_cons, ih, readBody_cons, bodySource_cons,
      Position.advance_append, List.append_assoc]

/-- A mark inside an argument cuts its tokens. -/
theorem bodyTokens_append_punct (quoting : Quoting) (p : Position) (first : List Atom) {c : Char}
    {punct : Punct} (found : Punct.ofChar? c = some punct) (body : List Atom) :
    bodyTokens quoting p (first ++ .char c :: body) =
      bodyTokens quoting p first ++
        token (.punct punct) c.toString (p.advance (bodySource first)) ::
          bodyTokens quoting ((p.advance (bodySource first)).next c) body := by
  have notBlank : Text.isBlank c = false := by
    rw [Punct.ofChar?_eq_some_iff.mp found]
    cases punct <;> decide
  have read (q : Position) (pending : Pending) : (Atom.char c).read quoting q pending =
      (pending.tokens ++ [token (.punct punct) c.toString q], .nothing) := by
    simp [Atom.read, notBlank, found]
  rw [bodyTokens, readBody_append, readBody_cons, read, bodyTokens, bodyTokens]
  simp only [List.append_assoc, List.cons_append, List.nil_append]
  rfl

/-- A mark at the start of an argument is a token of its own. -/
theorem bodyTokens_punct (quoting : Quoting) (p : Position) {c : Char} {punct : Punct}
    (found : Punct.ofChar? c = some punct) (body : List Atom) :
    bodyTokens quoting p (.char c :: body) =
      token (.punct punct) c.toString p :: bodyTokens quoting (p.next c) body :=
  bodyTokens_append_punct quoting p [] found body

/-- The first token of units other than continuations stands where they begin. -/
theorem Spelled.exists_first {style : Style} {p : Position} {tokens : List Token}
    {body : List Atom} (spelled : Spelled style p tokens body) (nonempty : body ≠ [])
    (solid : ∀ ending, .continuation ending ∉ body) :
    ∃ t rest, tokens = t :: rest ∧ t.position = p := by
  cases spelled with
  | nil p => exact absurd rfl nonempty
  | skip ending rest => exact absurd List.mem_cons_self (solid ending)
  | take placed takes rest => exact ⟨_, _, rfl, placed⟩

/-- The tokens of a pattern behind the name of its operator.  The name is a word and the blank is a
token of its own, so the pattern is what the tokens behind them say. -/
theorem bodyTokens_rx (quoting : Quoting) (p : Position) {w : Char}
    (blank : Text.isBlank w = true) (body : List Atom) :
    ∃ more others,
      bodyTokens quoting p (.char '@' :: .char 'r' :: .char 'x' :: .char w :: body) =
        token (.punct .atSign) "@" p :: token .word "rx" (p.next '@') ::
          token .blanks (w.toString ++ more) (((p.next '@').next 'r').next 'x') :: others := by
  -- the blank completes the name and stays pending, because the pattern may start with blanks
  have letters : readBody quoting (p.next '@') .nothing
      (.char 'r' :: .char 'x' :: .char w :: body) =
      (token .word "rx" (p.next '@') ::
        (readBody quoting ((((p.next '@').next 'r').next 'x').next w)
          (.blanks ⟨((p.next '@').next 'r').next 'x', w.toString⟩) body).1,
      (readBody quoting ((((p.next '@').next 'r').next 'x').next w)
          (.blanks ⟨((p.next '@').next 'r').next 'x', w.toString⟩) body).2) := by
    have first : (Atom.char 'r').read quoting (p.next '@') .nothing =
        ([], .word ⟨p.next '@', "r"⟩) := rfl
    have second : (Atom.char 'x').read quoting ((p.next '@').next 'r') (.word ⟨p.next '@', "r"⟩) =
        ([], .word ⟨p.next '@', "rx"⟩) := rfl
    have third : (Atom.char w).read quoting (((p.next '@').next 'r').next 'x')
        (.word ⟨p.next '@', "rx"⟩) =
        ([token .word "rx" (p.next '@')],
          .blanks ⟨((p.next '@').next 'r').next 'x', w.toString⟩) := if_pos blank
    simp only [readBody_cons, Atom.source, Position.advance_cons, Position.advance_nil, first,
      second, third, List.nil_append, List.singleton_append]
  obtain ⟨more, others, tokens⟩ := readBody_blanks quoting
    ((((p.next '@').next 'r').next 'x').next w) ⟨((p.next '@').next 'r').next 'x', w.toString⟩ body
  refine ⟨more, others, ?_⟩
  rw [bodyTokens_punct quoting p (by decide : Punct.ofChar? '@' = some .atSign), bodyTokens,
    letters, List.cons_append, tokens]
  rfl

end Grammar

/-! ### Operators

The readers of the tokens of a pattern, and the rule around them. -/

namespace Operator

/-- The operator behind its exclamation mark, if it has one. -/
def Kind.readUnsigned (w : Window) : Except SyntaxError Kind :=
  if w.startsWith (.punct .atSign) then Kind.read (w.drop 1) else .ok (.regex w.text)

/-- The sign and what stands behind it are read apart. -/
theorem read_eq (w : Window) :
    Operator.read w =
      (fun kind => ⟨kind, w.startsWith (.punct .exclamation), w.position⟩) <$>
        Kind.readUnsigned (if w.startsWith (.punct .exclamation) then w.drop 1 else w) := by
  unfold Operator.read Kind.readUnsigned
  dsimp only
  generalize (if w.startsWith (.punct .exclamation) then w.drop 1 else w) = rest
  by_cases mark : rest.startsWith (.punct .atSign) = true
  · rw [if_pos mark, if_pos mark]
    rfl
  · rw [if_neg mark, if_neg mark]
    rfl

/-- An operator **without a sign** in front stands where its window starts. -/
theorem read_unsigned {w : Window} {kind : Kind}
    (unsigned : w.startsWith (.punct .exclamation) = false)
    (read : Kind.readUnsigned w = .ok kind) : Operator.read w = .ok ⟨kind, false, w.position⟩ := by
  rw [read_eq, unsigned]
  show _ <$> Kind.readUnsigned w = _
  rw [read]
  rfl

/-- An operator **with a sign** in front stands at the sign. -/
theorem read_negated {mark : Token} (isMark : mark.kind = .punct .exclamation)
    {rest : List Token} {closing : Token} {kind : Kind}
    (read : Kind.readUnsigned ⟨rest, closing⟩ = .ok kind) :
    Operator.read ⟨mark :: rest, closing⟩ = .ok ⟨kind, true, mark.position⟩ := by
  have negated : Window.startsWith ⟨mark :: rest, closing⟩ (.punct .exclamation) = true := by
    simp [Window.startsWith, Token.isKind, isMark]
  rw [read_eq, negated]
  show _ <$> Kind.readUnsigned ⟨rest, closing⟩ = _
  rw [read]
  rfl

/-- A **pattern behind its operator.**  Of the blanks after the name the first one separates, and
the others belong to the pattern. -/
theorem Kind.read_rx {name blanks : Token} (isName : name.kind = .word) (isRx : name.value = "rx")
    (isBlanks : blanks.kind = .blanks) {others : List Token} {closing : Token} {cs : List Char}
    (nonempty : cs ≠ [])
    (text : blanks.value.toList.drop 1 ++ others.flatMap (fun t => t.value.toList) = cs) :
    Kind.read ⟨name :: blanks :: others, closing⟩ = .ok (.regex (String.ofList cs)) := by
  have named : Window.expect ⟨name :: blanks :: others, closing⟩ .word .operatorName =
      .ok (name, ⟨blanks :: others, closing⟩) := by
    simp [Window.expect, Window.startsWith, Token.isKind, isName, Window.first, Window.drop]
  have operand : Operand.ofWindow name ⟨blanks :: others, closing⟩ =
      .ok ⟨name, String.ofList (blanks.value.toList.drop 1), ⟨others, closing⟩⟩ := by
    simp [Operand.ofWindow, Window.isEmpty, Window.startsWith, Token.isKind, isBlanks,
      Window.first, Window.drop]
  have joined : String.ofList (blanks.value.toList.drop 1) ++ Window.text ⟨others, closing⟩ =
      String.ofList cs := by
    rw [← text, String.ofList_append]
    rfl
  have verbatim : Operand.verbatim
      ⟨name, String.ofList (blanks.value.toList.drop 1), ⟨others, closing⟩⟩ =
        .ok (String.ofList cs) := by
    unfold Operand.verbatim
    dsimp only
    rw [joined, if_neg]
    rw [String.isEmpty_iff]
    simpa using nonempty
  have reader : Text.lookup? Kind.readers "rx" = some fun o => .regex <$> o.verbatim := rfl
  simp only [Kind.read, named, operand, isRx, reader, bind, Except.bind]
  show Kind.regex <$> Operand.verbatim _ = _
  rw [verbatim]
  rfl

end Operator

/-- A name alone is a selector of everything it names. -/
theorem Selector.readList_word {name : Token} (isWord : name.kind = .word) (closing : Token) :
    Selector.readList ⟨[name], closing⟩ =
      .ok [⟨.add, Variable.ofName name.value, none, name.position⟩] := by
  obtain ⟨⟨kind, value⟩, position⟩ := name
  obtain rfl : kind = .word := isWord
  have read : Selector.read ⟨[Lexer.token .word value position], closing⟩ =
      .ok (⟨.add, Variable.ofName value, none, position⟩, ⟨[], closing⟩) := rfl
  have whole : Window.skipBlanks ⟨[Lexer.token .word value position], closing⟩ =
      ⟨[Lexer.token .word value position], closing⟩ := rfl
  show Selector.readList ⟨[Lexer.token .word value position], closing⟩ = _
  rw [Selector.readList, whole, Selector.readOnto_eq, read]
  rfl

namespace Pattern

variable {body : List Atom} {cs : List Char}

/-- What the tokens of a pattern say together. -/
theorem Writes.values (writes : Writes body cs) (opened p : Position) :
    (bodyTokens (.quoted opened) p body).flatMap (fun t => t.value.toList) = cs :=
  (Grammar.spelled_bodyTokens (.quoted opened) p body).values.trans writes.text

/-- The tokens of a pattern start with a mark only if the pattern does. -/
theorem Writes.startsWith_punct (writes : Writes body cs) (opened p : Position) (closing : Token)
    (punct : Punct) (other : cs.head? ≠ some punct.char) :
    Window.startsWith ⟨bodyTokens (.quoted opened) p body, closing⟩ (.punct punct) = false := by
  -- a mark is a token of its own, so its character is the first that the tokens say
  rw [Bool.eq_false_iff]
  intro starts
  obtain ⟨t, rest, tokens, kind⟩ := Window.tokens_of_startsWith starts
  have tokens' : bodyTokens (.quoted opened) p body = t :: rest := tokens
  have first : t ∈ bodyTokens (.quoted opened) p body := by
    rw [tokens']
    exact List.mem_cons_self
  obtain ⟨taken, -, value, shape⟩ :=
    (Grammar.spelled_bodyTokens (.quoted opened) p body).exists_takes first
  simp only [kind] at shape
  have mark : t.value.toList = [punct.char] := by
    rw [value, shape]
    rfl
  have values := writes.values opened p
  rw [tokens', List.flatMap_cons, mark] at values
  exact other (by rw [← values]; rfl)

/-- A pattern without an operator is read as it is. -/
theorem Writes.readUnsigned_implicit (writes : Writes body cs) (noMark : cs.head? ≠ some '@')
    (opened p : Position) (closing : Token) :
    Operator.Kind.readUnsigned ⟨bodyTokens (.quoted opened) p body, closing⟩ =
      .ok (.regex (String.ofList cs)) := by
  have text : Window.text ⟨bodyTokens (.quoted opened) p body, closing⟩ = String.ofList cs :=
    congrArg String.ofList (writes.values opened p)
  unfold Operator.Kind.readUnsigned
  rw [writes.startsWith_punct opened p closing .atSign noMark, text]
  rfl

/-- A pattern behind its operator is read without the blank that separates them. -/
theorem Writes.readUnsigned_rx (writes : Writes body cs) (nonempty : cs ≠ []) {w : Char}
    (blank : Text.isBlank w = true) (opened p : Position) (closing : Token) :
    Operator.Kind.readUnsigned
        ⟨bodyTokens (.quoted opened) p (.char '@' :: .char 'r' :: .char 'x' :: .char w :: body),
          closing⟩ =
      .ok (.regex (String.ofList cs)) := by
  obtain ⟨more, others, tokens⟩ := Grammar.bodyTokens_rx (.quoted opened) p blank body
  have values : (w.toString ++ more).toList.drop 1 ++ others.flatMap (fun t => t.value.toList) =
      cs := by
    have all := (Grammar.spelled_bodyTokens (.quoted opened) p
      (.char '@' :: .char 'r' :: .char 'x' :: .char w :: body)).values
    rw [tokens] at all
    have said : bodyText .quoted (.char '@' :: .char 'r' :: .char 'x' :: .char w :: body) =
        '@' :: 'r' :: 'x' :: w :: cs := by
      simp only [Grammar.bodyText_cons, writes.text]
      rfl
    have same : '@' :: 'r' :: 'x' :: w ::
          (more.toList ++ others.flatMap (fun t => t.value.toList)) =
        '@' :: 'r' :: 'x' :: w :: cs := by
      rw [← said]
      refine Eq.trans ?_ all
      simp [Lexer.token]
    simpa using same
  rw [tokens]
  exact Operator.Kind.read_rx rfl rfl rfl nonempty values

/-- A text of one rule that looks at all arguments. -/
def ruleText (operator : List Char) : String := "SecRule ARGS \"" ++ String.ofList operator ++ "\""

/-- The document of a rule that looks at all arguments. -/
def ruleDocument (label : String) (kind : Operator.Kind) (negated : Bool) : Document :=
  let file := (Position.start label).file
  let selector : Selector := ⟨.add, .builtIn .args, none, ⟨file, 1, 9⟩⟩
  ⟨label, [.directive ⟨.rule ⟨[selector], ⟨kind, negated, ⟨file, 1, 15⟩⟩, []⟩, ⟨file, 1, 1⟩⟩]⟩

/-- The line of a rule that looks at all arguments. -/
def ruleLayout (body : List Atom) : Grammar.Layout where
  first := ⟨[], .directive "SecRule".toList [.blank ' ',
    .bare 'A' [.char 'R', .char 'G', .char 'S'], .blank ' ', .quoted body]⟩
  following := []

/-- The text of a rule with the pattern **is well laid out**. -/
theorem Writes.ruleLayout_fits (writes : Writes body cs) : (ruleLayout body).Fits := by
  have letters : "SecRule".toList.all Text.isLetter = true := by decide +kernel
  have blank : Text.isBlank ' ' = true := by decide
  have opens {c : Char} (member : c ∈ ['A', 'R', 'G', 'S']) : Grammar.OpensArgument c := by
    simp only [List.mem_cons, List.not_mem_nil, or_false] at member
    rcases member with rfl | rfl | rfl | rfl <;> exact ⟨by decide, by decide, by decide, by decide⟩
  have admitted {c : Char} (member : c ∈ ['A', 'R', 'G', 'S']) : Grammar.Style.bare.Admits c :=
    ⟨(opens member).1, (opens member).2.1, (opens member).2.2.1⟩
  refine ⟨⟨by simp [ruleLayout], by simp, List.all_eq_true.mp letters, ?_, ?_⟩, trivial⟩
  · intro piece first
    cases first
    trivial
  · refine ⟨blank, ⟨opens (by simp), ⟨admitted (by simp), admitted (by simp), admitted (by simp),
      trivial⟩, ?_⟩, blank, writes.fits _, trivial⟩
    intro c next
    obtain rfl : ' ' = c := Option.some.inj next
    exact .inl blank

/-- It **has the units** of the pattern between its quotes. -/
theorem Writes.ruleLayout_source (writes : Writes body cs) :
    (ruleLayout body).source = (ruleText (escaped cs)).toList := by
  simp [ruleLayout, ruleText, Grammar.Layout.source, Grammar.Line.source, Grammar.Content.source,
    Grammar.Piece.source, Grammar.Atom.source, Grammar.followingSource, writes.source]

/-- The tokens of the line. -/
def ruleTokens (file : Option String) (body : List Atom) : DirectiveTokens where
  name := Lexer.token .directive "SecRule" ⟨file, 1, 1⟩
  arguments := Grammar.piecesArguments ⟨file, 1, 8⟩
    [.blank ' ', .bare 'A' [.char 'R', .char 'G', .char 'S'], .blank ' ', .quoted body]
  name_kind := rfl

/-- The tokens of the rule are read to **a rule with the operator** that the last argument holds. -/
theorem ruleTokens_read (file : Option String) {operator : Operator}
    (read : ∀ closing, Operator.read
      ⟨bodyTokens (.quoted ⟨file, 1, 14⟩) ⟨file, 1, 15⟩ body, closing⟩ = .ok operator) :
    (ruleTokens file body).read =
      .ok ⟨.rule ⟨[⟨.add, .builtIn .args, none, ⟨file, 1, 9⟩⟩], operator, []⟩, ⟨file, 1, 1⟩⟩ := by
  have keyword : Directive.Keyword.ofName? "SecRule" = some .rule := by decide +kernel
  have subject : Variable.ofName "ARGS" = .builtIn .args := by decide +kernel
  -- the marks that close the arguments have their places, which no reader here looks at
  obtain ⟨stop, stop', arguments⟩ : ∃ stop stop',
      (ruleTokens file body).arguments.map ArgumentTokens.argument =
        [⟨⟨file, 1, 9⟩, ⟨[Lexer.token .word "ARGS" ⟨file, 1, 9⟩], stop⟩⟩,
          ⟨⟨file, 1, 14⟩, ⟨bodyTokens (.quoted ⟨file, 1, 14⟩) ⟨file, 1, 15⟩ body, stop'⟩⟩] :=
    ⟨_, _, rfl⟩
  have selectors : Selector.readList ⟨[Lexer.token .word "ARGS" ⟨file, 1, 9⟩], stop⟩ =
      .ok [⟨.add, .builtIn .args, none, ⟨file, 1, 9⟩⟩] := by
    rw [Selector.readList_word rfl]
    show Except.ok [Selector.mk .add (Variable.ofName "ARGS") none ⟨file, 1, 9⟩] = _
    rw [subject]
  unfold DirectiveTokens.read
  rw [show (ruleTokens file body).name.value = "SecRule" from rfl, keyword, arguments]
  dsimp only [Directive.Body.read?, Directive.readRule]
  rw [selectors]
  show Except.map _ (Directive.Body.rule <$> (Operator.read _ >>= _)) = _
  rw [read]
  rfl

/-- The **document of a rule** is what its operator reads to. -/
theorem Writes.parse_ruleText (writes : Writes body cs) (label : String) {kind : Operator.Kind}
    {negated : Bool}
    (read : ∀ opened p closing,
      Operator.read ⟨bodyTokens (.quoted opened) p body, closing⟩ = .ok ⟨kind, negated, p⟩) :
    Document.parse label (ruleText (escaped cs)) = .ok (ruleDocument label kind negated) := by
  obtain ⟨last, tokenized⟩ : ∃ last, tokenize label (ruleText (escaped cs)) =
      .ok (entryTokens ((ruleLayout body).entries (.start label)) ++ [last]) :=
    ⟨_, tokenize_eq_ok_iff_layout.mpr
      ⟨ruleLayout body, writes.ruleLayout_fits, writes.ruleLayout_source, rfl⟩⟩
  have entries : (ruleLayout body).entries (.start label) =
      [.directive (ruleTokens (Position.start label).file body)] := rfl
  have readDirective := ruleTokens_read (Position.start label).file (read _ _)
  have readEntry : (EntryTokens.directive (ruleTokens (Position.start label).file body)).read =
      .ok (.directive _) := congrArg (Except.map Item.directive) readDirective
  rw [Document.parse_of_entryTokens tokenized, entries, readEntries_cons_ok [] readEntry]
  rfl

/-! ### The four ways to write a pattern

With the name of the operator or without, and negated or not.  Without the name the pattern may not
begin with an at sign, and without a negation not with an exclamation mark either. -/

/-- The operator of a pattern stands where the pattern begins. -/
theorem Writes.position (writes : Writes body cs) (nonempty : cs ≠ []) (opened p : Position)
    (closing : Token) : Window.position ⟨bodyTokens (.quoted opened) p body, closing⟩ = p := by
  have some : body ≠ [] := by
    rintro rfl
    exact nonempty writes.text.symm
  obtain ⟨t, rest, tokens, placed⟩ :=
    (Grammar.spelled_bodyTokens (.quoted opened) p body).exists_first some writes.solid
  rw [tokens]
  exact placed

/-- A rule with an operator **without a sign**. -/
theorem Writes.parse_unsigned (writes : Writes body cs) (nonempty : cs ≠ [])
    (noSign : cs.head? ≠ some '!') (label : String) {kind : Operator.Kind}
    (read : ∀ opened p closing,
      Operator.Kind.readUnsigned ⟨bodyTokens (.quoted opened) p body, closing⟩ = .ok kind) :
    Document.parse label (ruleText (escaped cs)) = .ok (ruleDocument label kind false) := by
  refine writes.parse_ruleText label fun opened p closing => ?_
  have unsigned := writes.startsWith_punct opened p closing .exclamation noSign
  rw [Operator.read_unsigned unsigned (read opened p closing),
    writes.position nonempty opened p closing]

/-- A rule with an operator **behind a sign**. -/
theorem Writes.parse_negated (writes : Writes body cs) (label : String) {kind : Operator.Kind}
    (read : ∀ opened p closing,
      Operator.Kind.readUnsigned ⟨bodyTokens (.quoted opened) p body, closing⟩ = .ok kind) :
    Document.parse label (ruleText ('!' :: escaped cs)) =
      .ok (ruleDocument label kind true) := by
  have signed := writes.char (c := '!') (by decide) (by decide) (by decide)
  rw [← escaped_cons (by decide : '!' ≠ '\x22')]
  refine signed.parse_ruleText label fun opened p closing => ?_
  rw [Grammar.bodyTokens_punct _ _ (by decide : Punct.ofChar? '!' = some .exclamation)]
  exact Operator.read_negated rfl (read opened _ closing)

/-- The name of the operator and the blank behind it stand before the pattern. -/
theorem Writes.rx (writes : Writes body cs) {w : Char} (blank : Text.isBlank w = true) :
    Writes (.char '@' :: .char 'r' :: .char 'x' :: .char w :: body)
      ('@' :: 'r' :: 'x' :: w :: cs) := by
  obtain ⟨notBackslash, notLineFeed, notQuote⟩ := Grammar.ne_of_isBlank blank
  have separated := writes.char notLineFeed notBackslash notQuote
  exact ((separated.char (by decide) (by decide) (by decide)).char (by decide) (by decide)
    (by decide)).char (by decide) (by decide) (by decide)

/-- The name of the operator is **written as it is**. -/
theorem escaped_rx {w : Char} (blank : Text.isBlank w = true) (cs : List Char) :
    escaped ('@' :: 'r' :: 'x' :: w :: cs) = '@' :: 'r' :: 'x' :: w :: escaped cs := by
  rw [escaped_cons (by decide), escaped_cons (by decide), escaped_cons (by decide),
    escaped_cons (Grammar.ne_of_isBlank blank).2.2]

end Pattern

namespace Document

open Pattern (Paired escaped ruleText ruleDocument escaped_rx exists_writes)

/-- A **pattern survives from a text to its document**, whatever blank separates it from its
operator, and without an operator unless it begins like one.  What stands in the pattern is cut into
tokens on the way, at blanks and at punctuation, and put together again by the operator, which takes
its argument as it is written. -/
theorem parse_pattern (label : String) {pattern : String} (nonempty : pattern ≠ "")
    (oneLine : '\n' ∉ pattern.toList) (paired : Paired pattern.toList) :
    (∀ w, Text.isBlank w = true →
      parse label (ruleText ('@' :: 'r' :: 'x' :: w :: escaped pattern.toList)) =
          .ok (ruleDocument label (.regex pattern) false) ∧
        parse label (ruleText ('!' :: '@' :: 'r' :: 'x' :: w :: escaped pattern.toList)) =
          .ok (ruleDocument label (.regex pattern) true)) ∧
    (pattern.toList.head? ≠ some '!' → pattern.toList.head? ≠ some '@' →
      parse label (ruleText (escaped pattern.toList)) =
          .ok (ruleDocument label (.regex pattern) false) ∧
        parse label (ruleText ('!' :: escaped pattern.toList)) =
          .ok (ruleDocument label (.regex pattern) true)) := by
  obtain ⟨body, writes⟩ := exists_writes paired oneLine
  have characters : pattern.toList ≠ [] := fun nil => nonempty (String.toList_eq_nil_iff.mp nil)
  have whole : String.ofList pattern.toList = pattern := String.ofList_toList
  constructor
  · intro w blank
    have read (opened p : Position) (closing : Token) :=
      writes.readUnsigned_rx characters blank opened p closing
    rw [whole] at read
    rw [← escaped_rx blank]
    exact ⟨(writes.rx blank).parse_unsigned (List.cons_ne_nil _ _) (by simp) label read,
      (writes.rx blank).parse_negated label read⟩
  · intro noSign noMark
    have read (opened p : Position) (closing : Token) :=
      writes.readUnsigned_implicit noMark opened p closing
    rw [whole] at read
    exact ⟨writes.parse_unsigned characters noSign label read, writes.parse_negated label read⟩

/-- A digit behind a double quote, negated and without an operator. -/
theorem parse_pattern_digit :
    ruleText ('!' :: escaped "\"\\d".toList) = "SecRule ARGS \"!\\\"\\d\"" ∧
    parse "a.conf" (ruleText ('!' :: escaped "\"\\d".toList)) =
      .ok (ruleDocument "a.conf" (.regex "\"\\d") true) := by
  have paired : Paired "\"\\d".toList := .char (by decide) (.pair (by decide) .nil)
  obtain ⟨-, implicit⟩ := parse_pattern "a.conf" (by decide) (by decide) paired
  exact ⟨by decide, (implicit (by decide) (by decide)).2⟩

end Document

end WafRules
