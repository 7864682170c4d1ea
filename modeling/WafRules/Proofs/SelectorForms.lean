import WafRules.Proofs.Continuations
import WafRules.Proofs.Phrases
import WafRules.Proofs.Relocation.Operands

/-!
# Selectors without quotes

What a selector looks like depends on how its members are written.  Without single quotes there are
two forms: a key goes on until a bar or blanks, and a regular expression until the first slash in
front of them.  In both the tokens of a selector are followed by a bar, by blanks or by nothing, and
whatever that is, it has no part in what the selector means.  So the reader can be told from the
forms: it takes off the front of a window the tokens of one form, and every form is read as what it
says.

## Main Definitions

* `MemberPattern.Written`, `Selector.Written` — the tokens of members and of whole selectors.
* `Selector.BeginsAt` — the windows at which the selectors of a list are read.
* `Selector.IsQuoted`, `Selector.NoneQuoted` — selectors with single quotes, and lists without any.

## Main Statements

* `MemberPattern.closingSlash?_eq_some_iff` — where a regular expression ends.
* `MemberPattern.read_eq_ok_iff` — members are read from their forms only.
* `Selector.exists_written_of_read`, `Selector.read_of_written` — and so are selectors.
* `Selector.exists_written_of_readList`, `Selector.readOnto_of_written` — and lists of them.
-/

namespace WafRules

/-! ### Windows behind other tokens

A window with tokens put in front of it.  A reader that takes some tokens off the front of a window
leaves a window of which the first one is such a prolongation, and in these words what a reader
takes and what it leaves can be said in one equation. -/

namespace Window

/-- The window with more tokens in front. -/
def prepend (tokens : List Token) (w : Window) : Window := { w with tokens := tokens ++ w.tokens }

@[simp]
theorem prepend_tokens (tokens : List Token) (w : Window) :
    (w.prepend tokens).tokens = tokens ++ w.tokens := rfl

@[simp]
theorem prepend_nil (w : Window) : w.prepend [] = w := rfl

theorem prepend_append (front back : List Token) (w : Window) :
    w.prepend (front ++ back) = (w.prepend back).prepend front :=
  congrArg (Window.mk · w.closing) (List.append_assoc ..)

/-- The first tokens of a window, and the rest. -/
theorem splitAt_prepend (tokens : List Token) (w : Window) :
    (w.prepend tokens).splitAt tokens.length = (⟨tokens, w.first⟩, w) := by
  simp [splitAt, prepend, drop, first]

theorem drop_prepend_singleton (t : Token) (w : Window) : (w.prepend [t]).drop 1 = w := rfl

theorem startsWith_prepend_cons (t : Token) (tokens : List Token) (w : Window)
    (kind : Token.Kind) : (w.prepend (t :: tokens)).startsWith kind = (t.kind == kind) := rfl

/-- A window that starts with some token is another window behind the token. -/
theorem exists_prepend_of_startsWith {w : Window} {kind : Token.Kind}
    (starts : w.startsWith kind = true) :
    ∃ (t : Token) (rest : Window), t.kind = kind ∧ w = rest.prepend [t] := by
  obtain ⟨t, rest, tokens, same⟩ := tokens_of_startsWith starts
  exact ⟨t, ⟨rest, w.closing⟩, same, congrArg (Window.mk · w.closing) tokens⟩

/-- What `expect` accepts stands in front of what it leaves. -/
theorem expect_eq_ok_iff_prepend {w rest : Window} {kind : Token.Kind} {what : Expected}
    {t : Token} :
    w.expect kind what = .ok (t, rest) ↔ t.kind = kind ∧ w = rest.prepend [t] := by
  rw [expect_eq_ok_iff]
  obtain ⟨tokens, closing⟩ := w
  constructor
  · rintro ⟨rfl, same, rfl⟩
    exact ⟨same, rfl⟩
  · rintro ⟨same, whole⟩
    obtain ⟨rfl, rfl⟩ := Window.mk.inj whole
    exact ⟨rfl, same, rfl⟩

end Window

/-! ### Members

A key ends at the first token that ends a selector.  A regular expression ends at a slash that such
a token follows, or the end of the window, and another slash belongs to the pattern; if there is no
such slash, the expression stays open and cannot be read. -/

namespace MemberPattern

/-- Whether nothing, a bar or blanks come next. -/
def Ends (rest : Window) : Prop := ∀ t ∈ rest.tokens.head?, endsSelector t = true

/-- Whether the first token is a slash that the second makes the last of its pattern. -/
def Closes (t u : Token) : Prop := t.kind = .punct .slash ∧ endsSelector u = true

/-- Whether nothing closes a pattern inside it. -/
def StaysOpen (pattern : List Token) : Prop := pattern.IsChain fun t u => ¬ Closes t u

/-- Whether tokens are **members as they are written** without single quotes. -/
inductive Written (subject : Variable) : List Token → MemberPattern → Prop
  | key {tokens : List Token} (nonempty : tokens ≠ [])
      (goesOn : ∀ t ∈ tokens, endsSelector t = false)
      (noQuote : ∀ t ∈ tokens.head?, t.kind ≠ .punct .singleQuote)
      (noSlash : subject ≠ .builtIn .xml → ∀ t ∈ tokens.head?, t.kind ≠ .punct .slash) :
      Written subject tokens (.key (tokensText tokens))
  | regex {opening closing : Token} {pattern : List Token} (notXml : subject ≠ .builtIn .xml)
      (opens : opening.kind = .punct .slash) (closes : closing.kind = .punct .slash)
      (nonempty : pattern ≠ []) (stays : StaysOpen pattern) :
      Written subject (opening :: (pattern ++ [closing])) (.regex (tokensText pattern))

theorem not_endsSelector_of_slash {t : Token} (isSlash : t.kind = .punct .slash) :
    endsSelector t = false := by
  simp [endsSelector, Token.isKind, isSlash]

/-- A slash with nothing behind it, or with the end of a selector, closes a regular expression that
goes on until there. -/
theorem closingSlash?_append {pattern rest : List Token} {slash : Token}
    (isSlash : slash.kind = .punct .slash) (ends : ∀ t ∈ rest.head?, endsSelector t = true)
    (stays : StaysOpen pattern) :
    closingSlash? (pattern ++ slash :: rest) = some pattern.length := by
  induction pattern with
  | nil =>
    cases rest with
    | nil => simp [closingSlash?, Token.isKind, isSlash]
    | cons u rest => simp [closingSlash?, Token.isKind, isSlash, ends u rfl]
  | cons t pattern ih =>
    -- the slash at the end of the pattern ends no selector, so it closes nothing in front of it
    have here : ∀ u ∈ (pattern ++ slash :: rest).head?, ¬ Closes t u := by
      cases pattern with
      | nil =>
        rintro _ ⟨⟩ ⟨-, closed⟩
        rw [not_endsSelector_of_slash isSlash] at closed
        cases closed
      | cons u pattern =>
        rintro _ ⟨⟩
        exact (List.isChain_cons_cons.mp stays).1
    have later := ih stays.tail
    rw [List.cons_append]
    cases tokens : pattern ++ slash :: rest with
    | nil => simp at tokens
    | cons u others =>
      rw [tokens] at here later
      have opened : ¬ (t.isKind (.punct .slash) && endsSelector u) = true := by
        simpa [Closes, Token.isKind] using here u rfl
      rw [closingSlash?, if_neg opened, later]
      rfl

/-- The slash that closes a regular expression is the first with nothing behind it, or with the end
of a selector. -/
theorem exists_of_closingSlash? {tokens : List Token} {n : Nat}
    (found : closingSlash? tokens = some n) :
    ∃ pattern slash rest, tokens = pattern ++ slash :: rest ∧ pattern.length = n ∧
      slash.kind = .punct .slash ∧ (∀ t ∈ rest.head?, endsSelector t = true) ∧
      StaysOpen pattern := by
  fun_induction closingSlash? tokens generalizing n with
  | case1 => cases found
  | case2 t isSlash =>
    obtain rfl := Option.some.inj found
    exact ⟨[], t, [], rfl, rfl, by simpa [Token.isKind] using isSlash, by simp, .nil⟩
  | case3 t noSlash => cases found
  | case4 t u rest closes =>
    obtain rfl := Option.some.inj found
    simp only [Token.isKind, Bool.and_eq_true, beq_iff_eq] at closes
    refine ⟨[], t, u :: rest, rfl, rfl, closes.1, ?_, .nil⟩
    rintro _ ⟨⟩
    exact closes.2
  | case5 t u rest opened ih =>
    obtain ⟨m, later, rfl⟩ := Option.map_eq_some_iff.mp found
    obtain ⟨pattern, slash, behind, tokens, rfl, isSlash, ends, stays⟩ := ih later
    refine ⟨t :: pattern, slash, behind, by rw [tokens]; rfl, rfl, isSlash, ends,
      stays.cons fun v first => ?_⟩
    rintro ⟨isFirst, closed⟩
    obtain ⟨others, rfl⟩ := List.head?_eq_some_iff.mp first
    obtain rfl := (List.cons.inj tokens).1
    exact opened (by simp [Token.isKind, isFirst, closed])

/-- **Where a regular expression ends:** at the first slash with nothing behind it, or with the end
of a selector. -/
theorem closingSlash?_eq_some_iff {tokens : List Token} {n : Nat} :
    closingSlash? tokens = some n ↔
      ∃ pattern slash rest, tokens = pattern ++ slash :: rest ∧ pattern.length = n ∧
        slash.kind = .punct .slash ∧ (∀ t ∈ rest.head?, endsSelector t = true) ∧
        StaysOpen pattern := by
  refine ⟨exists_of_closingSlash?, ?_⟩
  rintro ⟨pattern, slash, rest, rfl, rfl, isSlash, ends, stays⟩
  exact closingSlash?_append isSlash ends stays

variable {subject : Variable} {w rest : Window} {m : MemberPattern}

/-- A window begins with the tokens in front of the first that ends a selector. -/
theorem exists_prepend_ends (w : Window) :
    ∃ tokens rest, w = rest.prepend tokens ∧ (∀ t ∈ tokens, endsSelector t = false) ∧
      Ends rest := by
  refine ⟨w.tokens.takeWhile fun t => !endsSelector t,
    ⟨w.tokens.dropWhile fun t => !endsSelector t, w.closing⟩,
    congrArg (Window.mk · w.closing) List.takeWhile_append_dropWhile.symm, fun t member => ?_,
    fun t first => ?_⟩
  · simpa using List.mem_takeWhile_imp member
  · have stops := List.head?_dropWhile_not (fun t => !endsSelector t) w.tokens
    dsimp only at first
    rw [first] at stops
    simpa using stops

/-- A key behind which the selector ends. -/
theorem readBareKey_prepend {tokens : List Token} (goesOn : ∀ t ∈ tokens, endsSelector t = false)
    (ends : Ends rest) :
    readBareKey (rest.prepend tokens) =
      if tokens = [] then .error (unexpected .collectionKey rest.first)
      else .ok (.key (tokensText tokens), rest) := by
  have length : ((rest.prepend tokens).tokens.takeWhile fun t => !endsSelector t) = tokens := by
    have more : rest.tokens.takeWhile (fun t => !endsSelector t) = [] := by
      cases behind : rest.tokens with
      | nil => rfl
      | cons t others =>
        have ended := ends t (by rw [behind]; rfl)
        simp [ended]
    rw [Window.prepend_tokens, List.takeWhile_append_of_pos (by simpa using goesOn), more,
      List.append_nil]
  unfold readBareKey
  dsimp only
  rw [length, Window.splitAt_prepend]
  cases tokens with
  | nil => rfl
  | cons t tokens => rfl

/-- A key goes on until the end of its selector. -/
theorem readBareKey_eq_ok_iff :
    readBareKey w = .ok (m, rest) ↔
      ∃ tokens, tokens ≠ [] ∧ (∀ t ∈ tokens, endsSelector t = false) ∧
        m = .key (tokensText tokens) ∧ w = rest.prepend tokens ∧ Ends rest := by
  constructor
  · intro read
    obtain ⟨tokens, rest, rfl, goesOn, ends⟩ := exists_prepend_ends w
    rw [readBareKey_prepend goesOn ends] at read
    split at read
    · cases read
    · next nonempty =>
      obtain ⟨rfl, rfl⟩ := Prod.mk.inj (Except.ok.inj read)
      exact ⟨tokens, nonempty, goesOn, rfl, rfl, ends⟩
  · rintro ⟨tokens, nonempty, goesOn, rfl, rfl, ends⟩
    rw [readBareKey_prepend goesOn ends, if_neg nonempty]

/-- A regular expression with the slash that closes it. -/
theorem readRegex_prepend {pattern : List Token} {slash : Token}
    (isSlash : slash.kind = .punct .slash) (stays : StaysOpen pattern) (ends : Ends rest)
    (opening : Position) :
    readRegex opening ((rest.prepend [slash]).prepend pattern) =
      if pattern = [] then .error ⟨.emptyRegex, opening⟩
      else .ok (.regex (tokensText pattern), rest) := by
  have close : closingSlash? ((rest.prepend [slash]).prepend pattern).tokens =
      some pattern.length :=
    closingSlash?_eq_some_iff.mpr ⟨pattern, slash, _, rfl, rfl, isSlash, ends, stays⟩
  unfold readRegex
  rw [close]
  dsimp only
  rw [Window.splitAt_prepend]
  cases pattern with
  | nil => rfl
  | cons t pattern => rfl

/-- A regular expression goes on until the slash that closes it. -/
theorem readRegex_eq_ok_iff {opening : Position} :
    readRegex opening w = .ok (m, rest) ↔
      ∃ pattern slash, pattern ≠ [] ∧ slash.kind = .punct .slash ∧ StaysOpen pattern ∧
        m = .regex (tokensText pattern) ∧ w = (rest.prepend [slash]).prepend pattern ∧
        Ends rest := by
  constructor
  · intro read
    cases close : closingSlash? w.tokens with
    | none =>
      rw [readRegex, close] at read
      cases read
    | some n =>
      obtain ⟨pattern, slash, behind, tokens, -, isSlash, ends, stays⟩ :=
        closingSlash?_eq_some_iff.mp close
      have whole : w = (Window.prepend [slash] ⟨behind, w.closing⟩).prepend pattern :=
        congrArg (Window.mk · w.closing) tokens
      have ends : Ends ⟨behind, w.closing⟩ := ends
      rw [whole, readRegex_prepend isSlash stays ends] at read
      split at read
      · cases read
      · next nonempty =>
        obtain ⟨rfl, rfl⟩ := Prod.mk.inj (Except.ok.inj read)
        exact ⟨pattern, slash, nonempty, isSlash, stays, rfl, whole, ends⟩
  · rintro ⟨pattern, slash, nonempty, isSlash, stays, rfl, rfl, ends⟩
    rw [readRegex_prepend isSlash stays ends, if_neg nonempty]

/-- **Members without quotes** are read from tokens of their form, up to the end of a selector. -/
theorem read_eq_ok_iff (unquoted : w.startsWith (.punct .singleQuote) = false) :
    MemberPattern.read subject w = .ok (m, rest) ↔
      ∃ tokens, Written subject tokens m ∧ w = rest.prepend tokens ∧ Ends rest := by
  have first {tokens : List Token} (nonempty : tokens ≠ []) (kind : Token.Kind) :
      (rest.prepend tokens).startsWith kind = true ↔ ∃ t ∈ tokens.head?, t.kind = kind := by
    obtain ⟨t, tokens, rfl⟩ := List.exists_cons_of_ne_nil nonempty
    simp [Window.startsWith_prepend_cons]
  rw [MemberPattern.read, if_neg (Bool.eq_false_iff.mp unquoted)]
  -- A slash in front decides between the two forms, but for the collection of XPath expressions.
  split
  · next isRegex =>
    obtain ⟨starts, notXml⟩ := isRegex
    rw [readRegex_eq_ok_iff]
    constructor
    · rintro ⟨pattern, slash, nonempty, isSlash, stays, rfl, behind, ends⟩
      obtain ⟨opening, body, opens, rfl⟩ := Window.exists_prepend_of_startsWith starts
      obtain rfl : body = (rest.prepend [slash]).prepend pattern := behind
      refine ⟨_, .regex notXml opens isSlash nonempty stays, ?_, ends⟩
      rw [← Window.prepend_append, ← Window.prepend_append]
      rfl
    · rintro ⟨tokens, written, rfl, ends⟩
      cases written with
      | key nonempty goesOn noQuote noSlash =>
        obtain ⟨t, isFirst, isSlash⟩ := (first nonempty _).mp starts
        exact absurd isSlash (noSlash notXml t isFirst)
      | @regex _ closing pattern _ opens closes nonempty stays =>
        refine ⟨pattern, closing, nonempty, closes, stays, rfl, ?_, ends⟩
        rw [← Window.prepend_append]
        rfl
  · next isKey =>
    rw [readBareKey_eq_ok_iff]
    constructor
    · rintro ⟨tokens, nonempty, goesOn, rfl, rfl, ends⟩
      refine ⟨tokens, .key nonempty goesOn (fun t isFirst isQuote => ?_)
        (fun notXml t isFirst isSlash => ?_), rfl, ends⟩
      · have quoted := (first nonempty (.punct .singleQuote)).mpr ⟨t, isFirst, isQuote⟩
        rw [unquoted] at quoted
        cases quoted
      · exact isKey ⟨(first nonempty _).mpr ⟨t, isFirst, isSlash⟩, notXml⟩
    · rintro ⟨tokens, written, rfl, ends⟩
      cases written with
      | key nonempty goesOn noQuote noSlash => exact ⟨tokens, nonempty, goesOn, rfl, rfl, ends⟩
      | regex notXml opens closes nonempty stays =>
        exact absurd ⟨(first (List.cons_ne_nil _ _) _).mpr ⟨_, rfl, opens⟩, notXml⟩ isKey

/-- Written members do not begin with a single quote. -/
theorem Written.unquoted {tokens : List Token} (written : Written subject tokens m)
    (rest : Window) : (rest.prepend tokens).startsWith (.punct .singleQuote) = false := by
  cases written with
  | key nonempty goesOn noQuote noSlash =>
    obtain ⟨t, tokens, rfl⟩ := List.exists_cons_of_ne_nil nonempty
    simpa [Window.startsWith_prepend_cons] using noQuote t rfl
  | regex notXml opens closes nonempty stays =>
    simp [Window.startsWith_prepend_cons, opens]

end MemberPattern

/-! ### Selectors

A selector is a sign, a name and possibly members behind a colon.  Whether members may follow
depends on the variable, and whether a slash begins a regular expression does, too. -/

/-- Whether tokens are the **sign of a mode.** -/
def SelectorMode.Written : SelectorMode → List Token → Prop
  | add, tokens => tokens = []
  | remove, tokens => ∃ t, t.kind = .punct .exclamation ∧ tokens = [t]
  | count, tokens => ∃ t, t.kind = .punct .ampersand ∧ tokens = [t]

/-- Whether a token is a **name of a variable.** -/
def Variable.Written (subject : Variable) (name : Token) : Prop :=
  name.kind = .word ∧ ofName name.value = subject

namespace Selector

/-- Whether tokens are a **selector as it is written** without single quotes.  The place of the
selector does not matter. -/
inductive Written : List Token → Selector → Prop
  | whole {mode : SelectorMode} {subject : Variable} {sign : List Token} {name : Token}
      (signed : mode.Written sign) (named : subject.Written name) (p : Position) :
      Written (sign ++ [name]) ⟨mode, subject, none, p⟩
  | members {mode : SelectorMode} {subject : Variable} {member : MemberPattern}
      {sign tokens : List Token} {name colon : Token} (signed : mode.Written sign)
      (named : subject.Written name) (isColon : colon.kind = .punct .colon)
      (collection : subject.isCollection = true)
      (written : MemberPattern.Written subject tokens member) (p : Position) :
      Written (sign ++ name :: colon :: tokens) ⟨mode, subject, some member, p⟩

/-- Whether a window begins with a selector whose members are written in **single quotes.** -/
def IsQuoted (w : Window) : Prop :=
  ∃ (mode : SelectorMode) (sign : List Token) (name colon quote : Token) (rest : List Token),
    w.tokens = sign ++ name :: colon :: quote :: rest ∧ mode.Written sign ∧ name.kind = .word ∧
      colon.kind = .punct .colon ∧ quote.kind = .punct .singleQuote

variable {w rest : Window} {s : Selector}

/-- Whether no sign comes next. -/
def Unsigned (w : Window) : Prop :=
  w.startsWith (.punct .exclamation) = false ∧ w.startsWith (.punct .ampersand) = false

theorem onlySign_eq_ok_iff {mode read : SelectorMode} :
    onlySign mode w = .ok (read, rest) ↔ read = mode ∧ rest = w ∧ Unsigned w := by
  unfold onlySign
  by_cases signed : w.startsWith (.punct .exclamation) = true ∨
      w.startsWith (.punct .ampersand) = true
  · rw [if_pos signed]
    simp only [Unsigned, ← Bool.not_eq_true, ← not_or, signed]
    simp
  · rw [if_neg signed]
    simp only [Unsigned, ← Bool.not_eq_true, ← not_or, signed]
    simp [eq_comm]

/-- A sign is read where no other one follows.  A second sign is refused, and so the form asks that
what is left has none in front. -/
theorem readMode_eq_ok_iff {mode : SelectorMode} :
    readMode w = .ok (mode, rest) ↔
      ∃ sign, mode.Written sign ∧ w = rest.prepend sign ∧ Unsigned rest := by
  constructor
  · intro read
    unfold readMode at read
    split at read
    · next starts =>
      obtain ⟨rfl, rfl, unsigned⟩ := onlySign_eq_ok_iff.mp read
      obtain ⟨t, rest, isSign, rfl⟩ := Window.exists_prepend_of_startsWith starts
      exact ⟨[t], ⟨t, isSign, rfl⟩, rfl, unsigned⟩
    · next noExclamation =>
      split at read
      · next starts =>
        obtain ⟨rfl, rfl, unsigned⟩ := onlySign_eq_ok_iff.mp read
        obtain ⟨t, rest, isSign, rfl⟩ := Window.exists_prepend_of_startsWith starts
        exact ⟨[t], ⟨t, isSign, rfl⟩, rfl, unsigned⟩
      · next noAmpersand =>
        obtain ⟨rfl, rfl⟩ := Prod.mk.inj (Except.ok.inj read)
        exact ⟨[], rfl, rfl, Bool.eq_false_iff.mpr noExclamation, Bool.eq_false_iff.mpr noAmpersand⟩
  · rintro ⟨sign, signed, rfl, unsigned⟩
    cases mode with
    | add =>
      obtain rfl : sign = [] := signed
      rw [Window.prepend_nil, readMode, if_neg (Bool.eq_false_iff.mp unsigned.1),
        if_neg (Bool.eq_false_iff.mp unsigned.2)]
    | remove =>
      obtain ⟨t, isSign, rfl⟩ := signed
      rw [readMode, if_pos (by simp [Window.startsWith_prepend_cons, isSign]),
        Window.drop_prepend_singleton]
      exact onlySign_eq_ok_iff.mpr ⟨rfl, rfl, unsigned⟩
    | count =>
      obtain ⟨t, isSign, rfl⟩ := signed
      rw [readMode, if_neg (by simp [Window.startsWith_prepend_cons, isSign]),
        if_pos (by simp [Window.startsWith_prepend_cons, isSign]), Window.drop_prepend_singleton]
      exact onlySign_eq_ok_iff.mpr ⟨rfl, rfl, unsigned⟩

/-- A **selector without quotes** is read from tokens of its form.  The parts are taken off the
front one by one, and each of them gives the part of the form. -/
theorem exists_written_of_read (read : Selector.read w = .ok (s, rest)) (unquoted : ¬ IsQuoted w) :
    ∃ tokens, Written tokens s ∧ w = rest.prepend tokens := by
  obtain ⟨⟨mode, afterMode⟩, isMode, ⟨name, afterName⟩, named, read⟩ :=
    (bind_eq_ok_iff.mp read).imp fun _ both => both.imp_right bind_eq_ok_iff.mp
  obtain ⟨sign, signed, rfl, -⟩ := readMode_eq_ok_iff.mp isMode
  obtain ⟨isName, rfl⟩ := Window.expect_eq_ok_iff_prepend.mp named
  dsimp only at read
  split at read
  · next starts =>
    obtain ⟨colon, afterColon, isColon, rfl⟩ := Window.exists_prepend_of_startsWith starts
    rw [Window.drop_prepend_singleton] at read
    split at read
    · next collection =>
      obtain ⟨⟨member, afterMember⟩, isMember, same⟩ := bind_eq_ok_iff.mp read
      obtain ⟨rfl, rfl⟩ := Prod.mk.inj (Except.ok.inj same)
      -- A quote here would make the selector one of the quoted ones.
      have noQuote : afterColon.startsWith (.punct .singleQuote) = false := by
        rw [Bool.eq_false_iff]
        intro quoted
        obtain ⟨quote, more, isQuote, rfl⟩ := Window.exists_prepend_of_startsWith quoted
        exact unquoted ⟨mode, sign, name, colon, quote, more.tokens, rfl, signed, isName, isColon,
          isQuote⟩
      obtain ⟨tokens, written, rfl, -⟩ := (MemberPattern.read_eq_ok_iff noQuote).mp isMember
      refine ⟨_, .members signed ⟨isName, rfl⟩ isColon collection written _, ?_⟩
      exact (Window.prepend_append sign (name :: colon :: tokens) _).symm
    · cases read
  · obtain ⟨rfl, rfl⟩ := Prod.mk.inj (Except.ok.inj read)
    exact ⟨_, .whole signed ⟨isName, rfl⟩ _, (Window.prepend_append sign [name] afterName).symm⟩

/-- **Tokens of the form of a selector** are read as it, up to what ends it.  What ends a selector
is no colon and continues no key, so the parts end where they ended before. -/
theorem read_of_written {tokens : List Token} (written : Written tokens s)
    (ends : MemberPattern.Ends rest) :
    Selector.read (rest.prepend tokens) =
      .ok ({ s with position := (rest.prepend tokens).position }, rest) := by
  have noSign {name : Token} (isName : name.kind = .word) (more : List Token) :
      Unsigned (rest.prepend (name :: more)) := by
    simp [Unsigned, Window.startsWith_prepend_cons, isName]
  cases written with
  | @whole mode subject sign name signed named p =>
    obtain ⟨isName, rfl⟩ := named
    have isMode : readMode (rest.prepend (sign ++ [name])) = .ok (mode, rest.prepend [name]) :=
      readMode_eq_ok_iff.mpr ⟨sign, signed, Window.prepend_append .., noSign isName []⟩
    have named : (rest.prepend [name]).expect .word .variableName = .ok (name, rest) :=
      Window.expect_eq_ok_iff_prepend.mpr ⟨isName, rfl⟩
    -- A colon ends no selector, so what is left does not begin with one.
    have noColon : rest.startsWith (.punct .colon) = false := by
      rw [Bool.eq_false_iff]
      intro starts
      obtain ⟨t, behind, isColon, rfl⟩ := Window.exists_prepend_of_startsWith starts
      have ended := ends t rfl
      simp [MemberPattern.endsSelector, Token.isKind, isColon] at ended
    unfold Selector.read
    simp only [isMode, named, noColon, bind, Except.bind]
    rfl
  | @members mode subject member sign tokens name colon signed named isColon collection written p =>
    obtain ⟨isName, rfl⟩ := named
    have isMode : readMode (rest.prepend (sign ++ name :: colon :: tokens)) =
        .ok (mode, rest.prepend (name :: colon :: tokens)) :=
      readMode_eq_ok_iff.mpr ⟨sign, signed, Window.prepend_append .., noSign isName _⟩
    have named : (rest.prepend (name :: colon :: tokens)).expect .word .variableName =
        .ok (name, rest.prepend (colon :: tokens)) :=
      Window.expect_eq_ok_iff_prepend.mpr ⟨isName, rfl⟩
    have starts : (rest.prepend (colon :: tokens)).startsWith (.punct .colon) = true := by
      simp [Window.startsWith_prepend_cons, isColon]
    have behind : (rest.prepend (colon :: tokens)).drop 1 = rest.prepend tokens := rfl
    have isMember := (MemberPattern.read_eq_ok_iff (written.unquoted rest)).mpr
      ⟨tokens, written, rfl, ends⟩
    unfold Selector.read
    simp only [isMode, named, starts, collection, behind, isMember, bind, Except.bind, if_true]
    rfl

/-! ### Lists of selectors

Selectors stand one behind the other with bars between them and blanks around the bars.  The tokens
of a list determine its selectors up to their places, and tokens in the forms are read as a list. -/

/-- The windows that the selectors of a list begin at: the first where the list does, and every
other one behind a bar. -/
inductive BeginsAt : Window → Window → Prop
  | first (w : Window) : BeginsAt w w
  | next {w rest u : Window} {s : Selector} {bar : Token} {after : Window}
      (read : Selector.read w = .ok (s, rest)) (isBar : bar.kind = .punct .pipe)
      (behind : rest.skipBlanks = after.prepend [bar]) (begins : BeginsAt after.skipBlanks u) :
      BeginsAt w u

/-- Whether **no selector of a list** is written in single quotes. -/
def NoneQuoted (w : Window) : Prop := ∀ u, BeginsAt w.skipBlanks u → ¬ IsQuoted u

/-- A selector in quotes has a quote among its tokens. -/
theorem not_isQuoted_of_forall (plain : ∀ t ∈ w.tokens, t.kind ≠ .punct .singleQuote) :
    ¬ IsQuoted w := by
  rintro ⟨mode, sign, name, colon, quote, rest, tokens, -, -, -, isQuote⟩
  exact plain quote (by simp [tokens]) isQuote

/-- Without a single quote among the tokens no selector of a list is written in quotes. -/
theorem noneQuoted_of_forall (plain : ∀ t ∈ w.tokens, t.kind ≠ .punct .singleQuote) :
    NoneQuoted w := by
  have behind {w u : Window} (begins : BeginsAt w u)
      (plain : ∀ t ∈ w.tokens, t.kind ≠ .punct .singleQuote) : ¬ IsQuoted u := by
    induction begins with
    | first w => exact not_isQuoted_of_forall plain
    | @next w rest u s bar after read isBar behind begins ih =>
      obtain ⟨tokens, -, rfl⟩ := exists_written_of_read read (not_isQuoted_of_forall plain)
      refine ih fun t member => plain t (List.mem_append_right tokens ?_)
      have inAfter : t ∈ rest.skipBlanks.tokens := by
        rw [behind]
        exact List.mem_cons_of_mem bar (after.skipBlanks_suffix.subset member)
      exact rest.skipBlanks_suffix.subset inAfter
  intro u begins
  exact behind begins fun t member => plain t (w.skipBlanks_suffix.subset member)

/-- Every **selector of a list without quotes** is read from tokens of its form.  By the recursion
of the reader, whose steps are a selector and the bar behind it. -/
theorem exists_written_of_readOnto {before : Array Selector} {list : List Selector}
    (read : readOnto before w = .ok list) (unquoted : ∀ u, BeginsAt w u → ¬ IsQuoted u) :
    ∃ selectors, selectors ≠ [] ∧ list = before.toList ++ selectors ∧
      ∀ s ∈ selectors, ∃ tokens, tokens <:+: w.tokens ∧ Written tokens s := by
  fun_induction readOnto before w with
  | case1 before w e failed => cases read
  | case2 before w selector rest isRead selectors isLast =>
    obtain rfl := Except.ok.inj read
    obtain ⟨tokens, written, rfl⟩ := exists_written_of_read isRead (unquoted w (.first w))
    refine ⟨[selector], List.cons_ne_nil _ _, Array.toList_push, fun s member => ?_⟩
    obtain rfl := List.mem_singleton.mp member
    exact ⟨tokens, (List.prefix_append tokens rest.tokens).isInfix, written⟩
  | case3 before w selector rest isRead goesOn e failed => cases read
  | case4 before w selector rest isRead selectors goesOn bar after isBar ih =>
    obtain ⟨barKind, behind⟩ := Window.expect_eq_ok_iff_prepend.mp isBar
    obtain ⟨others, -, rfl, forms⟩ := ih read fun u begins =>
      unquoted u (.next isRead barKind behind begins)
    obtain ⟨tokens, written, rfl⟩ := exists_written_of_read isRead (unquoted w (.first w))
    refine ⟨selector :: others, List.cons_ne_nil _ _, ?_, ?_⟩
    · rw [Array.toList_push, List.append_assoc, List.singleton_append]
    · refine List.forall_mem_cons.mpr
        ⟨⟨tokens, (List.prefix_append tokens rest.tokens).isInfix, written⟩, fun s member => ?_⟩
      obtain ⟨tokens', within, written'⟩ := forms s member
      refine ⟨tokens', within.trans (List.IsSuffix.isInfix ?_), written'⟩
      calc after.skipBlanks.tokens
        _ <:+ after.tokens := after.skipBlanks_suffix
        _ <:+ rest.skipBlanks.tokens := by
          rw [behind]
          exact List.suffix_cons _ _
        _ <:+ rest.tokens := rest.skipBlanks_suffix
        _ <:+ (rest.prepend tokens).tokens := List.suffix_append _ _

/-- Every **selector of a list without quotes** is read from tokens of its form. -/
theorem exists_written_of_readList {list : List Selector} (read : readList w = .ok list)
    (unquoted : NoneQuoted w) :
    list ≠ [] ∧ ∀ s ∈ list, ∃ tokens, tokens <:+: w.tokens ∧ Written tokens s := by
  obtain ⟨selectors, nonempty, rfl, forms⟩ := exists_written_of_readOnto read unquoted
  refine ⟨nonempty, fun s member => ?_⟩
  obtain ⟨tokens, within, written⟩ := forms s member
  exact ⟨tokens, within.trans w.skipBlanks_suffix.isInfix, written⟩

/-- A bar between selectors. -/
def bar : Token := Lexer.token (.punct .pipe) "|" default

/-- A selector begins with its sign or its name, not with blanks. -/
theorem Written.skipBlanks {tokens : List Token} (written : Written tokens s) (rest : Window) :
    (rest.prepend tokens).skipBlanks = rest.prepend tokens := by
  have begins {mode : SelectorMode} {sign : List Token} (signed : mode.Written sign) {name : Token}
      (isName : name.kind = .word) (more : List Token) :
      (rest.prepend (sign ++ name :: more)).skipBlanks = rest.prepend (sign ++ name :: more) := by
    cases mode with
    | add =>
      obtain rfl : sign = [] := signed
      simp [Window.skipBlanks, Window.dropKinds, Window.prepend, isName]
    | remove =>
      obtain ⟨t, isSign, rfl⟩ := signed
      simp [Window.skipBlanks, Window.dropKinds, Window.prepend, isSign]
    | count =>
      obtain ⟨t, isSign, rfl⟩ := signed
      simp [Window.skipBlanks, Window.dropKinds, Window.prepend, isSign]
  cases written with
  | whole signed named p => exact begins signed named.1 []
  | members signed named isColon collection written p => exact begins signed named.1 _

/-- Nor does a list of selectors begin with blanks. -/
theorem skipBlanks_intercalate {runs : List (List Token)} {selectors : List Selector}
    (written : List.Forall₂ Written runs selectors) (closing : Token) :
    Window.skipBlanks ⟨[bar].intercalate runs, closing⟩ = ⟨[bar].intercalate runs, closing⟩ := by
  cases written with
  | nil => rfl
  | @cons run s runs selectors here later =>
    obtain ⟨rest, whole⟩ : ∃ rest, [bar].intercalate (run :: runs) = run ++ rest := by
      cases runs with
      | nil => exact ⟨[], by rw [List.intercalate_singleton, List.append_nil]⟩
      | cons second more => exact ⟨_, by rw [List.intercalate_cons_cons, List.append_assoc]⟩
    rw [whole]
    exact here.skipBlanks ⟨rest, closing⟩

/-- **Tokens of the forms of selectors,** with bars between them, are read as the selectors.  Their
places are those where the tokens stand now, so they are the same up to places. -/
theorem readOnto_of_written {runs : List (List Token)} {selectors : List Selector}
    (written : List.Forall₂ Written runs selectors) (nonempty : selectors ≠ [])
    (before : Array Selector) (closing : Token) :
    ∃ list, readOnto before ⟨[bar].intercalate runs, closing⟩ = .ok (before.toList ++ list) ∧
      relocate Position.forget list = relocate Position.forget selectors := by
  induction written generalizing before with
  | nil => exact absurd rfl nonempty
  | @cons run s runs selectors here later ih =>
    cases later with
    | nil =>
      have ends : MemberPattern.Ends ⟨[], closing⟩ := nofun
      have read := read_of_written here ends
      rw [Window.prepend, List.append_nil] at read
      refine ⟨[{ s with position := Window.position ⟨run, closing⟩ }], ?_, rfl⟩
      rw [List.intercalate_singleton, readOnto_eq, read]
      exact congrArg Except.ok Array.toList_push
    | @cons second next more others following rest =>
      -- the window behind the bar, which the rest of the list fills
      obtain ⟨behind, isBehind⟩ : ∃ behind : Window,
          behind = ⟨[bar].intercalate (second :: more), closing⟩ := ⟨_, rfl⟩
      have noBlanks : behind.skipBlanks = behind := by
        rw [isBehind, skipBlanks_intercalate (.cons following rest)]
      have ends : MemberPattern.Ends (behind.prepend [bar]) := by
        rintro _ ⟨⟩
        rfl
      have whole : Window.mk ([bar].intercalate (run :: second :: more)) closing =
          (behind.prepend [bar]).prepend run := by
        rw [List.intercalate_cons_cons, List.append_assoc, isBehind]
        rfl
      have atBar : (behind.prepend [bar]).skipBlanks = behind.prepend [bar] := rfl
      have isBar : (behind.prepend [bar]).expect (.punct .pipe) .variableSeparator =
          .ok (bar, behind) := rfl
      obtain ⟨list, read, places⟩ := ih (List.cons_ne_nil _ _)
        (before.push { s with position := ((behind.prepend [bar]).prepend run).position })
      rw [← isBehind] at read
      refine ⟨{ s with position := ((behind.prepend [bar]).prepend run).position } :: list, ?_,
        congrArg (relocate Position.forget s :: ·) places⟩
      rw [whole, readOnto_eq, read_of_written here ends]
      dsimp only [bind, Except.bind]
      rw [atBar, isBar]
      dsimp only
      rw [noBlanks, read, Array.toList_push, List.append_assoc]
      rfl

/-- The same from the start of a list. -/
theorem readList_of_written {runs : List (List Token)} {selectors : List Selector}
    (written : List.Forall₂ Written runs selectors) (nonempty : selectors ≠ []) (closing : Token) :
    ∃ list, readList ⟨[bar].intercalate runs, closing⟩ = .ok list ∧
      relocate Position.forget list = relocate Position.forget selectors := by
  rw [readList, skipBlanks_intercalate written]
  exact readOnto_of_written written nonempty #[] closing

end Selector

end WafRules
