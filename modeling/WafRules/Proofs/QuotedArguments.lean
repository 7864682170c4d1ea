import WafRules.Proofs.ActionTexts
import WafRules.Proofs.Phrases
import WafRules.Proofs.SourceOrder

/-!
# Arguments in quotes

The source between two quotes decides what the tokens between them are, up to their places.  Without
a line continuation it even follows from what the tokens say together: a word goes on until
something that is no word, blanks go on until something that is none, and every mark is a token of
its own, so that a text can be cut in one way only.  Tokens that are cut like that can therefore be
written between quotes and are read again.

The decisive fact is about the beginning of a text.  Tidy tokens that say a text determine their
first token by it: the kind of the first character tells the kind of the token, and the token takes
as much as its kind allows, since the token behind it may not be one that would have joined it.
From that the whole list follows by induction.

## Main Definitions

* `QuotedArgument` — the tokens of an argument in quotes, with its source.
* `Tidy`, `Loose` — tokens that are cut as they are without a continuation, and with any.

## Main Statements

* `QuotedArgument.exists_units` — the tokens of an argument are those of units that write its
  source.
* `QuotedArgument.loose`, `QuotedArgument.tidy` — they are loose, and tidy without a continuation.
* `Tidy.lexemes_unique` — tidy tokens that say the same are the same but for their places.
* `Tidy.lexemes_of_argument` — tidy tokens are read again from their text between quotes.
-/

namespace WafRules

open Grammar (Atom Style bodyTokens bodySource bodyText continuation)
open Pattern (Paired Writes escaped)

/-! ### The source of an argument

Between quotes the source is known from the places of the marks, as the text between them, and so
are its units. -/

/-- The tokens between the marks of an **argument in quotes**, in whatever text, and the source
between the marks. -/
inductive QuotedArgument (source : List Char) (body : List Token) (stop : Token) : Prop
  | intro {label text : String} {before after : List Token} {start : Token} {front back : List Char}
    (tokenized : tokenize label text = .ok (before ++ start :: (body ++ stop :: after)))
    (startKind : start.kind = .argumentStart) (stopKind : stop.kind = .argumentStop)
    (inside : ∀ t ∈ body, t.kind ≠ .argumentStop) (opens : start.value = "\"")
    (written : text.toList = front ++ '\x22' :: (source ++ '\x22' :: back))
    (starts : start.position = .placeAfter label front)
    (stops : stop.position = .placeAfter label (front ++ '\x22' :: source))

/-- A place in a text stands behind one stretch of it. -/
theorem Position.eq_of_placeAfter_eq {label : String} {first second text : List Char}
    (isPrefix : first <+: text) (isPrefix' : second <+: text)
    (same : placeAfter label first = placeAfter label second) : first = second := by
  have longer {first second : List Char} (front : first <+: second)
      (same : placeAfter label first = placeAfter label second) : first = second := by
    obtain ⟨more, rfl⟩ := front
    by_contra other
    have nonempty : more ≠ [] := by
      rintro rfl
      exact other (List.append_nil _).symm
    have later := ((start label).advance first).key_lt_advance nonempty
    rw [← Position.advance_append, advance_start, advance_start, ← same] at later
    exact lt_irrefl _ later
  rcases List.prefix_or_prefix_of_prefix isPrefix isPrefix' with front | front
  · exact longer front same
  · exact (longer front same.symm).symm

namespace QuotedArgument

variable {source : List Char} {body : List Token} {stop : Token}

/-- The **tokens of an argument in quotes** are those of units that write its source.  The place of
a mark decides where in the text it stands, so the source that the argument was given is the one
that the layout of the text has between the same quotes. -/
theorem exists_units (argument : QuotedArgument source body stop) :
    ∃ opened p units after, body = bodyTokens (.quoted opened) p units ∧
      Grammar.BodyFits .quoted after units ∧ bodySource units = source := by
  obtain @⟨label, text, before, after, start, front, back, tokenized, startKind, stopKind, inside,
    opens, written, starts, stops⟩ := argument
  obtain ⟨entries, last, split, final, lines, -⟩ := exists_shapedEntries tokenized
  obtain ⟨d, listed, a, member, rfl, rfl, rfl⟩ :=
    exists_argument_of_split final split.symm startKind stopKind inside
  obtain ⟨earlier, rest, whole, read⟩ :=
    Grammar.exists_readAt_of_mem_arguments (lines _ listed) member
  obtain ⟨quoting, units, behind, rfl, fits, -, isStart, words, isStop⟩ := read
  cases quoting with
  | bare =>
    rw [isStart] at opens
    exact absurd opens (show ("" : String) ≠ "\"" by decide)
  | quoted opened =>
    rw [isStart, Position.advance_start] at starts
    rw [isStop, ← Position.advance_append, Position.advance_start] at stops
    obtain rfl := Position.eq_of_placeAfter_eq ⟨_, whole.symm⟩ ⟨_, written.symm⟩ starts
    have isPrefix : earlier ++ '\x22' :: bodySource units <+: _ := ⟨'\x22' :: behind, by
      simpa [Grammar.styleOf, Style.mark] using whole.symm⟩
    have isPrefix' : earlier ++ '\x22' :: source <+: _ := ⟨'\x22' :: back, by
      simpa using written.symm⟩
    have same := List.append_cancel_left (Position.eq_of_placeAfter_eq isPrefix isPrefix' stops)
    exact ⟨opened, _, units, _, words, fits, (List.cons.inj same).2⟩

end QuotedArgument

/-! ### Tokens without a continuation

Two tokens that meet may not be two words or two runs of blanks, and a word may end in no backslash
that would take the next character.  Without a continuation the lexer gives only such tokens; a
continuation may cut a run of blanks in two, and nothing else. -/

/-- Whether the text of a token would have been part of that of the token in front of it. -/
def Token.Joins (t u : Token) : Prop := t.kind = u.kind ∧ (t.kind = .word ∨ t.kind = .blanks)

/-- Tokens that are **cut as they are without a continuation** between quotes, and can be written
there. -/
structure Tidy (tokens : List Token) : Prop where
  holds : ∀ t ∈ tokens, Style.quoted.Holds t
  paired : ∀ t ∈ tokens, Paired t.value.toList
  oneLine : ∀ t ∈ tokens, '\n' ∉ t.value.toList
  apart : tokens.IsChain fun t u => ¬ t.Joins u

/-- Units say something that can be written between quotes. -/
theorem paired_bodyText {units : List Atom}
    (fit : ∀ atom ∈ units, ∃ after, atom.Fits .quoted after) :
    Paired (bodyText .quoted units) ∧ '\n' ∉ bodyText .quoted units := by
  induction units with
  | nil => exact ⟨.nil, List.not_mem_nil⟩
  | cons atom units ih =>
    obtain ⟨⟨after, fits⟩, fit⟩ := List.forall_mem_cons.mp fit
    obtain ⟨paired, oneLine⟩ := ih fit
    rw [Grammar.bodyText_cons]
    cases atom with
    | char c =>
      obtain ⟨notLineFeed, notBackslash, -⟩ := fits
      exact ⟨.char notBackslash paired, by simp [Atom.text, Ne.symm notLineFeed, oneLine]⟩
    | pair c =>
      have notLineFeed : c ≠ '\n' := fun lineFeed => fits (.inl lineFeed)
      by_cases quote : c = '\x22'
      · subst quote
        exact ⟨.char (by decide) paired, by simp [Atom.text, oneLine]⟩
      · have said : (Atom.pair c).text .quoted = ['\\', c] := if_neg fun both => quote both.2
        rw [said]
        exact ⟨.pair quote paired, by simp [Ne.symm notLineFeed, oneLine]⟩
    | continuation ending => exact ⟨paired, oneLine⟩

/-- Every unit fits somewhere. -/
theorem exists_fits_of_mem {style : Style} {after : List Char} {units : List Atom}
    (fits : Grammar.BodyFits style after units) :
    ∀ atom ∈ units, ∃ behind, atom.Fits style behind := by
  induction units with
  | nil => exact nofun
  | cons atom units ih => exact List.forall_mem_cons.mpr ⟨⟨_, fits.1⟩, ih fits.2⟩

/-- Tokens between quotes **which continuations may have cut,** in blanks though not in words. -/
structure Loose (tokens : List Token) : Prop where
  holds : ∀ t ∈ tokens, Style.quoted.Holds t
  paired : ∀ t ∈ tokens, Paired t.value.toList
  oneLine : ∀ t ∈ tokens, '\n' ∉ t.value.toList
  wordsApart : Apart .word (tokenKinds tokens)

namespace Loose

variable {tokens tokens' : List Token}

/-- The **tokens of units** are loose. -/
theorem of_units {opened p : Position} {units : List Atom} {after : List Char}
    (fits : Grammar.BodyFits .quoted after units) :
    Loose (bodyTokens (.quoted opened) p units) := by
  have sound : ∀ t ∈ bodyTokens (.quoted opened) p units,
      Paired t.value.toList ∧ '\n' ∉ t.value.toList := by
    intro t member
    obtain ⟨taken, within, value, -⟩ :=
      (Grammar.spelled_bodyTokens (.quoted opened) p units).exists_takes member
    rw [value]
    exact paired_bodyText fun atom inToken => exists_fits_of_mem fits atom (within inToken)
  exact ⟨Grammar.bodyTokens_hold p fits, fun t member => (sound t member).1,
    fun t member => (sound t member).2, Grammar.bodyTokens_apart .word nofun _ _ nofun⟩

/-- A stretch of loose tokens is loose. -/
theorem of_infix (loose : Loose tokens) (within : tokens' <:+: tokens) : Loose tokens' where
  holds t member := loose.holds t (within.subset member)
  paired t member := loose.paired t (within.subset member)
  oneLine t member := loose.oneLine t (within.subset member)
  wordsApart := loose.wordsApart.infix (within.map _)

/-- Tokens whose blanks are not cut are tidy. -/
theorem tidy (loose : Loose tokens) (blanksApart : Apart .blanks (tokenKinds tokens)) :
    Tidy tokens where
  holds := loose.holds
  paired := loose.paired
  oneLine := loose.oneLine
  apart := by
    have words := (List.isChain_map _).mp loose.wordsApart
    have blanks := (List.isChain_map _).mp blanksApart
    rw [List.isChain_iff_forall_rel_of_append_cons_cons] at words blanks ⊢
    rintro t u front back split ⟨same, word | blank⟩
    · exact words split ⟨word, same ▸ word⟩
    · exact blanks split ⟨blank, same ▸ blank⟩

end Loose

namespace Tidy

variable {tokens tokens' : List Token}

/-- The **tokens of units without a continuation** are tidy. -/
theorem of_units {opened p : Position} {units : List Atom} {after : List Char}
    (fits : Grammar.BodyFits .quoted after units) (solid : ∀ ending, .continuation ending ∉ units) :
    Tidy (bodyTokens (.quoted opened) p units) :=
  (Loose.of_units fits).tidy (Grammar.bodyTokens_apart .blanks nofun _ p fun _ => solid)

/-- A stretch of tidy tokens is tidy. -/
theorem of_infix (tidy : Tidy tokens) (within : tokens' <:+: tokens) : Tidy tokens' where
  holds t member := tidy.holds t (within.subset member)
  paired t member := tidy.paired t (within.subset member)
  oneLine t member := tidy.oneLine t (within.subset member)
  apart := tidy.apart.infix within

theorem tail {t : Token} (tidy : Tidy (t :: tokens)) : Tidy tokens :=
  tidy.of_infix (List.suffix_cons t tokens).isInfix

theorem nil : Tidy [] := ⟨nofun, nofun, nofun, .nil⟩

/-- A token without backslashes in front of tidy tokens. -/
theorem cons {t : Token} (tidy : Tidy tokens) (holds : Style.quoted.Holds t)
    (plain : '\\' ∉ t.value.toList ∧ '\n' ∉ t.value.toList)
    (border : ∀ u ∈ tokens.head?, ¬ t.Joins u) : Tidy (t :: tokens) where
  holds := List.forall_mem_cons.mpr ⟨holds, tidy.holds⟩
  paired := List.forall_mem_cons.mpr ⟨Paired.of_notMem plain.1, tidy.paired⟩
  oneLine := List.forall_mem_cons.mpr ⟨plain.2, tidy.oneLine⟩
  apart := tidy.apart.cons border

theorem append (front : Tidy tokens) (back : Tidy tokens')
    (border : ∀ t ∈ tokens.getLast?, ∀ u ∈ tokens'.head?, ¬ t.Joins u) :
    Tidy (tokens ++ tokens') where
  holds := List.forall_mem_append.mpr ⟨front.holds, back.holds⟩
  paired := List.forall_mem_append.mpr ⟨front.paired, back.paired⟩
  oneLine := List.forall_mem_append.mpr ⟨front.oneLine, back.oneLine⟩
  apart := front.apart.append back.apart border

end Tidy

/-- The **kind of the token** that a character begins between quotes. -/
def Token.Kind.beginning (c : Char) : Token.Kind :=
  if Text.isBlank c then .blanks
  else
    match Punct.ofChar? c with
    | some mark => .punct mark
    | none => .word

open Token.Kind (beginning)

theorem WordText.beginning_eq {c : Char} {cs : List Char} (word : WordText (c :: cs)) :
    beginning c = .word := by
  cases word with
  | pair c rest => rfl
  | char notBackslash notBlank notPunct rest => simp [beginning, notBlank, notPunct]

/-- A token is of the kind that its first character begins. -/
theorem Grammar.Style.Holds.exists_first {style : Style} {t : Token} (holds : style.Holds t) :
    ∃ c cs, t.value.toList = c :: cs ∧ t.kind = beginning c := by
  obtain ⟨⟨kind, value⟩, position⟩ := t
  obtain ⟨nonempty, shape⟩ := holds
  obtain ⟨c, cs, characters⟩ := List.exists_cons_of_ne_nil
    (fun empty => nonempty (String.toList_injective empty) : value.toList ≠ [])
  refine ⟨c, cs, characters, ?_⟩
  cases kind with
  | word =>
    have word : WordText value.toList := shape
    rw [characters] at word
    exact word.beginning_eq.symm
  | blanks =>
    have blank : Text.isBlank c = true := shape.2 c (by simp [characters])
    simp [beginning, blank]
  | punct punct =>
    have char : value.toList = [punct.char] := shape
    obtain ⟨rfl, -⟩ := List.cons.inj (characters.symm.trans char)
    cases punct <;> rfl
  | _ => exact shape.elim

/-- A word that is followed by something that is no word ends in one place only. -/
theorem WordText.eq_of_append_eq {first second back back' : List Char} (word : WordText first)
    (word' : WordText second) (ends : ∀ c ∈ back.head?, beginning c ≠ .word)
    (ends' : ∀ c ∈ back'.head?, beginning c ≠ .word) (same : first ++ back = second ++ back') :
    first = second := by
  induction word generalizing second with
  | nil =>
    cases second with
    | nil => rfl
    | cons c cs => exact absurd word'.beginning_eq (ends c (congrArg List.head? same))
  | @pair c text rest ih =>
    cases word' with
    | nil => exact absurd rfl (ends' _ (congrArg List.head? same.symm))
    | pair d rest' =>
      obtain ⟨rfl, behind⟩ := List.cons.inj (List.cons.inj same).2
      rw [ih rest' behind]
    | char notBackslash => exact absurd (List.cons.inj same).1.symm notBackslash
  | @char c text notBackslash notBlank notPunct rest ih =>
    cases word' with
    | nil =>
      have word := WordText.char notBackslash notBlank notPunct rest
      exact absurd word.beginning_eq (ends' c (congrArg List.head? same.symm))
    | pair d rest' => exact absurd (List.cons.inj same).1 notBackslash
    | char notBackslash' notBlank' notPunct' rest' =>
      obtain ⟨rfl, behind⟩ := List.cons.inj same
      rw [ih rest' behind]

/-- Blanks that are followed by something that is none are all the blanks in front. -/
theorem takeWhile_isBlank {first back : List Char} (blanks : ∀ c ∈ first, Text.isBlank c = true)
    (ends : ∀ c ∈ back.head?, beginning c ≠ .blanks) :
    (first ++ back).takeWhile Text.isBlank = first := by
  rw [List.takeWhile_append_of_pos blanks]
  cases back with
  | nil => exact List.append_nil _
  | cons c cs =>
    have notBlank : ¬ Text.isBlank c = true := fun blank => ends c rfl (if_pos blank)
    rw [List.takeWhile_cons_of_neg notBlank, List.append_nil]

namespace Tidy

variable {t u : Token} {tokens tokens' : List Token}

/-- What follows a word or blanks begins something else. -/
theorem beginning_ne (tidy : Tidy (t :: tokens)) (goesOn : t.kind = .word ∨ t.kind = .blanks) :
    ∀ c ∈ (tokens.flatMap fun t => t.value.toList).head?, beginning c ≠ t.kind := by
  cases tokens with
  | nil => exact nofun
  | cons next tokens =>
    obtain ⟨d, ds, characters, kind⟩ := (tidy.holds next (by simp)).exists_first
    rw [List.flatMap_cons, characters]
    rintro _ ⟨⟩ same
    exact (List.isChain_cons_cons.mp tidy.apart).1 ⟨(kind.trans same).symm, goesOn⟩

/-- The **first of tidy tokens** is decided by what they say together.  Two words with the same text
behind them end at the same character, and so do two runs of blanks, because what follows does not
go on with either. -/
theorem first_unique (tidy : Tidy (t :: tokens)) (tidy' : Tidy (u :: tokens'))
    (same : ((t :: tokens).flatMap fun t => t.value.toList) =
      (u :: tokens').flatMap fun t => t.value.toList) :
    t.toLexeme = u.toLexeme ∧
      (tokens.flatMap fun t => t.value.toList) = tokens'.flatMap fun t => t.value.toList := by
  have holds := tidy.holds t List.mem_cons_self
  have holds' := tidy'.holds u List.mem_cons_self
  rw [List.flatMap_cons, List.flatMap_cons] at same
  -- The first character gives the kind, and the end of the token is where the kind ends, since no
  -- token behind it goes on with the same kind.
  have kinds : t.kind = u.kind := by
    obtain ⟨c, cs, characters, kind⟩ := holds.exists_first
    obtain ⟨d, ds, characters', kind'⟩ := holds'.exists_first
    rw [characters, characters'] at same
    rw [kind, kind', (List.cons.inj same).1]
  have values : t.value.toList = u.value.toList := by
    obtain ⟨-, shape⟩ := holds
    obtain ⟨-, shape'⟩ := holds'
    have ends := tidy.beginning_ne
    have ends' := tidy'.beginning_ne
    rw [← kinds] at shape' ends'
    cases kind : t.kind with
    | word =>
      rw [kind] at shape shape' ends ends'
      exact WordText.eq_of_append_eq shape shape' (ends (.inl rfl)) (ends' (.inl rfl)) same
    | blanks =>
      rw [kind] at shape shape' ends ends'
      rw [← takeWhile_isBlank shape.2 (ends (.inr rfl)), same,
        takeWhile_isBlank shape'.2 (ends' (.inr rfl))]
    | punct mark =>
      rw [kind] at shape shape'
      exact shape.trans shape'.symm
    | _ =>
      rw [kind] at shape
      exact shape.elim
  refine ⟨?_, List.append_cancel_left (values ▸ same)⟩
  obtain ⟨⟨kind, value⟩, position⟩ := t
  obtain ⟨⟨kind', value'⟩, position'⟩ := u
  exact congrArg₂ Lexeme.mk kinds (String.toList_injective values)

/-- **Tidy tokens that say the same** are the same but for their places. -/
theorem lexemes_unique (tidy : Tidy tokens) (tidy' : Tidy tokens')
    (same : (tokens.flatMap fun t => t.value.toList) = tokens'.flatMap fun t => t.value.toList) :
    tokens.map Token.toLexeme = tokens'.map Token.toLexeme := by
  have some {t : Token} {tokens : List Token} (tidy : Tidy (t :: tokens)) :
      ((t :: tokens).flatMap fun t => t.value.toList) ≠ [] := by
    obtain ⟨c, cs, characters, -⟩ := (tidy.holds t List.mem_cons_self).exists_first
    rw [List.flatMap_cons, characters]
    exact List.cons_ne_nil _ _
  induction tokens generalizing tokens' with
  | nil =>
    cases tokens' with
    | nil => rfl
    | cons u tokens' => exact absurd same.symm (some tidy')
  | cons t tokens ih =>
    cases tokens' with
    | nil => exact absurd same (some tidy)
    | cons u tokens' =>
      obtain ⟨first, behind⟩ := first_unique tidy tidy' same
      rw [List.map_cons, List.map_cons, first, ih tidy.tail tidy'.tail behind]

/-- The text of tidy tokens can be written between quotes. -/
theorem exists_writes (tidy : Tidy tokens) :
    ∃ units, Writes units (tokens.flatMap fun t => t.value.toList) := by
  have paired : Paired (tokens.flatMap fun t => t.value.toList) := by
    induction tokens with
    | nil => exact .nil
    | cons t tokens ih => exact (tidy.paired t List.mem_cons_self).append (ih tidy.tail)
  refine Pattern.exists_writes paired fun member => ?_
  obtain ⟨t, inTokens, inToken⟩ := List.mem_flatMap.mp member
  exact tidy.oneLine t inTokens inToken

/-- Tidy tokens are **cut again from their text**, wherever it is written. -/
theorem lexemes_of_writes (tidy : Tidy tokens) {units : List Atom}
    (writes : Writes units (tokens.flatMap fun t => t.value.toList)) (opened p : Position) :
    (bodyTokens (.quoted opened) p units).map Token.toLexeme = tokens.map Token.toLexeme :=
  lexemes_unique (of_units (writes.fits []) writes.solid) tidy (writes.values opened p)

end Tidy

/-! ### Arguments and their tokens

What is known of units becomes known of the tokens of any argument of an accepted text. -/

namespace QuotedArgument

variable {source : List Char} {body : List Token} {stop : Token}

/-- The **tokens of an argument in quotes** are loose. -/
theorem loose (argument : QuotedArgument source body stop) : Loose body := by
  obtain ⟨opened, p, units, after, rfl, fits, -⟩ := argument.exists_units
  exact .of_units fits

/-- Without a continuation in its source an **argument in quotes has tidy tokens.** -/
theorem tidy (argument : QuotedArgument source body stop)
    (plain : ∀ ending, ¬ continuation ending <:+: source) : Tidy body := by
  obtain ⟨opened, p, units, after, rfl, fits, rfl⟩ := argument.exists_units
  refine Tidy.of_units fits fun ending member => plain ending ?_
  obtain ⟨front, back, rfl⟩ := List.append_of_mem member
  exact ⟨bodySource front, bodySource back, by simp [bodySource, Atom.source]⟩

/-- The tokens of an argument in quotes say what its source says. -/
theorem values (argument : QuotedArgument source body stop) :
    (body.flatMap fun t => t.value.toList) = Grammar.argumentText .quoted source := by
  obtain ⟨opened, p, units, after, rfl, fits, rfl⟩ := argument.exists_units
  rw [Grammar.argumentText_bodySource fits]
  exact (Grammar.spelled_bodyTokens (.quoted opened) p units).values

end QuotedArgument

/-- **Tidy tokens are read again** from their text between quotes. -/
theorem Tidy.lexemes_of_argument {tokens body : List Token} {stop : Token} (tidy : Tidy tokens)
    (argument : QuotedArgument (escaped (tokens.flatMap fun t => t.value.toList)) body stop) :
    body.map Token.toLexeme = tokens.map Token.toLexeme := by
  obtain ⟨units, writes⟩ := tidy.exists_writes
  refine lexemes_unique (argument.tidy fun ending within => ?_) tidy ?_
  · -- a line break would be a character of some token
    have lineFeed : '\n' ∈ continuation ending := by cases ending <;> decide
    rcases Pattern.mem_of_mem_escaped (within.subset lineFeed) with inText | backslash
    · obtain ⟨t, member, inToken⟩ := List.mem_flatMap.mp inText
      exact tidy.oneLine t member inToken
    · exact absurd backslash (by decide)
  · rw [argument.values, ← writes.source, Grammar.argumentText_bodySource (writes.fits []),
      writes.text]

end WafRules
