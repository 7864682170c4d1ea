import WafRules.Proofs.Closings.Arguments
import WafRules.Proofs.Composition
import WafRules.Proofs.Continuations
import WafRules.Proofs.QuotedSelectors

/-!
# Two ways to write an argument

An argument may be written in quotes or without them.  Without them it ends at the first blank and
may not begin with a quote; in quotes it ends at the next quote.  A text that may stand in both
ways, with its blanks behind backslashes, has the same units in both, and so the same tokens: only
the marks around them have other values, and everything behind them another place.

A mark never becomes part of what is read.  It closes the window of its argument, where it can only
be reported as the end of the argument, in words that leave its value out.  So two texts whose
tokens differ in no more than that have the same document up to places, or errors in the same words.

The proof compares both texts with a third thing that stands between them, the tokens without places
and without the texts of marks (`Token.essence`).  A token list determines its document up to that
(`readEntries_of_essence`), which is where the lemmas about closing tokens are used; and the scans
of the two texts have the same essence, which is about the lexer alone.

## Main Definitions

* `Grammar.BlanksEscaped`, `ReadsBare` — the texts that may be written without quotes.
* `Token.unmark` — a token without the value of a mark.
* `Likeness.marks` — marks, and errors with the same message, taken to be alike.
* `Document.ReadsAlike` — results that differ in places only.

## Main Statements

* `Grammar.scanFrom_styles` — the scans of both ways.
* `readEntries_unmark` — the items of entries do not depend on their marks.
* `Document.parse_styles` — the tokens and the document of both ways.
-/

namespace WafRules

open Lexer (Quoting token scanFrom)

/-! ### Units of both styles

A text that may be written in both ways has no units that the styles read differently: no quotes, no
blanks but behind backslashes, and no line ends. -/

namespace Grammar

/-- Whether, read from the left, every backslash takes the next character with it, and blanks stand
only behind such a backslash. -/
inductive BlanksEscaped : List Char → Prop
  | nil : BlanksEscaped []
  | pair (c : Char) {cs : List Char} (rest : BlanksEscaped cs) : BlanksEscaped ('\\' :: c :: cs)
  | char {c : Char} {cs : List Char} (notBackslash : c ≠ '\\') (notBlank : Text.isBlank c = false)
      (rest : BlanksEscaped cs) : BlanksEscaped (c :: cs)

/-- Whether a unit is a character or a pair, within a line and other than a double quote. -/
def Atom.IsPlain : Atom → Prop
  | .char c => Text.isBlank c = false ∧ c ≠ '\\' ∧ c ≠ '\n' ∧ c ≠ '\x22'
  | .pair c => c ≠ '\n' ∧ c ≠ '\r' ∧ c ≠ '\x22'
  | .continuation _ => False

/-- The units of a text with escaped blanks. -/
theorem BlanksEscaped.exists_units {cs : List Char} (escaped : BlanksEscaped cs)
    (inLine : ∀ c ∈ cs, c ≠ '\n' ∧ c ≠ '\r' ∧ c ≠ '\x22') :
    ∃ body, bodySource body = cs ∧ ∀ atom ∈ body, atom.IsPlain := by
  induction escaped with
  | nil => exact ⟨[], rfl, by simp⟩
  | pair c rest ih =>
    simp only [List.forall_mem_cons] at inLine
    obtain ⟨-, plain, others⟩ := inLine
    obtain ⟨body, source, plains⟩ := ih others
    exact ⟨.pair c :: body, by rw [bodySource_cons, source]; rfl,
      List.forall_mem_cons.mpr ⟨plain, plains⟩⟩
  | @char c cs notBackslash notBlank rest ih =>
    obtain ⟨⟨notLineFeed, -, notQuote⟩, others⟩ := List.forall_mem_cons.mp inLine
    obtain ⟨body, source, plains⟩ := ih others
    exact ⟨.char c :: body, by rw [bodySource_cons, source]; rfl,
      List.forall_mem_cons.mpr ⟨⟨notBlank, notBackslash, notLineFeed, notQuote⟩, plains⟩⟩

variable {body : List Atom}

/-- Plain units may stand in an argument of either style. -/
theorem bodyFits_of_isPlain (plain : ∀ atom ∈ body, atom.IsPlain) (style : Style)
    (after : List Char) : BodyFits style after body := by
  induction body with
  | nil => trivial
  | cons atom body ih =>
    obtain ⟨first, others⟩ := List.forall_mem_cons.mp plain
    refine ⟨?_, ih others⟩
    cases atom with
    | char c =>
      obtain ⟨notBlank, notBackslash, notLineFeed, notQuote⟩ := first
      cases style with
      | bare => exact ⟨notBlank, notLineFeed, notBackslash⟩
      | quoted => exact ⟨notLineFeed, notBackslash, notQuote⟩
    | pair c =>
      obtain ⟨notLineFeed, notReturn, -⟩ := first
      rintro (isLineFeed | ⟨isReturn, -⟩)
      · exact notLineFeed isLineFeed
      · exact notReturn isReturn
    | continuation ending => exact first.elim

/-- Quotes matter only to a pair of a backslash and a quote. -/
theorem readBody_of_isPlain (plain : ∀ atom ∈ body, atom.IsPlain) (quoting : Quoting)
    (p : Position) (pending : Pending) :
    readBody quoting p pending body = readBody .bare p pending body := by
  induction body generalizing p pending with
  | nil => rfl
  | cons atom body ih =>
    obtain ⟨first, others⟩ := List.forall_mem_cons.mp plain
    have same : atom.read quoting p pending = atom.read .bare p pending := by
      cases atom with
      | char c => rfl
      | pair c =>
        have notQuote : c ≠ '\x22' := first.2.2
        cases quoting with
        | bare => rfl
        | quoted opened => simp [Atom.read, Lexer.escapedText, notQuote]
      | continuation ending => rfl
    rw [readBody_cons, readBody_cons, same, ih others]

/-- The **lexemes of plain units** do not depend on the style. -/
theorem bodyLexemes_of_isPlain (plain : ∀ atom ∈ body, atom.IsPlain) (quoting : Quoting) :
    bodyLexemes quoting body = bodyLexemes .bare body := by
  rw [bodyLexemes, bodyLexemes, bodyTokens, bodyTokens, readBody_of_isPlain plain]

end Grammar

/-- Whether a text may be **written without quotes** where it may be written with them, and is to
mean the same: it begins with neither a quote nor a backslash, stays within a line, and has its
blanks escaped. -/
structure ReadsBare (text : String) : Prop where
  nonempty : text.toList ≠ []
  head : text.toList.head? ≠ some '\\'
  inLine : ∀ c ∈ text.toList, c ≠ '\n' ∧ c ≠ '\r' ∧ c ≠ '\x22'
  escaped : Grammar.BlanksEscaped text.toList

namespace Grammar

/-- The units of such a text; the first of them is a character. -/
theorem exists_units_of_readsBare {text : String} (bare : ReadsBare text) :
    ∃ first body, first :: bodySource body = text.toList ∧ OpensArgument first ∧
      ∀ atom ∈ Atom.char first :: body, atom.IsPlain := by
  obtain ⟨body, source, plain⟩ := bare.escaped.exists_units bare.inLine
  cases body with
  | nil => exact absurd source.symm bare.nonempty
  | cons atom body =>
    cases atom with
    | char c =>
      obtain ⟨notBlank, notBackslash, notLineFeed, notQuote⟩ :=
        plain (.char c) List.mem_cons_self
      exact ⟨c, body, source, ⟨notBlank, notLineFeed, notBackslash, notQuote⟩, plain⟩
    | pair c => exact absurd (congrArg List.head? source).symm bare.head
    | continuation ending => exact (plain _ List.mem_cons_self).elim

/-- The **scans of both ways** behind the place of an argument.  The tokens between the marks have
the same lexemes, and what is behind them is scanned from the same state. -/
theorem scanFrom_styles {text : String} (bare : ReadsBare text) {back : List Char}
    (ends : EndsArgument back) (p : Position) :
    ∃ unquoted quoted : ArgumentTokens, ∃ behind behindQuoted : Lexer.Scan,
      scanFrom p (.reading .between) (text.toList ++ back) = behind.prepend unquoted.toList ∧
      scanFrom p (.reading .between) ('\x22' :: (text.toList ++ '\x22' :: back)) =
        behindQuoted.prepend quoted.toList ∧
      unquoted.start.value = "" ∧ unquoted.stop.value = "" ∧
      quoted.start.value = "\"" ∧ quoted.stop.value = "\"" ∧
      quoted.body.map Token.toLexeme = unquoted.body.map Token.toLexeme ∧
      relocate Position.forget behindQuoted = relocate Position.forget behind := by
  obtain ⟨first, body, source, opens, plain⟩ := exists_units_of_readsBare bare
  have bareFits : (Piece.bare first body).Fits back :=
    ⟨opens, bodyFits_of_isPlain (List.forall_mem_cons.mp plain).2 _ _, ends⟩
  have quotedFits : (Piece.quoted (.char first :: body)).Fits back :=
    bodyFits_of_isPlain plain _ _
  have whole : (Piece.quoted (.char first :: body)).source ++ back =
      '\x22' :: (text.toList ++ '\x22' :: back) := by
    simp [← source, Piece.source, Atom.source]
  obtain ⟨unquoted, isUnquoted, start, stop, tokens⟩ :
      ∃ a, (Piece.bare first body).argument? p = some a ∧ a.start.value = "" ∧
        a.stop.value = "" ∧ a.body = bodyTokens .bare p (.char first :: body) :=
    ⟨_, rfl, rfl, rfl, rfl⟩
  obtain ⟨quoted, isQuoted, startQuoted, stopQuoted, tokensQuoted⟩ :
      ∃ a, (Piece.quoted (.char first :: body)).argument? p = some a ∧ a.start.value = "\"" ∧
        a.stop.value = "\"" ∧
        a.body = bodyTokens (.quoted p) (p.next '\x22') (.char first :: body) :=
    ⟨_, rfl, rfl, rfl, rfl⟩
  have scanned := scanFrom_pieceSource p bareFits
  have scannedQuoted := scanFrom_pieceSource p quotedFits
  rw [isUnquoted, Option.toList_some, List.flatMap_singleton, Piece.source, source] at scanned
  rw [isQuoted, Option.toList_some, List.flatMap_singleton, whole] at scannedQuoted
  refine ⟨unquoted, quoted, _, _, scanned, scannedQuoted, start, stop, startQuoted, stopQuoted, ?_,
    Lexer.scanFrom_forget _ _ rfl back⟩
  rw [tokens, tokensQuoted, lexemes_bodyTokens, lexemes_bodyTokens, bodyLexemes_of_isPlain plain]

end Grammar

/-! ### Marks

A mark without its text is the same in both styles.  A diagnostic calls it the start or the end of
an argument and leaves its text out, so two errors that differ in a mark say the same. -/

namespace Token

/-- Whether the token is the mark of an argument. -/
def IsMark (t : Token) : Prop := t.kind = .argumentStart ∨ t.kind = .argumentStop

instance : DecidablePred IsMark := fun t =>
  inferInstanceAs (Decidable (t.kind = .argumentStart ∨ t.kind = .argumentStop))

/-- The token without its text if it is the mark of an argument. -/
def unmark (t : Token) : Token := if t.IsMark then { t with value := "" } else t

/-- The **kind** of a token is kept. -/
@[simp] theorem unmark_kind (t : Token) : t.unmark.kind = t.kind := by
  unfold unmark
  split <;> rfl

/-- The **place** of a token is kept. -/
@[simp] theorem unmark_position (t : Token) : t.unmark.position = t.position := by
  unfold unmark
  split <;> rfl

/-- Tokens that are the same but for the text of a mark **stand at one place**. -/
theorem position_eq_of_unmark_eq {t t' : Token} (same : t.unmark = t'.unmark) :
    t.position = t'.position := by
  rw [← t.unmark_position, same, t'.unmark_position]

/-- **No other token** is changed. -/
theorem unmark_of_not_isMark {t : Token} (other : ¬ t.IsMark) : t.unmark = t := if_neg other

/-- Marks with other texts are the same without them. -/
theorem unmark_eq_of_isMark {t t' : Token} (mark : t.IsMark) (kind : t.kind = t'.kind)
    (position : t.position = t'.position) : t.unmark = t'.unmark := by
  have mark' : t'.IsMark := by rwa [IsMark, ← kind]
  obtain ⟨⟨_, _⟩, _⟩ := t
  obtain ⟨⟨_, _⟩, _⟩ := t'
  obtain rfl := kind
  obtain rfl := position
  rw [unmark, unmark, if_pos mark, if_pos mark']

/-- The tokens inside an argument **are no marks**. -/
theorem not_isMark_of_isBody {t : Token} (body : t.kind.IsBody) : ¬ t.IsMark := by
  rintro (start | stop)
  · rw [start] at body
    exact body
  · rw [stop] at body
    exact body

end Token

/-- The words of a diagnostic leave the text of a mark out. -/
theorem Token.describe_unmark (t : Token) :
    t.unmark.toLexeme.describe = t.toLexeme.describe := by
  unfold Token.unmark
  split
  · next mark =>
    rcases mark with start | stop
    · simp [Lexeme.describe, start]
    · simp [Lexeme.describe, stop]
  · rfl

/-- Tokens are **alike as marks** when they differ at most in the text of a mark, and errors when
they are reported at one place in the same words. -/
def Likeness.marks : Likeness where
  closing t t' := t.unmark = t'.unmark
  error e e' := e.position = e'.position ∧ e.cause.message = e'.cause.message
  closing_refl _ := rfl
  error_refl _ := ⟨rfl, rfl⟩
  unexpected what t t' same := by
    refine ⟨Token.position_eq_of_unmark_eq same, ?_⟩
    show "expected " ++ what.describe ++ ", found " ++ t.toLexeme.describe =
      "expected " ++ what.describe ++ ", found " ++ t'.toLexeme.describe
    rw [← t.describe_unmark, same, t'.describe_unmark]
  place _ _ _ same := ⟨Token.position_eq_of_unmark_eq same, rfl⟩

/-! ### Entries without the texts of their marks

The marks stand in front of windows and behind them, so the lemmas about closing tokens apply, and
the marks in front are used for their places only. -/

/-- The argument with the texts of its marks left out. -/
def ArgumentTokens.unmark (a : ArgumentTokens) : ArgumentTokens where
  start := a.start.unmark
  body := a.body
  stop := a.stop.unmark
  start_kind := by rw [Token.unmark_kind, a.start_kind]
  stop_kind := by rw [Token.unmark_kind, a.stop_kind]
  body_kind := a.body_kind

/-- The entry with the texts of its marks left out. -/
def EntryTokens.unmark : EntryTokens → EntryTokens
  | comment c => .comment c
  | directive d => .directive { d with arguments := d.arguments.map ArgumentTokens.unmark }

/-- The tokens of an **argument** without the texts of its marks. -/
theorem ArgumentTokens.toList_unmark (a : ArgumentTokens) :
    a.unmark.toList = a.toList.map Token.unmark := by
  have body : a.body.map Token.unmark = a.body :=
    (List.map_congr_left fun t member =>
      Token.unmark_of_not_isMark (Token.not_isMark_of_isBody (a.body_kind t member))).trans
      (List.map_id _)
  simp [toList, unmark, body]

/-- The tokens of an **entry** without the texts of its marks. -/
theorem EntryTokens.toList_unmark (entry : EntryTokens) :
    entry.unmark.toList = entry.toList.map Token.unmark := by
  cases entry with
  | comment c =>
    have mark : c.mark.unmark = c.mark :=
      Token.unmark_of_not_isMark (by simp [Token.IsMark, c.mark_kind])
    have text : c.text.toList.map Token.unmark = c.text.toList := by
      refine (List.map_congr_left fun t member => ?_).trans (List.map_id _)
      have kind := c.text_kind t (Option.mem_toList.mp member)
      exact Token.unmark_of_not_isMark (by simp [Token.IsMark, kind])
    simp [unmark, EntryTokens.toList, CommentTokens.toList, mark, text]
  | directive d =>
    have name : d.name.unmark = d.name :=
      Token.unmark_of_not_isMark (by simp [Token.IsMark, d.name_kind])
    simp [unmark, EntryTokens.toList, DirectiveTokens.toList, name, List.flatMap_map,
      List.map_flatMap, ArgumentTokens.toList_unmark]

/-- The tokens of entries without the texts of their marks. -/
theorem entryTokens_unmark (entries : List EntryTokens) :
    entryTokens (entries.map EntryTokens.unmark) = (entryTokens entries).map Token.unmark := by
  simp [entryTokens, List.flatMap_map, List.map_flatMap, EntryTokens.toList_unmark]

/-- An argument and the one without the texts of its marks **have windows that are alike**: the
tokens are the same, and what closes them is a mark. -/
theorem ArgumentTokens.argument_unmark_alike (a : ArgumentTokens) :
    a.argument.Alike .marks a.unmark.argument where
  start := a.start.unmark_position.symm
  window := ⟨rfl, (Token.unmark_eq_of_isMark (.inr a.stop_kind) a.stop.unmark_kind.symm
    a.stop.unmark_position.symm)⟩

/-- A **directive** is read the same without the texts of its marks. -/
theorem DirectiveTokens.read_unmark_agree (d : DirectiveTokens) :
    Agree .marks Eq d.read
      { d with arguments := d.arguments.map ArgumentTokens.unmark : DirectiveTokens }.read := by
  have alike : List.Forall₂ (Argument.Alike .marks) (d.arguments.map ArgumentTokens.argument)
      ((d.arguments.map ArgumentTokens.unmark).map ArgumentTokens.argument) := by
    rw [List.map_map, List.forall₂_map_left_iff, List.forall₂_map_right_iff]
    exact List.forall₂_same.mpr fun a _ => a.argument_unmark_alike
  unfold DirectiveTokens.read
  dsimp only
  cases Directive.Keyword.ofName? d.name.value with
  | none => exact .refl
  | some keyword =>
    have body := Directive.Body.read?_agree Token.position_eq_of_unmark_eq alike keyword
    dsimp only
    rw [← Directive.argumentCount_alike alike]
    generalize Directive.Body.read? keyword _ = read at body ⊢
    generalize Directive.Body.read? keyword _ = read' at body ⊢
    cases body with
    | none => exact .refl
    | some agree => exact agree.map_eq

/-- An **entry does not depend on the texts of its marks**, but for an error, whose words do not. -/
theorem EntryTokens.read_unmark_agree (entry : EntryTokens) :
    Agree .marks Eq entry.read entry.unmark.read := by
  cases entry with
  | comment c => exact .refl
  | directive d => exact d.read_unmark_agree.map_eq

/-- The error in words, without its place. -/
def SyntaxError.message (e : SyntaxError) : String := e.cause.message

/-- The **items of entries do not depend on the texts of their marks**, nor do the words of the
error that ends them. -/
theorem readEntries_unmark (entries : List EntryTokens) :
    (readEntries (entries.map EntryTokens.unmark)).1 = (readEntries entries).1 ∧
      (readEntries (entries.map EntryTokens.unmark)).2.map SyntaxError.message =
        (readEntries entries).2.map SyntaxError.message := by
  induction entries with
  | nil => exact ⟨rfl, rfl⟩
  | cons entry entries ih =>
    rw [List.map_cons]
    cases read : entry.read with
    | error e =>
      obtain ⟨e', read', alike⟩ := entry.read_unmark_agree.exists_error read
      rw [readEntries_cons_error _ read, readEntries_cons_error _ read']
      exact ⟨rfl, congrArg some alike.2.symm⟩
    | ok item =>
      obtain ⟨_, read', rfl⟩ := entry.read_unmark_agree.exists_ok read
      rw [readEntries_cons_ok _ read, readEntries_cons_ok _ read']
      exact ⟨congrArg (item :: ·) ih.1, ih.2⟩

/-- What entries are read to depends on their tokens only, not on how these fall into entries. -/
theorem readEntries_congr {entries entries' : List EntryTokens}
    (same : entryTokens entries = entryTokens entries') :
    readEntries entries = readEntries entries' := by
  have read := Document.readTokens_entryTokens entries ⟨⟨.endOfInput, ""⟩, default⟩
  rw [same, Document.readTokens_entryTokens] at read
  obtain ⟨progress, failure⟩ := Prod.mk.inj read
  have items := congrArg (fun progress => progress.items.toList) progress
  simp only [Document.Progress.addAll_items, List.nil_append] at items
  exact Prod.ext items.symm failure.symm

/-! ### Documents

Up to places the document follows from the essence of the tokens, and so do the words of the
error. -/

/-- Whether two results **read alike**: documents that are the same up to places, or errors of one
kind with the same message. -/
inductive Document.ReadsAlike :
    Except ParseError Document → Except ParseError Document → Prop
  | ok {d d' : Document} (same : relocate Position.forget d = relocate Position.forget d') :
      ReadsAlike (.ok d) (.ok d')
  | lexical {e e' : LexError} (same : e.cause.message = e'.cause.message) :
      ReadsAlike (.error (.lexical e)) (.error (.lexical e'))
  | structural {e e' : SyntaxError} (same : e.cause.message = e'.cause.message) :
      ReadsAlike (.error (.structural e)) (.error (.structural e'))

/-- A token without its place, and without its text if it is the mark of an argument. -/
def Token.essence (t : Token) : Token := (relocate Position.forget t).unmark

/-- The items of entries are known, up to places, from the essence of their tokens, and so are the
words of the error that ends them. -/
theorem readEntries_of_essence {entries entries' : List EntryTokens}
    (same : (entryTokens entries).map Token.essence = (entryTokens entries').map Token.essence) :
    relocate Position.forget (readEntries entries).1 =
        relocate Position.forget (readEntries entries').1 ∧
      (readEntries entries).2.map SyntaxError.message =
        (readEntries entries').2.map SyntaxError.message := by
  have bare (entries : List EntryTokens) : (entryTokens entries).map Token.essence =
      entryTokens ((relocate Position.forget entries).map EntryTokens.unmark) := by
    rw [entryTokens_unmark, entryTokens_relocate]
    exact (List.map_map ..).symm
  have words (entries : List EntryTokens) :
      (relocate Position.forget (readEntries entries)).2.map SyntaxError.message =
        (readEntries entries).2.map SyntaxError.message := Option.map_map ..
  rw [bare, bare] at same
  have read := readEntries_congr same
  obtain ⟨items, failure⟩ := readEntries_unmark (relocate Position.forget entries)
  obtain ⟨items', failure'⟩ := readEntries_unmark (relocate Position.forget entries')
  rw [readEntries_relocate] at items items' failure failure'
  refine ⟨?_, ?_⟩
  · exact items.symm.trans ((congrArg Prod.fst read).trans items')
  · rw [← words, ← words, ← failure, ← failure', read]

/-- **Texts whose tokens differ in places and in the texts of marks only** read alike. -/
theorem Document.readsAlike_of_essence {label text text' : String} {tokens tokens' : List Token}
    (tokenized : tokenize label text = .ok tokens)
    (tokenized' : tokenize label text' = .ok tokens')
    (same : tokens.map Token.essence = tokens'.map Token.essence) :
    ReadsAlike (parse label text) (parse label text') := by
  obtain ⟨entries, last, rfl⟩ := exists_entryTokens tokenized
  obtain ⟨entries', last', rfl⟩ := exists_entryTokens tokenized'
  rw [List.map_append, List.map_append] at same
  obtain ⟨items, failure⟩ := readEntries_of_essence (List.append_inj' same rfl).1
  rw [parse_of_entryTokens tokenized, parse_of_entryTokens tokenized']
  revert items failure
  rcases readEntries entries with ⟨read, _ | e⟩ <;> rcases readEntries entries' with ⟨read', _ | e'⟩
  · intro items _
    exact .ok (congrArg (Document.mk label) items)
  · intro _ failure
    cases failure
  · intro _ failure
    cases failure
  · intro _ failure
    exact .structural (Option.some.inj failure)

/-- **Texts whose scans differ in places and in the texts of marks only** read alike. -/
theorem Document.readsAlike_of_scans {label text text' : String}
    (cause : (Lexer.scan label text).failure.map LexError.cause =
      (Lexer.scan label text').failure.map LexError.cause)
    (tokens : (Lexer.scan label text).tokens.map Token.essence =
      (Lexer.scan label text').tokens.map Token.essence) :
    ReadsAlike (parse label text) (parse label text') := by
  rw [Lexer.scan_eq_scanFrom, Lexer.scan_eq_scanFrom] at cause tokens
  cases tokenized : tokenize label text with
  | error e =>
    rw [tokenize_eq_error_iff.mp tokenized] at cause
    obtain ⟨e', failed, same⟩ := Option.map_eq_some_iff.mp cause.symm
    rw [parse_of_lexError tokenized, parse_of_lexError (tokenize_eq_error_iff.mpr failed)]
    exact .lexical (congrArg LexCause.message same.symm)
  | ok found =>
    rw [tokenize_eq_ok_iff.mp tokenized] at cause tokens
    have succeeded := Option.map_eq_none_iff.mp cause.symm
    refine readsAlike_of_essence tokenized (tokenize_eq_ok_iff.mpr ?_) tokens
    rw [← succeeded]

/-- The essence of tokens depends on their lexemes only. -/
theorem map_essence_congr {tokens tokens' : List Token}
    (same : tokens.map Token.toLexeme = tokens'.map Token.toLexeme) :
    tokens.map Token.essence = tokens'.map Token.essence := by
  have essence (tokens : List Token) :
      tokens.map Token.essence = (relocate Position.forget tokens).map Token.unmark :=
    (List.map_map ..).symm
  rw [essence, essence, relocate_forget_congr same]

/-- The **lexemes of an argument**, between those of its marks. -/
theorem ArgumentTokens.lexemes_toList (a : ArgumentTokens) :
    a.toList.map Token.toLexeme = ⟨.argumentStart, a.start.value⟩ ::
      (a.body.map Token.toLexeme ++ [⟨.argumentStop, a.stop.value⟩]) := by
  simp [toList, ← a.start_kind, ← a.stop_kind]

/-- The essence of an argument is that of what stands between its marks. -/
theorem ArgumentTokens.essence_congr {a a' : ArgumentTokens}
    (body : a.body.map Token.toLexeme = a'.body.map Token.toLexeme) :
    a.toList.map Token.essence = a'.toList.map Token.essence := by
  have start : a.start.essence = a'.start.essence :=
    Token.unmark_eq_of_isMark (.inl a.start_kind) (a.start_kind.trans a'.start_kind.symm) rfl
  have stop : a.stop.essence = a'.stop.essence :=
    Token.unmark_eq_of_isMark (.inr a.stop_kind) (a.stop_kind.trans a'.stop_kind.symm) rfl
  simp only [toList, List.map_cons, List.map_append, List.map_nil, start, stop,
    map_essence_congr body]

/-- The **two ways to write an argument** agree at every place of an argument and for every text
that may be written in both.  The tokens are the same up to places and the marks around the text,
and so is the reason for which a text is malformed; and the texts read alike. -/
theorem Document.parse_styles (label front text back : String)
    (place : (Lexer.run (.start label) .lineStart front.toList).2 = .reading .between)
    (bare : ReadsBare text) (ends : Grammar.EndsArgument back.toList) :
    (∃ body after : List Lexeme, (∀ lexeme ∈ body, lexeme.kind.IsBody) ∧
      (Lexer.scan label (front ++ text ++ back)).tokens.map Token.toLexeme =
        (Lexer.run (.start label) .lineStart front.toList).1.map Token.toLexeme ++
          (⟨.argumentStart, ""⟩ :: body ++ ⟨.argumentStop, ""⟩ :: after) ∧
      (Lexer.scan label (front ++ ("\"" ++ text ++ "\"") ++ back)).tokens.map Token.toLexeme =
        (Lexer.run (.start label) .lineStart front.toList).1.map Token.toLexeme ++
          (⟨.argumentStart, "\""⟩ :: body ++ ⟨.argumentStop, "\""⟩ :: after)) ∧
    (Lexer.scan label (front ++ text ++ back)).failure.map LexError.cause =
      (Lexer.scan label (front ++ ("\"" ++ text ++ "\"") ++ back)).failure.map LexError.cause ∧
    ReadsAlike (parse label (front ++ text ++ back))
      (parse label (front ++ ("\"" ++ text ++ "\"") ++ back)) := by
  obtain ⟨unquoted, quoted, behind, behindQuoted, scanned, scannedQuoted, start, stop, startQuoted,
    stopQuoted, body, same⟩ := Grammar.scanFrom_styles bare ends
  -- Both texts are cut where the argument begins; what is scanned before it is the same for both.
      ((Position.start label).advance front.toList)
  have lexemes := Lexer.Scan.lexemes_of_forget same
  have cause := Lexer.Scan.cause_of_forget same
  generalize isBefore : (Lexer.run (.start label) .lineStart front.toList).1 = before
  have scan : Lexer.scan label (front ++ text ++ back) =
      behind.prepend (before ++ unquoted.toList) := by
    rw [Lexer.scan_eq_scanFrom, String.toList_append, String.toList_append, List.append_assoc,
      Lexer.scanFrom_append, place, scanned, Lexer.Scan.prepend_prepend, isBefore]
  have scanQuoted : Lexer.scan label (front ++ ("\"" ++ text ++ "\"") ++ back) =
      behindQuoted.prepend (before ++ quoted.toList) := by
    have split : (front ++ ("\"" ++ text ++ "\"") ++ back).toList =
        front.toList ++ '\x22' :: (text.toList ++ '\x22' :: back.toList) := by simp
    rw [Lexer.scan_eq_scanFrom, split, Lexer.scanFrom_append, place, scannedQuoted,
      Lexer.Scan.prepend_prepend, isBefore]
  have causes : (Lexer.scan label (front ++ text ++ back)).failure.map LexError.cause =
      (Lexer.scan label (front ++ ("\"" ++ text ++ "\"") ++ back)).failure.map LexError.cause := by
    rw [scan, scanQuoted]
    exact cause.symm
  have essences : (Lexer.scan label (front ++ text ++ back)).tokens.map Token.essence =
      (Lexer.scan label (front ++ ("\"" ++ text ++ "\"") ++ back)).tokens.map Token.essence := by
    rw [scan, scanQuoted]
    simp only [Lexer.Scan.prepend_tokens, List.map_append, ArgumentTokens.essence_congr body,
      map_essence_congr lexemes]
  refine ⟨⟨unquoted.body.map Token.toLexeme, behind.tokens.map Token.toLexeme, ?_, ?_, ?_⟩,
    causes, readsAlike_of_scans causes essences⟩
  · exact List.forall_mem_map.mpr unquoted.body_kind
  · rw [scan, Lexer.Scan.prepend_tokens, List.map_append, List.map_append,
      unquoted.lexemes_toList, start, stop]
    simp
  · rw [scanQuoted, Lexer.Scan.prepend_tokens, List.map_append, List.map_append,
      quoted.lexemes_toList, startQuoted, stopQuoted, body, lexemes]
    simp

/-- An escaped blank in the last argument of a text. -/
theorem Document.parse_styles_blank :
    (Lexer.run (.start "") .lineStart "SecMarker ".toList).2 = .reading .between ∧
    ReadsBare "a\\ b" ∧ Grammar.EndsArgument "".toList ∧
    ReadsAlike (parse "" "SecMarker a\\ b") (parse "" "SecMarker \"a\\ b\"") := by
  have place : (Lexer.run (.start "") .lineStart "SecMarker ".toList).2 = .reading .between := by
    decide +kernel
  have bare : ReadsBare "a\\ b" := by
    refine ⟨by decide, by decide, by simp, ?_⟩
    have letter {c : Char} (isLetter : c = 'a' ∨ c = 'b') :
        c ≠ '\\' ∧ Text.isBlank c = false := by
      rcases isLetter with rfl | rfl <;> decide
    exact .char (letter (.inl rfl)).1 (letter (.inl rfl)).2
      (.pair ' ' (.char (letter (.inr rfl)).1 (letter (.inr rfl)).2 .nil))
  have ends : Grammar.EndsArgument "".toList := nofun
  exact ⟨place, bare, ends, (parse_styles "" "SecMarker " "a\\ b" "" place bare ends).2.2⟩

end WafRules
