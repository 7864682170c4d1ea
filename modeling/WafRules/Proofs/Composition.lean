import WafRules.Proofs.Grammar.Reading
import WafRules.Proofs.Place
import WafRules.Proofs.Relocation.Entries
import WafRules.Proofs.Relocation.Lexing

/-!
# Texts read in parts

A text may be cut behind any line feed that is not part of a continuation.  Nothing that was read
before the cut is left over behind it: the lexer is at the start of a line and holds nothing, and
every entry before the cut is complete.  The second part is read as if it stood alone, and only
its line numbers change.

Two facts about the lexer carry this.  At the start of a line its state is that of the start of a
text, so the second part is scanned as a text of its own from a place further down; and relocation
tells how a scan from there differs from one that begins in the first line.

## Main Definitions

* `Lexer.State.heldBack` — the backslash, and carriage return, whose meaning is still open.
* `EndsLine` — the texts behind which a cut may be made.

## Main Statements

* `Lexer.run_heldBack` — what is held back is the end of what was read.
* `Lexer.scanFrom_append_of_endsLine` — the tokens of a text in two parts.
* `Document.parse_append` — the document of a text in two parts.
-/

namespace WafRules

namespace Lexer

/-! ### What is held back

Only an escape that has begun makes a line feed into something else than the end of a line.  What
the state holds back is a suffix of what was read, so a text that does not end in a backslash, alone
or with a return, holds back nothing. -/

/-- The characters read last whose meaning depends on the next one. -/
def State.heldBack : State → List Char
  | .escape _ _ => ['\\']
  | .escapeReturn _ _ => ['\\', '\r']
  | .lineStart | .comment _ | .reading _ | .blanks _ _ | .failed _ => []

/-- A state that holds nothing back. -/
theorem State.heldBack_suffix {state : State} (nothing : state.heldBack = []) (cs : List Char) :
    state.heldBack <:+ cs := by
  rw [nothing]
  exact List.nil_suffix

theorem continued_heldBack (context : Context) : (continued context).2.heldBack = [] := by
  cases context <;> rfl

/-- In an argument only a backslash is held back. -/
theorem stepBody_heldBack (quoting : Quoting) (word : Option Run) (p : Position) (c : Char) :
    (stepBody quoting word p c).2.heldBack <:+ [c] := by
  unfold stepBody
  split
  · next backslash =>
    subst backslash
    exact List.suffix_rfl
  · refine State.heldBack_suffix ?_ _
    repeat' split
    all_goals rfl

theorem stepBetween_heldBack (p : Position) (c : Char) :
    (stepBetween p c).2.heldBack <:+ [c] := by
  unfold stepBetween
  split
  · exact List.nil_suffix
  · split
    · next backslash =>
      subst backslash
      exact List.suffix_rfl
    · split
      · exact List.nil_suffix
      · split
        · exact List.nil_suffix
        · exact stepBody_heldBack .bare none p c

theorem stepName_heldBack (run : Run) (p : Position) (c : Char) :
    (stepName run p c).2.heldBack <:+ [c] := by
  unfold stepName
  split
  · exact List.nil_suffix
  · split
    · exact List.nil_suffix
    · split
      · next backslash =>
        subst backslash
        exact List.suffix_rfl
      · refine State.heldBack_suffix ?_ _
        split <;> rfl

/-- One **character of a text.**  Either its meaning is settled with it, or it is held back behind
what was. -/
theorem step_heldBack (p : Position) (state : State) (c : Char) :
    (step p state c).2.heldBack <:+ state.heldBack ++ [c] := by
  -- Except behind an escape what is held back is at most the character itself.
  have behind {after : State} (alone : after.heldBack <:+ [c]) :
      after.heldBack <:+ state.heldBack ++ [c] := alone.trans (List.suffix_append _ _)
  cases state with
  | lineStart =>
    refine State.heldBack_suffix ?_ _
    show (stepLineStart p c).2.heldBack = []
    unfold stepLineStart
    repeat' split
    all_goals rfl
  | comment run =>
    refine State.heldBack_suffix ?_ _
    show (stepComment run c).2.heldBack = []
    unfold stepComment
    split <;> rfl
  | reading context =>
    cases context with
    | name run => exact behind (stepName_heldBack run p c)
    | between => exact behind (stepBetween_heldBack p c)
    | body quoting word => exact behind (stepBody_heldBack quoting word p c)
  | blanks opened run =>
    show (stepBlanks opened run p c).2.heldBack <:+ _
    unfold stepBlanks
    split
    · exact List.nil_suffix
    · exact behind (stepBody_heldBack (.quoted opened) none p c)
  | escape context backslash =>
    show (stepEscape context backslash c).2.heldBack <:+ _
    unfold stepEscape
    split
    · exact State.heldBack_suffix (continued_heldBack context) _
    · split
      · next carriageReturn =>
        subst carriageReturn
        exact List.suffix_rfl
      · refine State.heldBack_suffix ?_ _
        cases context <;> rfl
  | escapeReturn context backslash =>
    show (stepEscapeReturn context backslash p c).2.heldBack <:+ _
    unfold stepEscapeReturn
    split
    · exact State.heldBack_suffix (continued_heldBack context) _
    · cases context with
      | name run => exact List.nil_suffix
      | between => exact List.nil_suffix
      | body quoting word => exact behind (stepBody_heldBack quoting _ p c)
  | failed error => exact List.nil_suffix

/-- A **stretch of text.**  What is held back behind it is the end of what was read. -/
theorem run_heldBack (p : Position) (state : State) (cs : List Char) :
    (run p state cs).2.heldBack <:+ state.heldBack ++ cs := by
  induction cs generalizing p state with
  | nil =>
    rw [List.append_nil]
    exact List.suffix_rfl
  | cons c cs ih =>
    obtain ⟨settled, split⟩ := step_heldBack p state c
    refine (ih (p.next c) (step p state c).2).trans ⟨settled, ?_⟩
    rw [← List.append_assoc, split, List.append_assoc, List.singleton_append]

/-! ### A line feed

A line feed ends the line in every state that holds nothing back, or it is an error. -/

theorem stepBody_lineFeed (quoting : Quoting) (word : Option Run) (p : Position) :
    (stepBody quoting word p '\n').2 = .lineStart ∨
      ∃ error, (stepBody quoting word p '\n').2 = .failed error := by
  cases quoting with
  | bare => exact .inl rfl
  | quoted opened => exact .inr ⟨_, rfl⟩

/-- A line feed ends its line, unless a backslash is held back before it. -/
theorem step_lineFeed (p : Position) {state : State} (nothing : state.heldBack = []) :
    (step p state '\n').2 = .lineStart ∨ ∃ error, (step p state '\n').2 = .failed error := by
  cases state with
  | lineStart => exact .inl rfl
  | comment run => exact .inl rfl
  | reading context =>
    cases context with
    | name run => exact .inl rfl
    | between => exact .inl rfl
    | body quoting word => exact stepBody_lineFeed quoting word p
  | blanks opened run => exact stepBody_lineFeed (.quoted opened) none p
  | escape context backslash => cases nothing
  | escapeReturn context backslash => cases nothing
  | failed error => exact .inr ⟨error, rfl⟩

end Lexer

/-- The texts behind which a cut may be made: the empty one, and those that end with a line feed
before which there is no backslash, nor a backslash and a carriage return. -/
def EndsLine (text : String) : Prop :=
  text.toList = [] ∨
    ∃ before, text.toList = before ++ ['\n'] ∧ ¬ ['\\'] <:+ before ∧ ¬ ['\\', '\r'] <:+ before

namespace Lexer

/-- A state reached at the end of such a text holds nothing back. -/
theorem heldBack_eq_nil {before : List Char} {state : State} (held : state.heldBack <:+ before)
    (noBackslash : ¬ ['\\'] <:+ before) (noReturn : ¬ ['\\', '\r'] <:+ before) :
    state.heldBack = [] := by
  cases state with
  | escape context backslash => exact absurd held noBackslash
  | escapeReturn context backslash => exact absurd held noReturn
  | lineStart | comment | reading | blanks | failed => rfl

/-- The **lexer starts afresh at the end of a line.** -/
theorem run_of_endsLine {label text : String} (ends : EndsLine text) {tokens : List Token}
    (scanned : scanFrom (.start label) .lineStart text.toList = ⟨tokens, none⟩) :
    (run (.start label) .lineStart text.toList).2 = .lineStart := by
  rcases ends with empty | ⟨before, split, noBackslash, noReturn⟩
  · rw [empty]
    rfl
  have nothing : (run (.start label) .lineStart before).2.heldBack = [] :=
    heldBack_eq_nil (run_heldBack _ _ before) noBackslash noReturn
  have last : (run (.start label) .lineStart text.toList).2 =
      (step ((Position.start label).advance before) (run (.start label) .lineStart before).2
        '\n').2 := by
    rw [split, run_append]
    rfl
  -- a line feed inside quotes fails, but then the text would not have been scanned to its end
  rcases step_lineFeed ((Position.start label).advance before) nothing with fresh | ⟨e, failed⟩
  · exact last.trans fresh
  · have stopped := scanFrom_append (.start label) .lineStart text.toList []
    rw [List.append_nil, scanned, last, failed, scanFrom_failed] at stopped
    cases congrArg Scan.failure stopped

/-- The place behind such a text is the first place of a line. -/
theorem advance_of_endsLine (label : String) {text : String} (ends : EndsLine text) :
    (Position.start label).advance text.toList =
      (Position.start label).shiftLines (text.toList.count '\n') := by
  rw [Position.advance_start]
  rcases ends with empty | ⟨before, split, -, -⟩
  · rw [empty]
    rfl
  · rw [split]
    unfold Position.placeAfter Position.shiftLines
    rw [List.reverse_append]
    rfl

/-- The **tokens of a text in two parts.**  Behind the entries of the first part stand the tokens
of the second, moved down by the lines of the first. -/
theorem scanFrom_append_of_endsLine {label text : String} (ends : EndsLine text)
    {entries : List EntryTokens} {last : Token}
    (scanned : scanFrom (.start label) .lineStart text.toList =
      ⟨entryTokens entries ++ [last], none⟩) (cs : List Char) :
    scanFrom (.start label) .lineStart (text.toList ++ cs) =
      (relocate (Position.shiftLines (text.toList.count '\n'))
        (scanFrom (.start label) .lineStart cs)).prepend (entryTokens entries) := by
  have fresh := run_of_endsLine ends scanned
  have complete : (run (.start label) .lineStart text.toList).1 = entryTokens entries := by
    have whole := scanFrom_append (.start label) .lineStart text.toList []
    rw [List.append_nil, scanned, fresh] at whole
    exact (List.append_inj' (congrArg Scan.tokens whole) rfl).1.symm
  rw [scanFrom_append, fresh, complete, advance_of_endsLine label ends]
  exact congrArg (Scan.prepend (entryTokens entries))
    (scanFrom_relocate (Position.followsText_shiftLines _) (.start label) .lineStart cs)

end Lexer

namespace Document

/-- The document of a text in two parts is made from the items of the first part and from what
the second part has as a text of its own. -/
theorem parse_append_eq {label first : String} (second : String) {read : Document}
    (parsed : parse label first = .ok read) (ends : EndsLine first) :
    parse label (first ++ second) =
      (relocate (Position.shiftLines (first.toList.count '\n')) (parse label second)).map
        fun rest => ⟨label, read.items ++ rest.items⟩ := by
  obtain ⟨tokens, tokenized⟩ : ∃ tokens, tokenize label first = .ok tokens := by
    cases tokenized : tokenize label first with
    | ok tokens => exact ⟨tokens, rfl⟩
    | error e =>
      rw [parse_of_lexError tokenized] at parsed
      cases parsed
  obtain ⟨entries, last, rfl⟩ := exists_entryTokens tokenized
  have items : readEntries entries = (read.items, none) := by
    rw [parse_of_entryTokens tokenized] at parsed
    cases result : readEntries entries with
    | mk items failure =>
      rw [result] at parsed
      cases failure with
      | some e => cases parsed
      | none =>
        cases parsed
        rfl
  have scanned := Lexer.scanFrom_append_of_endsLine ends (tokenize_eq_ok_iff.mp tokenized)
    second.toList
  rw [← String.toList_append] at scanned
  -- the second part is malformed, and so is the whole; or it has entries of its own
  cases tokenizedSecond : tokenize label second with
  | error e =>
    have malformed : tokenize label (first ++ second) =
        .error (relocate (Position.shiftLines (first.toList.count '\n')) e) := by
      rw [tokenize_eq_error_iff, scanned]
      exact congrArg (relocate _) (tokenize_eq_error_iff.mp tokenizedSecond)
    rw [parse_of_lexError tokenizedSecond, parse_of_lexError malformed]
    rfl
  | ok tokens =>
    obtain ⟨others, lastOther, rfl⟩ := exists_entryTokens tokenizedSecond
    have together : tokenize label (first ++ second) =
        .ok (entryTokens (entries ++ relocate (Position.shiftLines (first.toList.count '\n'))
          others) ++ [relocate (Position.shiftLines (first.toList.count '\n')) lastOther]) := by
      rw [tokenize_eq_ok_iff, scanned, tokenize_eq_ok_iff.mp tokenizedSecond, entryTokens_append,
        entryTokens_relocate, List.append_assoc]
      exact congrArg (fun tokens => Lexer.Scan.mk (entryTokens entries ++ tokens) none)
        (relocate_append _ _)
    rw [parse_of_entryTokens tokenizedSecond, parse_of_entryTokens together, readEntries_append,
      items, readEntries_relocate]
    cases readEntries others with
    | mk otherItems failure => cases failure <;> rfl

/-- The **document of a text in two parts.**  The first part ends with a line and has a document.
If the second part has one too, its items are added, every place in them moved down by the lines
of the first part.  If it has none, its error is the error of the whole, moved in the same way
and in the same words. -/
theorem parse_append (label first second : String) (read : Document)
    (parsed : parse label first = .ok read) (ends : EndsLine first) :
    (∀ rest, parse label second = .ok rest →
      parse label (first ++ second) =
        .ok ⟨label, read.items ++
          (relocate (Position.shiftLines (first.toList.count '\n')) rest).items⟩) ∧
    (∀ e, parse label second = .error e →
      parse label (first ++ second) =
          .error (relocate (Position.shiftLines (first.toList.count '\n')) e) ∧
        (relocate (Position.shiftLines (first.toList.count '\n')) e).message = e.message) := by
  have whole := parse_append_eq second parsed ends
  refine ⟨?_, ?_⟩
  · intro rest parsedRest
    rw [whole, parsedRest]
    rfl
  · intro e failed
    refine ⟨?_, message_relocate _ e⟩
    rw [whole, failed]
    rfl

/-- A comment and a directive without arguments, each behind a setting on a line of its own. -/
theorem parse_append_setting :
    EndsLine "SecRuleEngine On\n" ∧
    parse "a.conf" "SecRuleEngine On\n" =
      .ok ⟨"a.conf", [.directive ⟨.ruleEngine .on, ⟨some "a.conf", 1, 1⟩⟩]⟩ ∧
    parse "a.conf" ("SecRuleEngine On\n" ++ "# end") =
      .ok ⟨"a.conf", [.directive ⟨.ruleEngine .on, ⟨some "a.conf", 1, 1⟩⟩,
        .comment ⟨" end", ⟨some "a.conf", 2, 1⟩⟩]⟩ ∧
    parse "a.conf" ("SecRuleEngine On\n" ++ "SecMarker") =
      .error (.structural ⟨.argumentCount "SecMarker" 1 1 0, ⟨some "a.conf", 2, 1⟩⟩) := by
  have ends : EndsLine "SecRuleEngine On\n" :=
    .inr ⟨"SecRuleEngine On".toList, by decide, by decide, by decide⟩
  have parsed : parse "a.conf" "SecRuleEngine On\n" =
      .ok ⟨"a.conf", [.directive ⟨.ruleEngine .on, ⟨some "a.conf", 1, 1⟩⟩]⟩ := by decide +kernel
  refine ⟨ends, parsed, ?_, ?_⟩
  · exact (parse_append _ _ "# end" _ parsed ends).1
      ⟨"a.conf", [.comment ⟨" end", ⟨some "a.conf", 1, 1⟩⟩]⟩ (by decide +kernel)
  · exact ((parse_append _ _ "SecMarker" _ parsed ends).2
      (.structural ⟨.argumentCount "SecMarker" 1 1 0, ⟨some "a.conf", 1, 1⟩⟩)
      (by decide +kernel)).1

end Document

end WafRules
