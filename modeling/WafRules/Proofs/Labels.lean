import WafRules.Command
import WafRules.Proofs.Partial
import WafRules.Proofs.Relocation.Dump
import WafRules.Proofs.Relocation.Entries
import WafRules.Proofs.Relocation.Lexing

/-!
# Labels of texts

A text is read under a label, which every place in it carries and no reader looks at.  So the same
text under another label has the same document, or the same error, with the other label at every
place.  Whether a text comes from a file or from the input makes no other difference, down to the
words that a command prints.

To give the places of a text another label is a motion of places that agrees with reading on, so
what is known of relocation applies to the lexer and to the readers.

## Main Definitions

* `Position.relabel`, `ParseError.relabel`, `Document.relabel` — the same under another label.
* `Command.SameButLabel` — outcomes that differ in the label, and in the words before an error.

## Main Statements

* `Lexer.scan_relabel` — the tokens of a text under another label.
* `Document.parsePartial_relabel_eq` — its partial document.
* `Document.parse_relabel` — its document, and the commands that print it.
-/

namespace WafRules

/-! ### Other labels

Another label changes the file of a place and neither line nor column, which is a motion that agrees
with reading on.  It also moves the places in documents and errors, and in the words for errors it
changes the part that names the file. -/

namespace Position

/-- The same place in a text of another label. -/
def relabel (label : String) (p : Position) : Position := { p with file := (start label).file }

theorem followsText_relabel (label : String) : FollowsText (relabel label) := by
  intro p c
  unfold next relabel
  split <;> rfl

/-- The label in front of a place in writing; an anonymous text has none. -/
def mark (label : String) : String := if label.isEmpty then "" else label ++ ":"

theorem render_relabel (label : String) (p : Position) :
    (p.relabel label).render = mark label ++ (p.relabel "").render := by
  unfold mark relabel render start
  by_cases anonymous : label.isEmpty = true
  · simp [anonymous]
  · simp [anonymous, String.append_assoc]

end Position

/-- The same error in a text of another label. -/
def ParseError.relabel (label : String) (e : ParseError) : ParseError :=
  relocate (Position.relabel label) e

/-- An error that has a place names the label in front of it, and nowhere else. -/
theorem ParseError.render_relabel (label : String) {e : ParseError} (placed : e.position? ≠ none) :
    (e.relabel label).render = Position.mark label ++ (e.relabel "").render := by
  cases e with
  | storage e => exact absurd rfl placed
  | lexical e | structural e =>
    simp only [relabel, relocate, render, Position.render_relabel label e.position,
      String.append_assoc]

theorem ParseError.position?_relabel (label : String) (e : ParseError) :
    (e.relabel label).position? = e.position?.map (Position.relabel label) := by
  cases e <;> rfl

namespace Document

/-- The same document of a text of another label. -/
def relabel (label : String) (d : Document) : Document :=
  ⟨label, relocate (Position.relabel label) d.items⟩

/-- The same partial document of a text of another label. -/
def Partial.relabel (label : String) (p : Partial) : Partial :=
  ⟨p.document.relabel label, p.failure.map (ParseError.relabel label)⟩

/-- What is left when no error is tolerated, under another label. -/
theorem Partial.strict_relabel (label : String) (p : Partial) :
    (p.relabel label).strict =
      match p.strict with
      | .ok d => .ok (d.relabel label)
      | .error e => .error (e.relabel label) := by
  obtain ⟨document, failure⟩ := p
  cases failure <;> rfl

end Document

/-! ### Reading under another label

Each way of reading a text is a case of what is known of relocated scans and readers. -/

namespace Lexer

/-- The **tokens of a text under another label.** -/
theorem scan_relabel (first second text : String) :
    scan second text = relocate (Position.relabel second) (scan first text) := by
  rw [scan_eq_scanFrom, scan_eq_scanFrom]
  exact scanFrom_relocate (Position.followsText_relabel second) (.start first) .lineStart
    text.toList

/-- What is left over of a malformed text has the same kinds at other places. -/
theorem LeavesOver.relocate (f : Position → Position) {tokens : List Token} {e : LexError}
    (leftOver : LeavesOver tokens e) : LeavesOver (relocate f tokens) (relocate f e) := by
  rcases leftOver with ⟨rfl, outside⟩ | ⟨name, others, rfl, isName, noName, inside⟩
  · exact .inl ⟨rfl, outside⟩
  · refine .inr ⟨WafRules.relocate f name, WafRules.relocate f others, rfl, isName, ?_, inside⟩
    intro t moved
    obtain ⟨original, member, rfl⟩ := List.mem_map.mp moved
    exact noName original member

end Lexer

namespace Document

/-- The **partial document of a text under another label.**  Well formed or not, the text is read
to entries, and these are the same at other places. -/
theorem parsePartial_relabel_eq (first second text : String) :
    parsePartial second text = (parsePartial first text).relabel second := by
  have scanned := Lexer.scan_relabel first second text
  cases tokenized : tokenize first text with
  | ok tokens =>
    obtain ⟨entries, last, rfl⟩ := exists_entryTokens tokenized
    have again : tokenize second text =
        .ok (entryTokens (relocate (Position.relabel second) entries) ++
          [relocate (Position.relabel second) last]) := by
      rw [Lexer.scan_eq_scanFrom, Lexer.scan_eq_scanFrom, tokenize_eq_ok_iff.mp tokenized]
        at scanned
      rw [tokenize_eq_ok_iff, scanned, entryTokens_relocate]
      exact congrArg (Lexer.Scan.mk · none) (relocate_append _ _)
    rw [parsePartial_of_entryTokens tokenized, parsePartial_of_entryTokens again,
      readEntries_relocate]
    cases readEntries entries with
    | mk items failure => cases failure <;> rfl
  | error e =>
    have failed := tokenize_eq_error_iff.mp tokenized
    rw [← Lexer.scan_eq_scanFrom] at failed
    -- The entries in front of the error are read from one cut of the tokens under either label.
    obtain ⟨-, -, entries, others, -, -, -, -, tokens, leftOver⟩ := exists_salvaged failed
    have malformed : Lexer.scan first text = ⟨entryTokens entries ++ others, some e⟩ := by
      rw [← tokens, ← failed]
    have again : Lexer.scan second text =
        ⟨entryTokens (relocate (Position.relabel second) entries) ++
            relocate (Position.relabel second) others,
          some (relocate (Position.relabel second) e)⟩ := by
      rw [scanned, malformed, entryTokens_relocate]
      exact congrArg (Lexer.Scan.mk · _) (relocate_append _ _)
    rw [parsePartial_of_leavesOver malformed leftOver,
      parsePartial_of_leavesOver again (leftOver.relocate _), readEntries_relocate]
    rfl

/-- The document of a text under another label, or its error. -/
theorem parse_relabel_eq (first second text : String) :
    parse second text =
      match parse first text with
      | .ok d => .ok (d.relabel second)
      | .error e => .error (e.relabel second) := by
  rw [parse_eq_strict, parsePartial_relabel_eq first second, Partial.strict_relabel,
    ← parse_eq_strict]

/-- A document has the label of its text at every place. -/
theorem relabel_of_parse {label text : String} {d : Document} (read : parse label text = .ok d) :
    d.relabel label = d := by
  have again := parse_relabel_eq label label text
  rw [read] at again
  exact (Except.ok.inj again).symm

/-- So does an error. -/
theorem relabel_of_parse_error {label text : String} {e : ParseError}
    (failed : parse label text = .error e) : e.relabel label = e := by
  have again := parse_relabel_eq label label text
  rw [failed] at again
  exact (Except.error.inj again).symm

/-- The error of a text has a place in it. -/
theorem position?_ne_none_of_parse {label text : String} {e : ParseError}
    (failed : parse label text = .error e) : e.position? ≠ none := by
  intro nowhere
  cases tokenized : tokenize label text with
  | error found =>
    rw [parse_of_lexError tokenized] at failed
    cases failed
    cases nowhere
  | ok tokens =>
    obtain ⟨entries, last, rfl⟩ := exists_entryTokens tokenized
    rw [parse_of_entryTokens tokenized] at failed
    cases result : readEntries entries with
    | mk items failure =>
      rw [result] at failed
      cases failure with
      | none => cases failed
      | some found =>
        cases failed
        cases nowhere

end Document

/-! ### Commands

What is printed contains the label where it contains places.  A command that reads a file and one
that reads its input are therefore the same but for the label they pass on. -/

namespace Command

/-- A text of JSON on one line or indented. -/
def write (pretty : Bool) (json : Json) : String := if pretty then json.pretty else json.compact

/-- The dump of a document with a label and entries. -/
def labelledDump (label : String) (items : Json) : Json :=
  .object [("name", .text label), ("items", items)]

/-- Whether the outcome of printing a file and the outcome of printing the input differ in nothing
but the label of the text.  Both print a dump, and these are the same up to the labels in them; or
both print an error, each in front of the same words with its own label and in its own way. -/
inductive SameButLabel (path : String) (pretty : Bool) : Outcome → Outcome → Prop
  | dumps {items items' : Json} (moved : Json.Moved (Position.relabel path) items items') :
    SameButLabel path pretty ⟨0, write pretty (labelledDump path items') ++ "\n", ""⟩
      ⟨0, write pretty (labelledDump inputLabel items) ++ "\n", ""⟩
  | errors (words : String) :
    SameButLabel path pretty
      ⟨1, "", "Error parsing " ++ path ++ ": " ++ Position.mark path ++ words ++ "\n"⟩
      ⟨1, "", "Parse error: " ++ Position.mark inputLabel ++ words ++ "\n"⟩

theorem success_singleton (line : String) : Outcome.success [line] = ⟨0, line ++ "\n", ""⟩ := by
  simp [Outcome.success, String.join]

/-- A **file and the input with the same text** are printed alike.  The label is in the places of a
document and in front of an error, and nothing else that is printed depends on it. -/
theorem sameButLabel_of_text (s : Storage) {path text : String} {input : ByteArray}
    (held : s.read path = .ok input) (isText : String.fromUTF8? input = some text)
    (pretty : Bool) :
    SameButLabel path pretty (runParse s path pretty) (runStdin input pretty) := by
  have read : textOfBytes input = .ok text := by rw [textOfBytes, isText]
  have again := Document.parse_relabel_eq inputLabel path text
  unfold runParse runStdin
  rw [s.load_eq_parse held isText, again, read]
  dsimp only
  cases parsed : Document.parse inputLabel text with
  | ok d =>
    have moved := Document.items_moved (Position.relabel path) d.items
    have dumped : dump pretty d =
        write pretty (labelledDump inputLabel (.list (d.items.map Item.toJson))) := by
      rw [← Document.relabel_of_parse parsed]
      rfl
    dsimp only
    rw [success_singleton, success_singleton, dumped]
    exact .dumps moved
  | error e =>
    have placed := Document.position?_ne_none_of_parse parsed
    have own : e.render = Position.mark inputLabel ++ (e.relabel "").render := by
      rw [← e.render_relabel inputLabel placed, Document.relabel_of_parse_error parsed]
    have other := e.render_relabel path placed
    dsimp only
    rw [own, other, ← String.append_assoc, ← String.append_assoc]
    exact .errors _

end Command

namespace Document

open Command (SameButLabel)

/-- The **label of a text has no part in what is read.**  Under another label the text has the same
document with that label, or the same error: of the same kind, in the same words, on the same line
and in the same column.  The same holds of its partial document.  So a file and the input that hold
the same text are printed alike. -/
theorem parse_relabel (first second text : String) :
    (∀ d, parse first text = .ok d → parse second text = .ok (d.relabel second)) ∧
    (∀ e, parse first text = .error e →
      parse second text = .error (e.relabel second) ∧ (e.relabel second).message = e.message ∧
        (e.relabel second).position? = e.position?.map (Position.relabel second)) ∧
    parsePartial second text = (parsePartial first text).relabel second ∧
    ∀ (s other : Storage) (path : String) (input unread : ByteArray) (pretty : Bool),
      s.read path = .ok input → String.fromUTF8? input = some text →
      SameButLabel path pretty (Command.run s unread (.parse path pretty))
        (Command.run other input (.stdin pretty)) := by
  have again := parse_relabel_eq first second text
  refine ⟨?_, ?_, parsePartial_relabel_eq first second text, ?_⟩
  · intro d read
    rw [again, read]
  · intro e failed
    refine ⟨?_, message_relocate _ e, e.position?_relabel second⟩
    rw [again, failed]
  · intro s other path input unread pretty held isText
    exact Command.sameButLabel_of_text s held isText pretty

/-- A setting in a file and without a label, the same with a value that is none, and the setting as
the text of a file and of the input. -/
theorem parse_relabel_setting :
    parse "a.conf" "SecRuleEngine On" =
      .ok ⟨"a.conf", [.directive ⟨.ruleEngine .on, ⟨some "a.conf", 1, 1⟩⟩]⟩ ∧
    parse "" "SecRuleEngine On" =
      .ok ⟨"", [.directive ⟨.ruleEngine .on, ⟨none, 1, 1⟩⟩]⟩ ∧
    parse "a.conf" "SecRuleEngine" =
      .error (.structural ⟨.argumentCount "SecRuleEngine" 1 1 0, ⟨some "a.conf", 1, 1⟩⟩) ∧
    parse "" "SecRuleEngine" =
      .error (.structural ⟨.argumentCount "SecRuleEngine" 1 1 0, ⟨none, 1, 1⟩⟩) ∧
    ∃ (s : Storage) (input : ByteArray), s.read "a.conf" = .ok input ∧
      String.fromUTF8? input = some "SecRuleEngine On" ∧
      SameButLabel "a.conf" true (Command.run s input (.parse "a.conf" true))
        (Command.run s input (.stdin true)) := by
  have read : parse "a.conf" "SecRuleEngine On" =
      .ok ⟨"a.conf", [.directive ⟨.ruleEngine .on, ⟨some "a.conf", 1, 1⟩⟩]⟩ := by decide +kernel
  have failed : parse "a.conf" "SecRuleEngine" =
      .error (.structural ⟨.argumentCount "SecRuleEngine" 1 1 0, ⟨some "a.conf", 1, 1⟩⟩) := by
    decide +kernel
  have isText : String.fromUTF8? "SecRuleEngine On".toUTF8 = some "SecRuleEngine On" := by
    decide +kernel
  let s : Storage := ⟨fun _ => .ok "SecRuleEngine On".toUTF8, fun _ => .error .notADirectory⟩
  obtain ⟨documents, -, -, commands⟩ := parse_relabel "a.conf" "" "SecRuleEngine On"
  obtain ⟨-, errors, -, -⟩ := parse_relabel "a.conf" "" "SecRuleEngine"
  exact ⟨read, documents _ read, failed, (errors _ failed).1, s, _, rfl, isText,
    commands s s "a.conf" _ _ true rfl isText⟩

end Document

end WafRules
