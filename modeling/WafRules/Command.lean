import WafRules.Document.Dump
import WafRules.Storage.Load

/-!
# Commands

The commands that inspect configurations: print the document of a file or of the input as JSON,
print the tokens of a file, and check all configuration files of a directory.

## Main Definitions

* `Command` — a command with its arguments.
* `Outcome` — the texts a command prints, and its exit code.
* `Command.run` — what a command does, given a storage and the bytes of the input.
* `Command.ofArguments?` — the command that a list of words asks for.
-/

namespace WafRules

/-- A command with its arguments. -/
inductive Command
  | parse (path : String) (pretty : Bool)
  | validate (directory : String) (verbose : Bool)
  | tokens (path : String)
  | stdin (pretty : Bool)
  deriving DecidableEq, Repr

/-- What a command leaves behind. -/
structure Outcome where
  exitCode : Nat
  output : String
  errors : String
  deriving DecidableEq, Repr

namespace Outcome

/-- A command that succeeds with lines of output. -/
def success (lines : List String) : Outcome := ⟨0, String.join (lines.map (· ++ "\n")), ""⟩

/-- A command that fails with a single line of explanation. -/
def failure (line : String) : Outcome := ⟨1, "", line ++ "\n"⟩

end Outcome

/-- A file that was checked, with its document or the reason why it has none. -/
structure CheckedFile where
  path : String
  result : Except ParseError Document

namespace CheckedFile

/-- The document, for a file that has one. -/
def document? (f : CheckedFile) : Option Document := f.result.toOption

/-- The error, for a file without a document. -/
def error? (f : CheckedFile) : Option ParseError :=
  match f.result with
  | .ok _ => none
  | .error e => some e

/-- The line of a detailed report. -/
def detail (f : CheckedFile) : String :=
  match f.result with
  | .ok d => "  ok    " ++ f.path ++ " (" ++ toString d.directives.length ++ " directives)"
  | .error _ => "  FAIL  " ++ f.path

/-- The line of an error, which names the file if the error itself does not. -/
def errorLine (f : CheckedFile) : ParseError → String
  | .storage e => "  - " ++ f.path ++ ": " ++ e.message
  | e => "  - " ++ e.render

/-- The line of the error, for a file without a document. -/
def errorLine? (f : CheckedFile) : Option String := f.error?.map f.errorLine

end CheckedFile

/-- What checking the files of a directory found. -/
structure Report where
  directory : String
  files : List CheckedFile

namespace Report

/-- The documents of the files that have one. -/
def documents (r : Report) : List Document := r.files.filterMap CheckedFile.document?

/-- The lines of the errors, in the order of the files. -/
def errorLines (r : Report) : List String := r.files.filterMap CheckedFile.errorLine?

/-- The number of directives in all documents. -/
def directiveCount (r : Report) : Nat := (r.documents.flatMap Document.directives).length

/-- The number of rules in all documents. -/
def ruleCount (r : Report) : Nat := (r.documents.flatMap Document.rules).length

/-- The summary that ends every report. -/
def summary (r : Report) : List String :=
  ["Parsed " ++ toString r.files.length ++ " files from " ++ r.directory,
    "  Directives:   " ++ toString r.directiveCount,
    "  Rules:        " ++ toString r.ruleCount,
    "  Parse errors: " ++ toString r.errorLines.length]

/-- The list of errors, which a report without errors does not have. -/
def errorList (r : Report) : List String :=
  if r.errorLines.isEmpty then [] else ["", "Errors:"] ++ r.errorLines

/-- The lines of a report. -/
def lines (r : Report) (verbose : Bool) : List String :=
  (if verbose then r.files.map CheckedFile.detail else []) ++ r.summary ++ r.errorList

/-- The exit code tells whether every file has a document. -/
def outcome (r : Report) (verbose : Bool) : Outcome :=
  { Outcome.success (r.lines verbose) with exitCode := if r.errorLines.isEmpty then 0 else 1 }

end Report

namespace Command

/-- A document as JSON, on one line or indented. -/
def dump (pretty : Bool) (d : Document) : String :=
  if pretty then d.toJson.pretty else d.toJson.compact

/-- The document of a file as JSON. -/
def runParse (s : Storage) (path : String) (pretty : Bool) : Outcome :=
  match s.load path with
  | .ok d => .success [dump pretty d]
  | .error e => .failure ("Error parsing " ++ path ++ ": " ++ e.render)

/-- A report on the configuration files of a directory. -/
def runValidate (s : Storage) (directory : String) (verbose : Bool) : Outcome :=
  match s.confFiles directory with
  | .error e => .failure ("Error: " ++ directory ++ ": " ++ (ParseError.storage e).render)
  | .ok paths =>
    Report.outcome ⟨directory, paths.map fun path => ⟨path, s.load path⟩⟩ verbose

/-- The tokens of a file, one on each line. -/
def runTokens (s : Storage) (path : String) : Outcome :=
  match s.readText path with
  | .error e => .failure ("Error reading " ++ path ++ ": " ++ e.message)
  | .ok text =>
    match tokenize path text with
    | .ok lexed => .success (lexed.map Token.render)
    | .error e => .failure ("Error parsing " ++ path ++ ": " ++ (ParseError.lexical e).render)

/-- The label of a text that comes from the input. -/
def inputLabel : String := "<stdin>"

/-- The document of the input as JSON. -/
def runStdin (input : ByteArray) (pretty : Bool) : Outcome :=
  match textOfBytes input with
  | .error e => .failure ("Error reading stdin: " ++ e.message)
  | .ok text =>
    match Document.parse inputLabel text with
    | .ok d => .success [dump pretty d]
    | .error e => .failure ("Parse error: " ++ e.render)

/-- What a command does. -/
def run (s : Storage) (input : ByteArray) : Command → Outcome
  | parse path pretty => runParse s path pretty
  | validate directory verbose => runValidate s directory verbose
  | tokens path => runTokens s path
  | stdin pretty => runStdin input pretty

/-- Words cut into flags and the rest; after two dashes there are no flags. -/
def splitFlags : List String → List String × List String
  | [] => ([], [])
  | "--" :: words => ([], words)
  | word :: words =>
    let (flags, rest) := splitFlags words
    if word.startsWith "-" ∧ word ≠ "-" then (word :: flags, rest) else (flags, word :: rest)

/-- Whether a flag, which has a short and a long form, is given, if no other flag is. -/
def flag? (short long : String) (flags : List String) : Option Bool :=
  match flags with
  | [] => some false
  | [flag] => if flag = short ∨ flag = long then some true else none
  | _ => none

/-- The command that the words after a program's name ask for. -/
def ofArguments? (arguments : List String) : Option Command := do
  let (flags, words) := splitFlags arguments
  match words with
  | ["parse", path] => return parse path (← flag? "-p" "--pretty" flags)
  | ["validate", directory] => return validate directory (← flag? "-v" "--verbose" flags)
  | ["tokens", path] => if flags.isEmpty then return tokens path else none
  | ["stdin"] => return stdin (← flag? "-p" "--pretty" flags)
  | _ => none

end Command

end WafRules
