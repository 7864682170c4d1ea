import WafRules.Document.Reader
import WafRules.Storage

/-!
# Loading documents

A document is loaded from a file, or from all configuration files of a directory.  The
directives of a directory are those of its files in the order of their names; comments are
dropped, and every directive keeps the place in its own file.

## Main Definitions

* `Storage.load` — the document of a file.
* `Storage.loadFiles` — the directives of several files.
* `Storage.loadDirectory` — the document of a directory.
-/

namespace WafRules

namespace Storage

/-- The document of a file, labelled with its path, and the records made for it. -/
def loadLogged (s : Storage) (path : String) : Logged (Except ParseError Document) :=
  match s.readText path with
  | .error e => .pure (.error (.storage e))
  | .ok text => Document.parseLogged path text

/-- The document of a file. -/
def load (s : Storage) (path : String) : Except ParseError Document := (s.loadLogged path).value

/-- A file that is text has the document of its text. -/
theorem load_eq_parse (s : Storage) {path text : String} {input : ByteArray}
    (held : s.read path = .ok input) (isText : String.fromUTF8? input = some text) :
    s.load path = Document.parse path text := by
  rw [load, loadLogged, readText, held]
  simp only [bind, Except.bind, textOfBytes, isText]
  rfl

/-- The directives of files in turn, up to the first file that has no document. -/
def loadFilesLogged (s : Storage) : List String → Logged (Except ParseError (List Directive))
  | [] => .pure (.ok [])
  | path :: paths =>
    let first := s.loadLogged path
    match first.value with
    | .error e => ⟨.error e, first.log⟩
    | .ok document =>
      let rest := s.loadFilesLogged paths
      ⟨rest.value.map (document.directives ++ ·), first.log ++ rest.log⟩

/-- The record of a directory that has been loaded. -/
def loadedRecord (directory : String) (files directives : Nat) : LogRecord :=
  ⟨.debug, "loaded " ++ toString files ++ " files from " ++ directory ++ ": " ++
    toString directives ++ " directives"⟩

/-- The document of a directory, labelled with the directory, and the records made for it. -/
def loadDirectoryLogged (s : Storage) (directory : String) :
    Logged (Except ParseError Document) :=
  match s.confFiles directory with
  | .error e => .pure (.error (.storage e))
  | .ok paths =>
    let loaded := s.loadFilesLogged paths
    match loaded.value with
    | .error e => ⟨.error e, loaded.log⟩
    | .ok directives =>
      ⟨.ok ⟨directory, directives.map .directive⟩,
        loaded.log ++ [loadedRecord directory paths.length directives.length]⟩

end Storage

end WafRules
