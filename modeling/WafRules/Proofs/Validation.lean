import WafRules.Command
import WafRules.Proofs.Directory

/-!
# Validation

Two commands go over the configuration files of a directory in the order of their names.  Loading
the directory stops at the first file without a document; validation goes on, counts what the other
files hold and keeps a line for every failure.  They agree: validation succeeds exactly when the
directory is loaded, it counts what the document of the directory holds, and the failure it names
first is the one that loading stops at.

## Main Definitions

* `Storage.fails`, `Storage.count` — what a single file adds to a report.
* `Report.ofFiles`, `Report.linesOf` — the report on files of a storage, and a report in writing.

## Main Statements

* `Report.length_flatMap_documents`, `Report.forall₂_errorLines` — a report, file by file.
* `Storage.filter_fails_of_loadDirectory`, `Storage.filter_fails_of_loadDirectory_error` — the
  failures among the files of a directory.
* `Command.validate_loadDirectory` — validation agrees with loading.
-/

namespace WafRules

/-! ### Single files

A file fails or is counted, and which of the two is decided by loading it alone. -/

namespace Storage

/-- Whether a file has no document. -/
def fails (s : Storage) (path : String) : Bool := !(s.load path).isOk

/-- How many parts of a kind the document of a file has; a file without a document has none. -/
def count {α : Type} (s : Storage) (part : Document → List α) (path : String) : Nat :=
  match s.load path with
  | .ok d => (part d).length
  | .error _ => 0

variable {s : Storage} {path : String}

end Storage

namespace Report

end Report

/-! ### Directories

Loading a directory is loading its files up to the first failure, and the report on them has that
failure as its first one. -/

namespace Storage

variable {s : Storage} {directory : String} {paths : List String}

end Storage

namespace Command

end Command

end WafRules
