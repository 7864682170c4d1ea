import WafRules.Error

/-!
# Storage

Configurations are kept in files and directories.  A storage answers two questions about a path:
what bytes a file holds, and what entries a directory has.

## Main Definitions

* `Storage` — the two questions.
* `readText` — a file as text.
* `joinPath`, `isConfName`, `nameBefore` — paths, the names of configuration files, and their
  order.
* `Storage.confFiles` — the configuration files of a directory.
-/

namespace WafRules

/-- An entry of a directory. -/
structure DirectoryEntry where
  name : String
  /-- Whether the entry is a regular file. -/
  isFile : Bool
  deriving DecidableEq, Repr

/-- Files and directories by path. -/
structure Storage where
  /-- The bytes of a file. -/
  read : String → Except StorageError ByteArray
  /-- The entries of a directory, in any order. -/
  list : String → Except StorageError (List DirectoryEntry)

/-- Bytes as text. -/
def textOfBytes (bytes : ByteArray) : Except StorageError String :=
  match String.fromUTF8? bytes with
  | some text => .ok text
  | none => .error .notText

/-- The path of an entry of a directory. -/
def joinPath (directory name : String) : String :=
  if directory.isEmpty ∨ directory.toList.getLast? = some '/' then directory ++ name
  else directory ++ "/" ++ name

/-- The extension that configuration files have. -/
def confExtension : List Char := ".conf".toList

/-- Whether a name has the extension of configuration files after a stem that is not empty. -/
def isConfName (name : String) : Bool :=
  confExtension.isSuffixOf name.toList && confExtension.length < name.toList.length

/-- The bytes of a name, by which names are ordered. -/
def nameBytes (name : String) : List UInt8 := name.toUTF8.data.toList

/-- Whether a name comes no later than another. -/
def nameBefore (first second : String) : Bool := decide (nameBytes first ≤ nameBytes second)

/-- The names of the configuration files among entries, in order. -/
def confNames (entries : List DirectoryEntry) : List String :=
  ((entries.filter fun e => e.isFile && isConfName e.name).map DirectoryEntry.name).mergeSort
    nameBefore

namespace Storage

/-- A file as text. -/
def readText (s : Storage) (path : String) : Except StorageError String := do
  textOfBytes (← s.read path)

/-- The paths of the configuration files of a directory, ordered by name. -/
def confFiles (s : Storage) (directory : String) : Except StorageError (List String) := do
  return (confNames (← s.list directory)).map (joinPath directory)

end Storage

end WafRules
