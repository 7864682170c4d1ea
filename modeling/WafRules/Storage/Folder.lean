import WafRules.Storage
import WafRules.Text.Fields

/-!
# Folders

A storage that is held as a value: a folder has files and folders as its members.  Paths are
resolved from that folder.  A dot stands for the folder a path has reached, two dots for the
one above it, and anything after the name of a file, even a slash, needs a directory in its
place.  Names and paths have a greatest length, which counts bytes.

## Main Definitions

* `Stored` — a file or a folder.
* `Stored.find` — what a path leads to.
* `Stored.put` — a folder with one more file or folder.
* `Stored.storage` — the storage of a folder.
-/

namespace WafRules

/-- A file with its bytes, or a folder with its members. -/
inductive Stored
  | file (content : ByteArray)
  | folder (members : List (String × Stored))

namespace Stored

/-- The names along a path, with an empty name for every slash without one. -/
def names (path : String) : List String := (Text.fields '/' path.toList).map String.ofList

/-- The most bytes of a name. -/
def longestName : Nat := 255

/-- The most bytes of a path. -/
def longestPath : Nat := 4095

/-- What names lead to from an entry.  `above` holds the folders the entry is in, the nearest
one first; above the first of all there is nothing, so two dots stay there. -/
def walk (above : List Stored) (entry : Stored) : List String → Except StorageError Stored
  | [] => .ok entry
  | name :: rest =>
    match entry with
    | file _ => .error .notADirectory
    | folder members =>
      if name = "" ∨ name = "." then walk above entry rest
      else if name = ".." then
        match above with
        | [] => walk [] entry rest
        | parent :: above => walk above parent rest
      else if longestName < name.utf8ByteSize then .error .nameTooLong
      else
        match members.lookup name with
        | none => .error .notFound
        | some member => walk (entry :: above) member rest

/-- What a path leads to.  An empty path leads nowhere, and NUL stands in no path. -/
def find (root : Stored) (path : String) : Except StorageError Stored :=
  if path.contains '\x00' then .error .nulInPath
  else if path.isEmpty then .error .notFound
  else if longestPath < path.utf8ByteSize then .error .nameTooLong
  else walk [] root (names path)

/-- The members of a folder; a file has none. -/
def members : Stored → List (String × Stored)
  | file _ => []
  | folder members => members

/-- Members with one of them added.  It takes the place of a member of the same name, and a
folder takes over what the folder before it holds. -/
def add (name : String) (member : Stored) (members : List (String × Stored)) :
    List (String × Stored) :=
  let member :=
    match member, members.lookup name with
    | folder new, some (folder old) => folder (old ++ new)
    | member, _ => member
  members.filter (fun m => m.1 != name) ++ [(name, member)]

/-- Members with an entry at the place that names lead to, in folders that are made for it. -/
def putAt (entry : Stored) (members : List (String × Stored)) :
    List String → List (String × Stored)
  | [] => members
  | [name] => add name entry members
  | name :: rest =>
    let inner := ((members.lookup name).map Stored.members).getD []
    members.filter (fun m => m.1 != name) ++ [(name, folder (putAt entry inner rest))]

/-- A folder with an entry at a path. -/
def put (root : Stored) (path : String) (entry : Stored) : Stored :=
  folder (putAt entry root.members ((names path).filter fun name => name ≠ "" ∧ name ≠ "."))

/-- An entry of a folder without its content. -/
def entryOf : String × Stored → DirectoryEntry
  | (name, file _) => ⟨name, true⟩
  | (name, folder _) => ⟨name, false⟩

/-- The storage of a folder. -/
def storage (root : Stored) : Storage where
  read path := do
    match ← root.find path with
    | file content => return content
    | folder _ => throw .isADirectory
  list path := do
    match ← root.find path with
    | file _ => throw .notADirectory
    | folder members => return members.map entryOf

end Stored

end WafRules
