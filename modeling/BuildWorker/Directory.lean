import BuildWorker.Digest

/-!
# Directory trees by digest

A directory lists its files, each with the digest of its content, and its subdirectories, each
with the digest of its own listing. Listings are kept sorted by name, so the digest of a
directory depends only on what is in it.

A tree is a root directory together with the directories below it. `Tree.findChild?` resolves a
reference to one of them.
-/

namespace BuildWorker

/-- A file in a directory. -/
structure FileNode where
  /-- Its name in the directory. -/
  name : String
  /-- The digest of its content. -/
  digest : Digest
  /-- Whether anyone may execute it. -/
  isExecutable : Bool
  deriving DecidableEq

/-- A subdirectory in a directory. -/
structure DirectoryNode where
  /-- Its name in the directory. -/
  name : String
  /-- The digest of its listing. -/
  digest : Digest
  deriving DecidableEq

/-- The listing of a directory. -/
structure Directory where
  files : List FileNode := []
  /-- The subdirectories. -/
  directories : List DirectoryNode := []
  deriving DecidableEq

/-- A directory with all directories below it. -/
structure Tree where
  /-- The top directory. -/
  root : Directory := {}
  /-- The directories below it, in no particular order. -/
  children : List Directory := []
  deriving DecidableEq

instance : Message FileNode where
  toJson f := .record [("name", toJson f.name), ("digest", toJson f.digest),
    ("is_executable", toJson f.isExecutable)]
  ofJson? j := do
    let [name, digest, isExecutable] ← Message.fields? ["name", "digest", "is_executable"] j | none
    return ⟨← Message.required? name, ← Message.required? digest, ← Message.required? isExecutable⟩

instance : Message DirectoryNode where
  toJson d := .record [("name", toJson d.name), ("digest", toJson d.digest)]
  ofJson? j := do
    let [name, digest] ← Message.fields? ["name", "digest"] j | none
    return ⟨← Message.required? name, ← Message.required? digest⟩

instance : Message Directory where
  toJson d := .record [("files", toJson d.files), ("directories", toJson d.directories)]
  ofJson? j := do
    let [files, directories] ← Message.fields? ["files", "directories"] j | none
    return ⟨← Message.withDefault? [] files, ← Message.withDefault? [] directories⟩

instance : Message Tree where
  toJson t := .record [("root", toJson t.root), ("children", toJson t.children)]
  ofJson? j := do
    let [root, children] ← Message.fields? ["root", "children"] j | none
    return ⟨← Message.required? root, ← Message.withDefault? [] children⟩

namespace Directory

/-- Sort items by a name, by code point; items of one name keep their order. -/
def sortByName {α : Type} (name : α → String) (items : List α) : List α :=
  items.mergeSort fun a b => decide (¬ name b < name a)

/-- The listing of unordered entries. -/
def ofEntries (files : List FileNode) (directories : List DirectoryNode) : Directory :=
  ⟨sortByName FileNode.name files, sortByName DirectoryNode.name directories⟩

/-- The digest of the listing. -/
def digest (d : Directory) : Digest := .ofMessage d

/-- The first file of a name. -/
def file? (d : Directory) (name : String) : Option FileNode :=
  d.files.find? (·.name == name)

/-- The first subdirectory of a name. -/
def directory? (d : Directory) (name : String) : Option DirectoryNode :=
  d.directories.find? (·.name == name)

/-- Whether there are no entries. -/
def isEmpty (d : Directory) : Bool := d.files.isEmpty && d.directories.isEmpty

end Directory

namespace Tree

/-- The first child with a digest. -/
def findChild? (t : Tree) (digest : Digest) : Option Directory :=
  t.children.find? (·.digest == digest)

/-- The position of the first child with a digest. -/
def childIndex? (t : Tree) (digest : Digest) : Option Nat :=
  t.children.findIdx? (·.digest == digest)

end Tree

end BuildWorker
