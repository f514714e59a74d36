import BuildWorker.Directory

/-!
# Expanding a tree

A tree stands for the files and directories that one comes to from its root, resolving each
subdirectory among the tree's children. `Tree.Expands` says what a path leads to. A subdirectory
that does not resolve is met as such, so that it can be told from one that is not listed.
-/

namespace BuildWorker

/-- What a path below a directory leads to. -/
inductive TreeEntry
  | file (digest : Digest) (isExecutable : Bool)
  | directory
  /-- A directory that is listed and cannot be resolved. -/
  | dangling (digest : Digest)
  deriving DecidableEq

namespace Tree

/-- What a path below a directory leads to, in a tree that has the directories below. -/
inductive Expands (t : Tree) : Directory → List String → TreeEntry → Prop
  /-- The directory itself. -/
  | here (d : Directory) : Expands t d [] .directory
  | file {d : Directory} {f : FileNode} (listed : f ∈ d.files) :
      Expands t d [f.name] (.file f.digest f.isExecutable)
  /-- Something below a subdirectory. -/
  | inside {d child : Directory} {n : DirectoryNode} {path : List String} {e : TreeEntry}
      (listed : n ∈ d.directories) (resolved : t.findChild? n.digest = some child)
      (rest : Expands t child path e) : Expands t d (n.name :: path) e
  /-- A subdirectory that is not among the children. -/
  | dangling {d : Directory} {n : DirectoryNode} (listed : n ∈ d.directories)
      (unresolved : t.findChild? n.digest = none) : Expands t d [n.name] (.dangling n.digest)

theorem expands_nil {t : Tree} {d : Directory} {e : TreeEntry} :
    t.Expands d [] e ↔ e = .directory := by
  constructor
  · rintro ⟨⟩
    rfl
  · rintro rfl
    exact .here d

theorem expands_cons {t : Tree} {d : Directory} {name : String} {path : List String}
    {e : TreeEntry} :
    t.Expands d (name :: path) e ↔
      (∃ f ∈ d.files, f.name = name ∧ path = [] ∧ e = .file f.digest f.isExecutable) ∨
      ∃ n ∈ d.directories, n.name = name ∧
        ((∃ child, t.findChild? n.digest = some child ∧ t.Expands child path e) ∨
          t.findChild? n.digest = none ∧ path = [] ∧ e = .dangling n.digest) := by
  constructor
  · intro h
    cases h with
    | file listed => exact .inl ⟨_, listed, rfl, rfl, rfl⟩
    | inside listed resolved rest => exact .inr ⟨_, listed, rfl, .inl ⟨_, resolved, rest⟩⟩
    | dangling listed unresolved => exact .inr ⟨_, listed, rfl, .inr ⟨unresolved, rfl, rfl⟩⟩
  · rintro (⟨f, listed, rfl, rfl, rfl⟩ | ⟨n, listed, rfl, ⟨child, resolved, rest⟩ |
      ⟨unresolved, rfl, rfl⟩⟩)
    · exact .file listed
    · exact .inside listed resolved rest
    · exact .dangling listed unresolved

end Tree

end BuildWorker
