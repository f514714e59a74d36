import BuildWorker.Directory
import BuildWorker.Text.Utf8

/-!
# Files on a disk

A file tree is what a disk holds below some place. Names are bytes, which need not be text. The
entries of a directory are listed in whatever order the disk enumerates them;
`FileTree.sorted` puts them, at every depth, into the order of the texts of their names.
-/

namespace BuildWorker

/-- The name of an entry of a directory. -/
abbrev FileName := ByteArray

/-- The text of a name, with a replacement for what is no text. -/
def FileName.text (name : FileName) : String := Text.Utf8.lossy name

/-- What is found at a place of a disk. -/
inductive FileTree
  /-- A regular file with its permission bits. -/
  | file (content : ByteArray) (mode : Nat)
  | directory (entries : List (FileName × FileTree))
  /-- A symbolic link. -/
  | link (target : ByteArray)
  /-- Something that is neither, such as a socket. -/
  | special

namespace FileTree

/-- The empty directory. -/
def empty : FileTree := .directory []

/-- Whether a place is a directory. -/
def isDirectory : FileTree → Bool
  | .directory _ => true
  | _ => false

/-- Whether permission bits let anyone execute a file. -/
def isExecutable (mode : Nat) : Bool := mode &&& 0o111 != 0

/-- The entry of a name. -/
def entry? (t : FileTree) (name : FileName) : Option FileTree :=
  match t with
  | .directory entries => entries.lookup name
  | _ => none

mutual

/-- The same files in the order of their names. -/
def sorted : FileTree → FileTree
  | .directory entries => .directory (Directory.sortByName (·.1.text) (sortedEntries entries))
  | .file content mode => .file content mode
  | .link target => .link target
  | .special => .special

/-- The same entries, each with its files in the order of their names. -/
def sortedEntries : List (FileName × FileTree) → List (FileName × FileTree)
  | [] => []
  | (name, t) :: rest => (name, t.sorted) :: sortedEntries rest

end

/-- A place below the top, by the names on the way to it. -/
abbrev Place := List FileName

/-- What is found at a place. -/
def at? (t : FileTree) : Place → Option FileTree
  | [] => some t
  | name :: rest => (t.entry? name).bind (at? · rest)

/-- Set the entry of a name, at the end if it is new. -/
def setEntry (name : FileName) (node : FileTree) :
    List (FileName × FileTree) → List (FileName × FileTree)
  | [] => [(name, node)]
  | (n, t) :: rest => if n = name then (name, node) :: rest else (n, t) :: setEntry name node rest

/-- Put something at a place, if the directory that it is to be in is there. -/
def put (t : FileTree) (node : FileTree) : Place → FileTree
  | [] => node
  | name :: rest =>
    match t with
    | .directory entries =>
      match entries.lookup name with
      | some inner => .directory (setEntry name (inner.put node rest) entries)
      | none => if rest.isEmpty then .directory (setEntry name node entries) else t
    | t => t

end FileTree

end BuildWorker
