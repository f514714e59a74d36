import BuildWorker.Files.Lookup

/-!
# Laying out files

Files are put on a disk by their paths. Directories on the way are made as they are needed.
Writing follows links, and a link or special file is made only where nothing is. What cannot be
made is left out.
-/

namespace BuildWorker

/-- Something to put on a disk. -/
inductive Fixture
  /-- A regular file with its permission bits. -/
  | file (content : ByteArray) (mode : Nat)
  | directory
  /-- A symbolic link. -/
  | link (target : ByteArray)
  /-- A special file. -/
  | special

namespace FileTree

/-- Make the directories that steps lead through, and the one that they lead to. -/
def makeDirectories (top : FileTree) (place : Place) (names : List FileName) : FileTree :=
  (List.range (names.length + 1)).foldl (fun top n =>
    match top.follow mostLinks place (names.take n) with
    | .ok (.free new) => top.put empty new
    | _ => top) top

/-- Put something where nothing is, not even a link. -/
def layNew (top : FileTree) (place : Place) (names : List FileName) (node : FileTree) : FileTree :=
  let top := top.makeDirectories place names.dropLast
  match top.follow mostLinks place names.dropLast, names.getLast? with
  | .ok (.found parent (.directory entries)), some name =>
    if (entries.lookup name).isSome then top else top.put node (parent ++ [name])
  | _, _ => top

/-- Put something at the end of a path that starts in a directory. -/
def lay (top : FileTree) (place : Place) (path : ByteArray) (fixture : Fixture) : FileTree :=
  let names := steps path
  match fixture with
  | .directory => top.makeDirectories place names
  | .file content mode =>
    let top := top.makeDirectories place names.dropLast
    match top.follow mostLinks place names with
    | .ok (.found place (.file _ _)) | .ok (.free place) => top.put (.file content mode) place
    | _ => top
  | .link target => top.layNew place names (.link target)
  | .special => top.layNew place names .special

end FileTree

end BuildWorker
