import BuildWorker.Failure
import BuildWorker.Files.Basic

/-!
# Looking up paths

A path is a text of names between slashes. It is followed from a directory, name by name; `.`
stays, `..` goes up, and a symbolic link is followed in place. Everything that is passed on the
way has to be a directory, also what stands before a final slash.
-/

namespace BuildWorker

/-- Why a path leads nowhere. -/
inductive LookupError
  /-- Nothing has the name. -/
  | missing
  /-- Something on the way is no directory. -/
  | notDirectory
  /-- A name or the whole path is too long. -/
  | tooLong
  | tooManyLinks
  /-- The path holds a zero byte. -/
  | invalid
  deriving DecidableEq, Repr

/-- The failure as the operating system reports it. -/
def LookupError.toIo : LookupError → IoError
  | .missing => .system .notFound
  | .invalid => .system .invalidInput
  | _ => .system .other

namespace FileTree

/-- Where a path leads. -/
inductive Target
  /-- To something. -/
  | found (place : Place) (node : FileTree)
  /-- To a free name in a directory. -/
  | free (place : Place)

/-- The longest name, in bytes. -/
def longestName : Nat := 255

/-- The longest path, in bytes. -/
def longestPath : Nat := 4095

/-- How many links a path may lead through. -/
def mostLinks : Nat := 40

/-- A full stop. -/
def dot : FileName := ⟨#[0x2E]⟩

/-- Cut bytes at slashes. -/
def cut : List UInt8 → List (List UInt8)
  | [] => [[]]
  | b :: rest =>
    if b = 0x2F then [] :: cut rest
    else match cut rest with
      | [] => [[b]]
      | name :: names => (b :: name) :: names

/-- The steps of a path: names, and a full stop for staying in a directory. An empty path has
none, and a final slash asks for a directory. -/
def steps (path : ByteArray) : List FileName :=
  let names := (cut path.data.toList).map fun name => name.toByteArray
  let last := if path.isEmpty then [] else
    match names.getLast? with
    | some name => [if name.isEmpty then dot else name]
    | none => []
  (names.dropLast.filter fun name => !name.isEmpty) ++ last

/-- Follow steps from a place, and at a link do as told with its place, its target and the steps
that are left. -/
def followNames (top : FileTree)
    (atLink : Place → ByteArray → List FileName → Except LookupError Target) :
    Place → List FileName → Except LookupError Target
  | place, [] =>
    match top.at? place with
    | some node => .ok (.found place node)
    | none => .error .missing
  | place, name :: rest =>
    match top.at? place with
    | some (.directory entries) =>
      if name = dot then followNames top atLink place rest
      else if name = dot ++ dot then followNames top atLink place.dropLast rest
      else if longestName < name.size then .error .tooLong
      else match entries.lookup name with
        | none => if rest.isEmpty then .ok (.free (place ++ [name])) else .error .missing
        | some (.link target) => atLink place target rest
        | some _ => followNames top atLink (place ++ [name]) rest
    | some _ => .error .notDirectory
    | none => .error .missing

/-- Follow steps from a place through a number of links at most. A path that starts with a slash
does not start here: apart from the top itself nothing is known to be there. -/
def follow (top : FileTree) : Nat → Place → List FileName → Except LookupError Target
  | 0 => followNames top fun _ _ _ => .error .tooManyLinks
  | links + 1 => followNames top fun place target rest =>
    if target.data.toList.head? = some 0x2F then .error .missing
    else follow top links place (steps target ++ rest)

/-- Look up a path from a directory. Only the text of the path is measured, not the place that it is
looked up from. Apart from the top the disk is taken to be empty: a path that starts with a slash
leads to its root, which has no entries, or to nothing. -/
def lookup (top : FileTree) (place : Place) (path : ByteArray) : Except LookupError Target :=
  let bytes := path.data.toList
  if bytes.contains 0 then .error .invalid
  else if longestPath < path.size then .error .tooLong
  else if bytes.head? = some 0x2F then
    if bytes.all (fun b => b = 0x2F || b = 0x2E) then .ok (.found [] empty) else .error .missing
  else follow top mostLinks place (steps path)

/-- What a path leads to, if it leads to anything. -/
def find (top : FileTree) (place : Place) (path : ByteArray) :
    Except LookupError (Option (Place × FileTree)) :=
  match top.lookup place path with
  | .ok (.found place node) => .ok (some (place, node))
  | .ok (.free _) | .error .missing => .ok none
  | .error e => .error e

end FileTree

end BuildWorker
