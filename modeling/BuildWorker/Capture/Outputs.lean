import BuildWorker.Capture.Insertion
import BuildWorker.Files.Lookup
import BuildWorker.Operation
import BuildWorker.Violation

/-!
# Capturing outputs

After a command has run, the outputs that it was declared to produce are stored and recorded in
its result. A declared output that is not there is passed over. One of the wrong shape, or content
that the store finds too large, is a violation; violations are collected, and only when everything
has been visited are they reported together. Standard output and error move from the result into
the store when they are too long to stay.

A directory is captured from below: the digest of a subdirectory is known before the directory
that lists it. Symbolic links in it are captured as the files that they lead to.
-/

namespace BuildWorker

/-- How outputs are captured. -/
structure CaptureSettings where
  /-- Seconds to wait for a byte sink. -/
  writeDeadline : Nat := 60
  /-- The most bytes of standard output, or of standard error, that stay in the result. -/
  inlineLimit : Nat := 0
  deriving DecidableEq, Repr

/-- The state of a capture. -/
structure Capture where
  /-- Where content is stored. -/
  depot : Depot
  /-- The result that is completed. -/
  result : ActionResult
  violations : List Violation := []

/-- A step of a capture. What was done before a failure stays done. -/
abbrev Capturing := EStateM ExecutionError Capture

/-- A directory that has been captured. -/
structure CapturedDirectory where
  /-- Its listing. -/
  directory : Directory
  /-- The digest of the listing. -/
  digest : Digest
  /-- The directories below, each before those below it. -/
  descendants : List (Digest × Directory)

/-- Entries of a directory that have been captured. -/
structure CapturedEntries where
  files : List FileNode := []
  /-- The subdirectories. -/
  directories : List DirectoryNode := []
  /-- The subdirectories and the directories below them. -/
  descendants : List (Digest × Directory) := []

/-- The directory with some entries. -/
def CapturedEntries.close (e : CapturedEntries) : CapturedDirectory :=
  let directory := Directory.ofEntries e.files e.directories
  ⟨directory, directory.digest, e.descendants⟩

/-- Keep the first directory of each digest. -/
def distinctDirectories : List Digest → List (Digest × Directory) → List Directory
  | _, [] => []
  | seen, (digest, directory) :: rest =>
    if digest ∈ seen then distinctDirectories seen rest
    else directory :: distinctDirectories (digest :: seen) rest

/-- The tree of a captured directory. -/
def CapturedDirectory.tree (c : CapturedDirectory) : Tree :=
  ⟨c.directory, distinctDirectories [] c.descendants⟩

namespace Capture

/-- Stop if the worker is interrupted. -/
def checkInterrupted : Capturing Unit := do
  if (← get).depot.interrupted then throw .interrupted

/-- Add a violation. -/
def report (v : Violation) : Capturing Unit :=
  modify fun c => { c with violations := c.violations ++ [v] }

/-- Do something with the depot. -/
def atDepot {α : Type} (f : Depot → Except ExecutionError α × Depot) : Capturing α := do
  let c ← get
  let (answer, depot) := f c.depot
  set { c with depot }
  match answer with
  | .ok a => return a
  | .error e => throw e

/-- Do something, and report content that is too large for the store instead of failing. -/
def reportOversized (act : Capturing Unit) : Capturing Unit :=
  tryCatch act fun
    | .store (.entryLimit digest) => report (.oversized digest)
    | e => throw e

/-- Store a blob. -/
def putBlob (b : Blob) : Capturing Unit :=
  atDepot fun d =>
    let (answer, d) := d.put b
    (answer.mapError .store, d)

/-- Capture a file and tell its digest. -/
def captureContent (settings : CaptureSettings) (content : ByteArray) : Capturing Digest := do
  let digest := Digest.ofBytes content
  reportOversized (atDepot fun d => d.insert settings.writeDeadline digest content)
  return digest

/-- Look up a path; there may be nothing. -/
def find (top : FileTree) (place : FileTree.Place) (path : ByteArray) :
    Capturing (Option (FileTree.Place × FileTree)) :=
  match top.find place path with
  | .ok found => return found
  | .error e => throw (.io e.toIo)

mutual

/-- Capture a directory at a place, whose entries are in order. -/
def walk (settings : CaptureSettings) (top : FileTree) (place : FileTree.Place) :
    FileTree → Capturing CapturedDirectory
  | .directory entries => do
    checkInterrupted
    return (← walkEntries settings top place entries).close
  | _ => return ({} : CapturedEntries).close

/-- Capture entries of the directory at a place. -/
def walkEntries (settings : CaptureSettings) (top : FileTree) (place : FileTree.Place) :
    List (FileName × FileTree) → Capturing CapturedEntries
  | [] => return {}
  | (name, t) :: rest => do
    checkInterrupted
    if t.isDirectory then
      let child ← walk settings top (place ++ [name]) t
      let others ← walkEntries settings top place rest
      return { others with
        directories := ⟨name.text, child.digest⟩ :: others.directories
        descendants := (child.digest, child.directory) :: child.descendants ++ others.descendants }
    else
      match ← find top place name with
      | some (_, .file content mode) =>
        let digest ← captureContent settings content
        let others ← walkEntries settings top place rest
        return { others with
          files := ⟨name.text, digest, FileTree.isExecutable mode⟩ :: others.files }
      | _ => walkEntries settings top place rest

end

/-- Capture a declared file. -/
def outputFile (settings : CaptureSettings) (top : FileTree) (root : FileTree.Place)
    (path : String) : Capturing Unit := do
  checkInterrupted
  match ← find top root path.toUTF8 with
  | none => return
  | some (_, .directory _) => report (.fileWasDirectory path)
  | some (_, .file content mode) =>
    let digest ← captureContent settings content
    modify fun c => { c with result := { c.result with
      outputFiles := c.result.outputFiles ++ [⟨path, digest, FileTree.isExecutable mode⟩] } }
  | some _ => throw (.content (.io (.system .other)))

/-- Capture a declared directory. -/
def outputDirectory (settings : CaptureSettings) (top : FileTree) (root : FileTree.Place)
    (path : String) : Capturing Unit := do
  checkInterrupted
  match ← find top root path.toUTF8 with
  | none => return
  | some (place, .directory entries) =>
    let captured ← walk settings top place (FileTree.directory entries).sorted
    let blob := Blob.ofMessage captured.tree
    reportOversized (putBlob blob)
    modify fun c => { c with result := { c.result with
      outputDirectories := c.result.outputDirectories ++ [⟨path, blob.digest⟩] } }
  | some _ => report (.directoryWasFile path)

/-- Move bytes into the store if they are too long to stay; tell where they are then. -/
def relocate (settings : CaptureSettings) (raw : ByteArray) : Capturing (Option Digest) := do
  if raw.size ≤ settings.inlineLimit then return none
  let blob := Blob.ofBytes raw
  putBlob blob
  return some blob.digest

/-- Move a stream of the result into the store and note where it went, if it is too long to
stay. -/
def relocateStream (settings : CaptureSettings) (raw : ActionResult → ByteArray)
    (note : Digest → ActionResult → ActionResult) : Capturing Unit := do
  if let some digest ← relocate settings (raw (← get).result) then
    modify fun c => { c with result := note digest c.result }

/-- Move standard output and error into the store as far as they are too long to stay. -/
def relocateStreams (settings : CaptureSettings) : Capturing Unit := do
  relocateStream settings ActionResult.stdoutRaw fun digest result =>
    { result with stdoutRaw := .empty, stdoutDigest := some digest }
  relocateStream settings ActionResult.stderrRaw fun digest result =>
    { result with stderrRaw := .empty, stderrDigest := some digest }

/-- Capture declared files and directories, whose paths start in the directory `root`. -/
def outputs (settings : CaptureSettings) (top : FileTree) (root : FileTree.Place) (action : Digest)
    (files directories : List String) : Capturing Unit := do
  for path in files do
    outputFile settings top root path
  for path in directories do
    outputDirectory settings top root path
  let violations := (← get).violations
  if !violations.isEmpty then throw (.precondition action ⟨violations⟩)
  relocateStreams settings

end Capture

/-- Capture the declared outputs of an action into a depot and complete its result. -/
def Depot.captureOutputs (d : Depot) (settings : CaptureSettings) (top : FileTree)
    (root : FileTree.Place) (action : Digest) (result : ActionResult)
    (files directories : List String) : Except ExecutionError Unit × ActionResult × Depot :=
  match Capture.outputs settings top root action files directories { depot := d, result } with
  | .ok () c => (.ok (), c.result, c.depot)
  | .error e c => (.error e, c.result, c.depot)

end BuildWorker
