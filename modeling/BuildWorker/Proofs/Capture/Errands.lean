import BuildWorker.Proofs.Capture.Walk

/-!
# A capture as a list of errands

What a capture does, and in which order, depends on the disk alone: the store decides how an errand
ends but not which one is next. So a capture is a list of errands that are run one after the other
until one fails (`Capture.outputs_eq`), and what is true of a capture follows by induction on that
list. Nothing is asked of the disk: links, special files and paths that cannot be looked up have
their errands too.

What a capture records is told by the disk as well. The digests in it are those of the contents
that the errands store (`FileTree.mem_recorded`).
-/

namespace BuildWorker

namespace Capture

/-- Something that a capture does. -/
inductive Errand
  /-- Stop if the worker is interrupted. -/
  | check
  /-- Store the content of a file. -/
  | content (data : ByteArray)
  /-- Store the text of a tree. -/
  | tree (text : ByteArray)
  | fileWasDirectory (path : String)
  | directoryWasFile (path : String)
  /-- Record a file. -/
  | file (f : OutputFile)
  /-- Record a directory. -/
  | directory (o : OutputDirectory)
  /-- Fail for a path that cannot be looked up. -/
  | lost (e : LookupError)
  /-- Fail for a file that has no content. -/
  | unreadable

namespace Errand

/-- Do what an errand says. -/
def run (settings : CaptureSettings) : Errand → Capturing Unit
  | check => checkInterrupted
  | content data =>
    reportOversized (atDepot fun d => d.insert settings.writeDeadline (.ofBytes data) data)
  | tree text => reportOversized (putBlob (.ofBytes text))
  | fileWasDirectory path => report (.fileWasDirectory path)
  | directoryWasFile path => report (.directoryWasFile path)
  | file f => modify fun c => { c with result := { c.result with
      outputFiles := c.result.outputFiles ++ [f] } }
  | directory o => modify fun c => { c with result := { c.result with
      outputDirectories := c.result.outputDirectories ++ [o] } }
  | lost e => throw (.io e.toIo)
  | unreadable => throw (.content (.io (.system .other)))

/-- What an errand stores. -/
def stored? : Errand → Option ByteArray
  | content data | tree data => some data
  | _ => none

/-- The file that an errand records. -/
def file? : Errand → Option OutputFile
  | file f => some f
  | _ => none

/-- The directory that an errand records. -/
def directory? : Errand → Option OutputDirectory
  | directory o => some o
  | _ => none

end Errand

/-- Run errands up to the first that fails. -/
def runAll (settings : CaptureSettings) : List Errand → Capturing Unit
  | [] => return
  | e :: rest => do
    e.run settings
    runAll settings rest

theorem runAll_append (settings : CaptureSettings) (these those : List Errand) :
    runAll settings (these ++ those) = (do runAll settings these; runAll settings those) := by
  induction these with
  | nil => rw [List.nil_append, runAll, pure_bind]
  | cons e rest ih => rw [List.cons_append, runAll, runAll, ih, bind_assoc]

end Capture

open Capture

namespace FileTree

/-! ### The errands of a capture -/

mutual

/-- What a walk of a directory at a place does. -/
def errands (top : FileTree) (place : Place) : FileTree → List Errand
  | .directory entries => .check :: entryErrands top place entries
  | _ => []

/-- What a walk of entries of the directory at a place does. -/
def entryErrands (top : FileTree) (place : Place) : List (FileName × FileTree) → List Errand
  | [] => []
  | (name, t) :: rest =>
    .check :: (if t.isDirectory then errands top (place ++ [name]) t
      else match top.find place name with
        | .ok (some (_, .file content _)) => [.content content]
        | .ok _ => []
        | .error e => [.lost e]) ++ entryErrands top place rest

end

mutual

/-- What a walk of a directory at a place captures, unless it fails. -/
def captured (top : FileTree) (place : Place) : FileTree → CapturedDirectory
  | .directory entries => (capturedEntries top place entries).close
  | _ => ({} : CapturedEntries).close

/-- What a walk of entries of the directory at a place captures, unless it fails. -/
def capturedEntries (top : FileTree) (place : Place) :
    List (FileName × FileTree) → CapturedEntries
  | [] => {}
  | (name, t) :: rest =>
    let others := capturedEntries top place rest
    if t.isDirectory then
      let child := captured top (place ++ [name]) t
      { others with
        directories := ⟨name.text, child.digest⟩ :: others.directories
        descendants := (child.digest, child.directory) :: child.descendants ++ others.descendants }
    else
      match top.find place name with
      | .ok (some (_, .file content mode)) =>
        { others with files := ⟨name.text, .ofBytes content, isExecutable mode⟩ :: others.files }
      | _ => others

end

/-- What the capture of a declared file does. -/
def fileErrands (top : FileTree) (root : Place) (path : String) : List Errand :=
  .check :: match top.find root path.toUTF8 with
    | .ok none => []
    | .ok (some (_, .directory _)) => [.fileWasDirectory path]
    | .ok (some (_, .file content mode)) =>
      [.content content, .file ⟨path, .ofBytes content, isExecutable mode⟩]
    | .ok (some _) => [.unreadable]
    | .error e => [.lost e]

/-- What the capture of a declared directory does. -/
def directoryErrands (top : FileTree) (root : Place) (path : String) : List Errand :=
  .check :: match top.find root path.toUTF8 with
    | .ok none => []
    | .ok (some (place, .directory entries)) =>
      let t := (directory entries).sorted
      let tree := (top.captured place t).tree
      top.errands place t ++ [.tree (Message.encode tree), .directory ⟨path, .ofMessage tree⟩]
    | .ok (some _) => [.directoryWasFile path]
    | .error e => [.lost e]

/-- What the capture of declared files and directories does. -/
def outputErrands (top : FileTree) (root : Place) (files directories : List String) :
    List Errand :=
  files.flatMap (top.fileErrands root) ++ directories.flatMap (top.directoryErrands root)

end FileTree

namespace Capture

section

variable {settings : CaptureSettings} {top : FileTree}

theorem throw_bind {α β : Type} (e : ExecutionError) (f : α → Capturing β) :
    (throw e >>= f) = throw e := rfl

mutual

theorem walk_eq (place : FileTree.Place) : ∀ t : FileTree, walk settings top place t = (do
    runAll settings (top.errands place t)
    return top.captured place t)
  | .directory entries => by
      rw [walk, FileTree.errands, FileTree.captured, walkEntries_eq place entries]
      simp only [runAll, Errand.run, bind_assoc, pure_bind]
  | .file _ _ => by simp [walk, FileTree.errands, FileTree.captured, runAll]
  | .link _ => by simp [walk, FileTree.errands, FileTree.captured, runAll]
  | .special => by simp [walk, FileTree.errands, FileTree.captured, runAll]

theorem walkEntries_eq (place : FileTree.Place) : ∀ entries : List (FileName × FileTree),
    walkEntries settings top place entries = (do
      runAll settings (top.entryErrands place entries)
      return top.capturedEntries place entries)
  | [] => by simp [walkEntries, FileTree.entryErrands, FileTree.capturedEntries, runAll]
  | (name, t) :: rest => by
      rw [walkEntries, FileTree.entryErrands, FileTree.capturedEntries, walkEntries_eq place rest,
        List.cons_append, runAll, runAll_append]
      by_cases isDirectory : t.isDirectory = true
      · simp only [if_pos isDirectory, walk_eq (place ++ [name]) t, Errand.run, bind_assoc,
          pure_bind]
      · simp only [if_neg isDirectory]
        cases looked : top.find place name with
        | error e => simp only [Capture.find, looked, runAll, Errand.run, throw_bind, bind_assoc]
        | ok found =>
            simp only [Capture.find, looked, pure_bind, Errand.run]
            rcases found with - | ⟨there, _ | _ | _ | _⟩
            case some.file content mode =>
              simp only [captureContent, runAll, Errand.run, bind_assoc, pure_bind]
            all_goals simp only [runAll, bind_assoc, pure_bind]

end

theorem outputFile_eq (root : FileTree.Place) (path : String) :
    outputFile settings top root path = runAll settings (top.fileErrands root path) := by
  unfold outputFile FileTree.fileErrands
  cases looked : top.find root path.toUTF8 with
  | error e => simp only [Capture.find, looked, runAll, Errand.run, throw_bind]
  | ok found =>
      simp only [Capture.find, looked, pure_bind, runAll, Errand.run]
      rcases found with - | ⟨there, _ | _ | _ | _⟩ <;>
        simp only [captureContent, runAll, Errand.run, bind_assoc, pure_bind, bind_pure_unit,
          throw_bind]

theorem outputDirectory_eq (root : FileTree.Place) (path : String) :
    outputDirectory settings top root path = runAll settings (top.directoryErrands root path) := by
  unfold outputDirectory FileTree.directoryErrands
  cases looked : top.find root path.toUTF8 with
  | error e => simp only [Capture.find, looked, runAll, Errand.run, throw_bind]
  | ok found =>
      simp only [Capture.find, looked, pure_bind, runAll, Errand.run]
      rcases found with - | ⟨there, _ | _ | _ | _⟩ <;>
        simp only [walk_eq, runAll_append, runAll, Errand.run, bind_assoc, pure_bind,
          bind_pure_unit]
      rfl

/-- A loop over items whose steps are errands is a list of errands. -/
theorem forIn_runAll {α : Type} {act : α → Capturing Unit} {errands : α → List Errand}
    (step : ∀ a, act a = runAll settings (errands a)) (items : List α) :
    (forIn items PUnit.unit fun a _ => do act a; pure (.yield PUnit.unit)) =
      runAll settings (items.flatMap errands) := by
  induction items with
  | nil => rfl
  | cons a rest ih =>
      rw [List.forIn_cons, List.flatMap_cons, runAll_append, ← ih, ← step]
      simp only [bind_assoc, pure_bind]

/-- What is left of a capture when all errands are run. -/
def finish (settings : CaptureSettings) (action : Digest) : Capturing Unit := do
  let violations := (← get).violations
  if !violations.isEmpty then throw (.precondition action ⟨violations⟩)
  relocateStreams settings

/-- **A capture is its errands**, and then the end of it. -/
theorem outputs_eq (root : FileTree.Place) (action : Digest) (files directories : List String) :
    outputs settings top root action files directories = (do
      runAll settings (top.outputErrands root files directories)
      finish settings action) := by
  unfold outputs FileTree.outputErrands
  rw [forIn_runAll (outputFile_eq root), forIn_runAll (outputDirectory_eq root), runAll_append,
    bind_assoc]
  rfl

theorem get_bind {α : Type} (f : Capture → Capturing α) (c : Capture) :
    (get >>= f) c = f c c := rfl

theorem bind_run {α β : Type} (x : Capturing α) (f : α → Capturing β) (c : Capture) :
    (x >>= f) c = match x c with
      | .ok a c' => f a c'
      | .error e c' => .error e c' := by
  simp only [bind, EStateM.bind]
  cases x c <;> rfl

theorem checkInterrupted_run (c : Capture) :
    checkInterrupted c = if c.depot.interrupted then .error .interrupted c else .ok () c := by
  unfold checkInterrupted
  rw [get_bind]
  by_cases interrupted : c.depot.interrupted
  · rw [if_pos interrupted, if_pos interrupted]
    rfl
  · rw [if_neg interrupted, if_neg interrupted]
    rfl

/-- When the worker is interrupted, errands that begin with a look at that do nothing. -/
theorem runAll_of_interrupted {c : Capture} (interrupted : c.depot.interrupted = true)
    (rest : List Errand) : runAll settings (.check :: rest) c = .error .interrupted c := by
  rw [runAll, bind_run, Errand.run, checkInterrupted_run, if_pos interrupted]

theorem finish_run (action : Digest) (c : Capture) :
    finish settings action c =
      if c.violations = [] then relocateStreams settings c
      else .error (.precondition action ⟨c.violations⟩) c := by
  unfold finish
  rw [get_bind]
  cases reported : c.violations with
  | nil => rfl
  | cons v rest => rfl

theorem relocateStream_run (raw : ActionResult → ByteArray)
    (note : Digest → ActionResult → ActionResult) (c : Capture) :
    relocateStream settings raw note c =
      if (raw c.result).size ≤ settings.inlineLimit then .ok () c
      else
        let stored := c.depot.put (.ofBytes (raw c.result))
        match stored.1 with
        | .ok () => .ok () { c with
            depot := stored.2, result := note (.ofBytes (raw c.result)) c.result }
        | .error e => .error (.store e) { c with depot := stored.2 } := by
  unfold relocateStream relocate
  rw [get_bind, bind_run]
  by_cases short : (raw c.result).size ≤ settings.inlineLimit
  · rw [if_pos short, if_pos short]
    rfl
  · rw [if_neg short, if_neg short, bind_run, putBlob, atDepot_run]
    generalize c.depot.put (.ofBytes (raw c.result)) = stored
    obtain ⟨_ | _, d⟩ := stored <;> rfl

/-- How a capture ends, with the result and the depot that it leaves. -/
def told : EStateM.Result ExecutionError Capture Unit →
    Except ExecutionError Unit × ActionResult × Depot
  | .ok () c => (.ok (), c.result, c.depot)
  | .error e c => (.error e, c.result, c.depot)

/-- Something done with the depot leaves the depot as it is then, and the result as it was, also
when the content is too large. -/
theorem told_reportOversized (f : Depot → Except ExecutionError Unit × Depot) (c : Capture) :
    (told (reportOversized (atDepot f) c)).2 = (c.result, (f c.depot).2) := by
  rw [reportOversized_run, atDepot_run]
  generalize f c.depot = r
  obtain ⟨_ | _, d⟩ := r
  · dsimp only
    split
    next eq => cases eq
    next eq =>
      cases eq
      rfl
    next eq =>
      cases eq
      rfl
  · rfl

theorem captureOutputs_eq (d : Depot) (root : FileTree.Place) (action : Digest)
    (result : ActionResult) (files directories : List String) :
    d.captureOutputs settings top root action result files directories =
      told ((do
        runAll settings (top.outputErrands root files directories)
        finish settings action) { depot := d, result }) := by
  rw [← outputs_eq]
  rfl

end

end Capture

/-! ### What is recorded -/

/-- The digests of the files of a directory. -/
def Directory.fileDigests (d : Directory) : List Digest := d.files.map FileNode.digest

/-- The digests of the files of the directories of a capture. -/
def CapturedDirectory.fileDigests (c : CapturedDirectory) : List Digest :=
  c.directory.fileDigests ++ c.descendants.flatMap fun d => d.2.fileDigests

theorem CapturedEntries.mem_fileDigests_close (e : CapturedEntries) (digest : Digest) :
    digest ∈ e.close.fileDigests ↔
      digest ∈ e.files.map FileNode.digest ∨
        digest ∈ e.descendants.flatMap fun d => d.2.fileDigests := by
  simp [close, CapturedDirectory.fileDigests, Directory.fileDigests, Directory.ofEntries,
    Directory.sortByName]

namespace FileTree

/-- The digests of what errands store. -/
def digestsOf (errands : List Errand) : List Digest :=
  (errands.filterMap Errand.stored?).map .ofBytes

@[simp] theorem digestsOf_nil : digestsOf [] = [] := rfl

@[simp] theorem digestsOf_check (rest : List Errand) :
    digestsOf (.check :: rest) = digestsOf rest := rfl

@[simp] theorem digestsOf_content (data : ByteArray) (rest : List Errand) :
    digestsOf (.content data :: rest) = .ofBytes data :: digestsOf rest := rfl

@[simp] theorem digestsOf_append (these those : List Errand) :
    digestsOf (these ++ those) = digestsOf these ++ digestsOf those := by
  simp [digestsOf]

theorem mem_digestsOf_flatMap {α : Type} {f : α → List Errand} {items : List α} {digest : Digest} :
    digest ∈ digestsOf (items.flatMap f) ↔ ∃ a ∈ items, digest ∈ digestsOf (f a) := by
  rw [digestsOf, List.filterMap_flatMap, List.map_flatMap, List.mem_flatMap]
  rfl

section

variable {top : FileTree}

mutual

/-- The files that a captured directory lists are the contents that the walk stores. -/
theorem mem_fileDigests_captured (digest : Digest) (place : Place) : ∀ t : FileTree,
    digest ∈ (top.captured place t).fileDigests ↔ digest ∈ digestsOf (top.errands place t)
  | .directory entries => by
      rw [captured, errands, CapturedEntries.mem_fileDigests_close, digestsOf_check,
        mem_fileDigests_capturedEntries digest place entries]
  | .file _ _ | .link _ | .special => by
      rw [captured, errands, CapturedEntries.mem_fileDigests_close]
      · simp
      · nofun
      · nofun

theorem mem_fileDigests_capturedEntries (digest : Digest) (place : Place) :
    ∀ entries : List (FileName × FileTree),
      (digest ∈ (top.capturedEntries place entries).files.map FileNode.digest ∨
        digest ∈ (top.capturedEntries place entries).descendants.flatMap fun d =>
          d.2.fileDigests) ↔
      digest ∈ digestsOf (top.entryErrands place entries)
  | [] => by simp [capturedEntries, entryErrands]
  | (name, t) :: rest => by
      rw [capturedEntries, entryErrands, List.cons_append, digestsOf_check, digestsOf_append,
        List.mem_append, ← mem_fileDigests_capturedEntries digest place rest]
      by_cases isDirectory : t.isDirectory = true
      · simp only [if_pos isDirectory, ← mem_fileDigests_captured digest (place ++ [name]) t,
          CapturedDirectory.fileDigests, List.cons_append, List.flatMap_cons, List.flatMap_append,
          List.mem_append, or_assoc, or_left_comm]
      · simp only [if_neg isDirectory]
        rcases top.find place name with e | (- | ⟨there, _ | _ | _ | _⟩)
        case ok.some.file content mode =>
          simp only [digestsOf_content, digestsOf_nil, List.map_cons, List.mem_cons,
            List.not_mem_nil, or_false, or_assoc]
        all_goals exact (or_iff_right List.not_mem_nil).symm

end

/-- The errands of a walk. -/
inductive Walks (top : FileTree) : Errand → Prop
  | check : Walks top .check
  /-- The content of a file that a name leads to. -/
  | content {place there : Place} {name : FileName} {data : ByteArray} {mode : Nat}
      (found : top.find place name = .ok (some (there, .file data mode))) :
      Walks top (.content data)
  | lost (e : LookupError) : Walks top (.lost e)

mutual

theorem walks_errands (place : Place) : ∀ t : FileTree, ∀ e ∈ top.errands place t, Walks top e
  | .directory entries => by
      rw [errands, List.forall_mem_cons]
      exact ⟨.check, walks_entryErrands place entries⟩
  | .file _ _ | .link _ | .special => by
      rw [errands]
      · nofun
      · nofun

theorem walks_entryErrands (place : Place) : ∀ entries : List (FileName × FileTree),
    ∀ e ∈ top.entryErrands place entries, Walks top e
  | [] => by
      rw [entryErrands]
      nofun
  | (name, t) :: rest => by
      rw [entryErrands, List.cons_append, List.forall_mem_cons, List.forall_mem_append]
      refine ⟨.check, ?_, walks_entryErrands place rest⟩
      by_cases isDirectory : t.isDirectory = true
      · rw [if_pos isDirectory]
        exact walks_errands (place ++ [name]) t
      · rw [if_neg isDirectory]
        split
        next found => exact List.forall_mem_singleton.2 (.content found)
        next => nofun
        next e _ => exact List.forall_mem_singleton.2 (.lost e)

end

end

section

variable {top : FileTree} {root : Place} {files directories : List String}

/-- The contents that a capture stores are those of files on the disk. -/
theorem found_of_mem_outputErrands {data : ByteArray}
    (mem : .content data ∈ top.outputErrands root files directories) :
    ∃ place path there mode, top.find place path = .ok (some (there, .file data mode)) := by
  unfold outputErrands at mem
  rcases List.mem_append.1 mem with mem | mem
  · obtain ⟨path, -, mem⟩ := List.mem_flatMap.1 mem
    unfold fileErrands at mem
    generalize found : top.find root path.toUTF8 = looked at mem
    rcases looked with e | (- | ⟨there, _ | _ | _ | _⟩)
    case ok.some.file content mode =>
      have same : data = content := by simpa using mem
      exact ⟨_, _, _, _, same ▸ found⟩
    all_goals simp at mem
  · obtain ⟨path, -, mem⟩ := List.mem_flatMap.1 mem
    unfold directoryErrands at mem
    generalize top.find root path.toUTF8 = looked at mem
    rcases looked with e | (- | ⟨there, _ | entries | _ | _⟩)
    case ok.some.directory =>
      have walked : .content data ∈ top.errands there (directory entries).sorted := by
        simpa using mem
      cases walks_errands _ _ _ walked with
      | content found => exact ⟨_, _, _, _, found⟩
    all_goals simp at mem

/-- A capture looks first whether the worker is interrupted, if anything is declared. -/
theorem outputErrands_of_declared (declared : files ≠ [] ∨ directories ≠ []) :
    ∃ rest, top.outputErrands root files directories = .check :: rest := by
  cases files with
  | cons path paths => exact ⟨_, rfl⟩
  | nil =>
      cases directories with
      | cons path paths => exact ⟨_, rfl⟩
      | nil => simp at declared

theorem outputErrands_checks : top.outputErrands root files directories = [] ∨
    ∃ rest, top.outputErrands root files directories = .check :: rest := by
  by_cases declared : files ≠ [] ∨ directories ≠ []
  · exact .inr (outputErrands_of_declared declared)
  · obtain ⟨rfl, rfl⟩ : files = [] ∧ directories = [] := by simpa using declared
    exact .inl rfl

end

/-! ### What is recorded -/

/-- The record of a declared file, if it is there. -/
def outputFile? (top : FileTree) (root : Place) (path : String) : Option OutputFile :=
  match top.find root path.toUTF8 with
  | .ok (some (_, .file content mode)) => some ⟨path, .ofBytes content, isExecutable mode⟩
  | _ => none

/-- A declared directory as it is captured, if it is there. -/
def outputDirectory? (top : FileTree) (root : Place) (path : String) :
    Option (String × CapturedDirectory) :=
  match top.find root path.toUTF8 with
  | .ok (some (place, .directory entries)) =>
    some (path, top.captured place (directory entries).sorted)
  | _ => none

/-- The record of a directory that was captured under a path. -/
def directoryRecord (c : String × CapturedDirectory) : OutputDirectory :=
  ⟨c.1, .ofMessage c.2.tree⟩

/-- The digests that a capture records: of declared files, of the trees of declared directories,
and of the files listed in them. -/
def recorded (top : FileTree) (root : Place) (files directories : List String) : List Digest :=
  (files.filterMap (top.outputFile? root)).map OutputFile.digest ++
    (directories.filterMap (top.outputDirectory? root)).flatMap fun c =>
      (directoryRecord c).treeDigest :: c.2.fileDigests

section

variable {top : FileTree}

theorem filterMap_flatMap_toList {α β γ : Type} {f : α → List β} {g : β → Option γ}
    {h : α → Option γ} (step : ∀ a, (f a).filterMap g = (h a).toList) (items : List α) :
    (items.flatMap f).filterMap g = items.filterMap h := by
  induction items with
  | nil => rfl
  | cons a rest ih =>
      rw [List.flatMap_cons, List.filterMap_append, ih, step, List.filterMap_cons]
      cases h a <;> rfl

/-- A walk records no output. -/
theorem filterMap_errands {α : Type} {g : Errand → Option α}
    (nothing : ∀ e, Walks top e → g e = none) (place : Place) (t : FileTree) :
    (top.errands place t).filterMap g = [] :=
  List.filterMap_eq_nil_iff.2 fun e mem => nothing e (walks_errands place t e mem)

theorem filterMap_file? (root : Place) (files directories : List String) :
    (top.outputErrands root files directories).filterMap Errand.file? =
      files.filterMap (top.outputFile? root) := by
  have ofFile (path : String) :
      (top.fileErrands root path).filterMap Errand.file? = (top.outputFile? root path).toList := by
    unfold fileErrands outputFile?
    rcases top.find root path.toUTF8 with e | (- | ⟨there, _ | _ | _ | _⟩) <;> rfl
  have ofDirectory (path : String) :
      (top.directoryErrands root path).filterMap Errand.file? = [] := by
    unfold directoryErrands
    rcases top.find root path.toUTF8 with e | (- | ⟨there, _ | entries | _ | _⟩)
    case ok.some.directory =>
      have walked : (top.errands there (directory entries).sorted).filterMap Errand.file? = [] :=
        filterMap_errands (by rintro _ ⟨⟩ <;> rfl) _ _
      simp [List.filterMap_cons, Errand.file?, walked]
    all_goals rfl
  rw [outputErrands, List.filterMap_append, filterMap_flatMap_toList ofFile,
    List.filterMap_flatMap]
  simp [ofDirectory]

theorem filterMap_directory? (root : Place) (files directories : List String) :
    (top.outputErrands root files directories).filterMap Errand.directory? =
      (directories.filterMap (top.outputDirectory? root)).map directoryRecord := by
  have ofFile (path : String) : (top.fileErrands root path).filterMap Errand.directory? = [] := by
    unfold fileErrands
    rcases top.find root path.toUTF8 with e | (- | ⟨there, _ | _ | _ | _⟩) <;> rfl
  have ofDirectory (path : String) : (top.directoryErrands root path).filterMap Errand.directory? =
      ((top.outputDirectory? root path).map directoryRecord).toList := by
    unfold directoryErrands outputDirectory?
    rcases top.find root path.toUTF8 with e | (- | ⟨there, _ | entries | _ | _⟩)
    case ok.some.directory =>
      have walked :
          (top.errands there (directory entries).sorted).filterMap Errand.directory? = [] :=
        filterMap_errands (by rintro _ ⟨⟩ <;> rfl) _ _
      simp [List.filterMap_cons, Errand.directory?, walked, directoryRecord]
    all_goals rfl
  rw [outputErrands, List.filterMap_append, filterMap_flatMap_toList ofDirectory,
    List.filterMap_flatMap, List.map_filterMap]
  simp [ofFile]

/-- What is recorded is what is stored. -/
theorem mem_recorded {root : Place} {files directories : List String} {digest : Digest} :
    digest ∈ top.recorded root files directories ↔
      digest ∈ digestsOf (top.outputErrands root files directories) := by
  have ofFile (path : String) : digest ∈ digestsOf (top.fileErrands root path) ↔
      ∃ f, top.outputFile? root path = some f ∧ f.digest = digest := by
    unfold fileErrands outputFile?
    rcases top.find root path.toUTF8 with e | (- | ⟨there, _ | _ | _ | _⟩) <;>
      simp [digestsOf, Errand.stored?, eq_comm]
  have ofDirectory (path : String) : digest ∈ digestsOf (top.directoryErrands root path) ↔
      ∃ c, top.outputDirectory? root path = some c ∧
        digest ∈ (directoryRecord c).treeDigest :: c.2.fileDigests := by
    unfold directoryErrands outputDirectory?
    rcases top.find root path.toUTF8 with e | (- | ⟨there, _ | entries | _ | _⟩)
    case ok.some.directory =>
      rw [digestsOf_check, digestsOf_append, List.mem_append, ← mem_fileDigests_captured, or_comm]
      simp [digestsOf, Errand.stored?, directoryRecord, Digest.ofMessage]
    all_goals simp [digestsOf, Errand.stored?]
  rw [recorded, outputErrands, digestsOf_append, List.mem_append, List.mem_append,
    mem_digestsOf_flatMap, mem_digestsOf_flatMap]
  simp only [ofFile, ofDirectory, List.mem_map, List.mem_filterMap, List.mem_flatMap]
  refine or_congr ⟨?_, ?_⟩ ⟨?_, ?_⟩
  · rintro ⟨f, ⟨path, mem, there⟩, same⟩
    exact ⟨path, mem, f, there, same⟩
  · rintro ⟨path, mem, f, there, same⟩
    exact ⟨f, ⟨path, mem, there⟩, same⟩
  · rintro ⟨c, ⟨path, mem, there⟩, listed⟩
    exact ⟨path, mem, c, there, listed⟩
  · rintro ⟨path, mem, c, there, listed⟩
    exact ⟨c, ⟨path, mem, there⟩, listed⟩

end

end FileTree

end BuildWorker
