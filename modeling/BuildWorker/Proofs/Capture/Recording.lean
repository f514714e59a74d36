import BuildWorker.Proofs.Capture.Outcome
import BuildWorker.Proofs.Capture.Unproduced

/-!
# What is recorded of plain outputs

In a regular file tree, what a capture records and reports can be read off the tree, one declared
path after the other (`Depot.captureOutputs_records`). A path that leads to what it was declared as
is recorded, one that leads to something else is reported, and one that leads to nothing is passed
over. Contents that are too large are reported where they are visited: the content of a declared
file, and of a declared directory its files, depth first in the order of their names, and last its
tree.

All this is so while every declared path can be looked up. The first that cannot fails the capture,
also where there is nothing to look up: the lookup of a name that is too long is refused, and that
is not told apart from other failures of the disk (`Depot.sampleLongName_fails`).

The argument follows the errands. Those of a walk tell the directory that is walked
(`Capture.Faithful`), and those of a declared path tell what the path leads to.
-/

namespace BuildWorker

open Capture

/-! ### What is expected -/

/-- The violations for those contents that are too large for a store. -/
def Store.refusals (s : Store) (contents : List ByteArray) : List Violation :=
  ((contents.map Digest.ofBytes).filter s.exceedsLimit).map Violation.oversized

@[simp] theorem Store.refusals_append (s : Store) (these those : List ByteArray) :
    s.refusals (these ++ those) = s.refusals these ++ s.refusals those := by
  simp [refusals]

theorem Store.refusals_singleton (s : Store) (data : ByteArray) :
    s.refusals [data] =
      if s.exceedsLimit (.ofBytes data) then [.oversized (.ofBytes data)] else [] := by
  cases excess : s.exceedsLimit (.ofBytes data) <;> simp [refusals, excess]

namespace FileTree

/-- What is recorded of a declared file, if it is there. -/
def fileRecord? (t : FileTree) (p : PlainPath) : Option OutputFile :=
  match t.at? p.names with
  | some (.file content mode) => some ⟨p.text, .ofBytes content, isExecutable mode⟩
  | _ => none

/-- What is recorded of a declared directory, if it is there. -/
def treeRecord? (t : FileTree) (p : PlainPath) : Option OutputDirectory :=
  match t.at? p.names with
  | some (.directory entries) =>
    some ⟨p.text, .ofMessage (FileTree.directory entries).sorted.walked.tree⟩
  | _ => none

/-- What is reported of a declared file. -/
def fileViolations (t : FileTree) (s : Store) (p : PlainPath) : List Violation :=
  match t.at? p.names with
  | some (.directory _) => [.fileWasDirectory p.text]
  | some (.file content _) => s.refusals [content]
  | _ => []

/-- What is reported of a declared directory. -/
def treeViolations (t : FileTree) (s : Store) (p : PlainPath) : List Violation :=
  match t.at? p.names with
  | some (.directory entries) =>
    let d := (FileTree.directory entries).sorted
    s.refusals (d.contents ++ [Message.encode d.walked.tree])
  | some _ => [.directoryWasFile p.text]
  | none => []

/-- What is reported of declared files and directories. -/
def pathViolations (t : FileTree) (s : Store) (files directories : List PlainPath) :
    List Violation :=
  files.flatMap (t.fileViolations s) ++ directories.flatMap (t.treeViolations s)

end FileTree

namespace Capture

/-! ### Walks -/

/-- A walk that finds on the disk what the directory lists. -/
structure Faithful (top : FileTree) (place : FileTree.Place) (t : FileTree) : Prop where
  captured_eq : top.captured place t = t.walked
  stored_eq : (top.errands place t).filterMap Errand.stored? = t.contents
  /-- The disk is not to blame for anything. -/
  faultless : ∀ e ∈ top.errands place t, e.failure? = none

/-- An entry that is found on the disk as it is listed. -/
inductive Listed (top : FileTree) (place : FileTree.Place) (name : FileName) : FileTree → Prop
  | file {content : ByteArray} {mode : Nat}
      (found : top.find place name = .ok (some (place ++ [name], .file content mode))) :
      Listed top place name (.file content mode)
  | directory {entries : List (FileName × FileTree)}
      (faithful : Faithful top (place ++ [name]) (.directory entries)) :
      Listed top place name (.directory entries)

section

variable {top : FileTree} {place : FileTree.Place}

/-- Entries that are found as they are listed are captured as listed. -/
theorem captured_entries {entries : List (FileName × FileTree)}
    (listed : ∀ e ∈ entries, Listed top place e.1 e.2) :
    top.capturedEntries place entries = FileTree.walkedEntries entries ∧
    (top.entryErrands place entries).filterMap Errand.stored? = FileTree.entryContents entries ∧
    ∀ e ∈ top.entryErrands place entries, e.failure? = none := by
  induction entries with
  | nil => simp [FileTree.capturedEntries, FileTree.walkedEntries, FileTree.entryErrands,
      FileTree.entryContents]
  | cons e rest ih =>
      obtain ⟨name, t⟩ := e
      obtain ⟨captured, stored, faultless⟩ := ih fun e mem => listed e (List.mem_cons_of_mem _ mem)
      have first : Listed top place name t := listed _ List.mem_cons_self
      cases first with
      | file found =>
          refine ⟨?_, ?_, ?_⟩
          · simp [FileTree.capturedEntries, FileTree.walkedEntries, FileTree.isDirectory, found,
              captured]
          · simp [FileTree.entryErrands, FileTree.isDirectory, found, List.filterMap_cons,
              Errand.stored?, FileTree.entryContents, FileTree.contents, stored]
          · simpa [FileTree.entryErrands, FileTree.isDirectory, found] using faultless
      | directory faithful =>
          refine ⟨?_, ?_, ?_⟩
          · simp [FileTree.capturedEntries, FileTree.walkedEntries, FileTree.isDirectory,
              faithful.captured_eq, captured]
          · simp [FileTree.entryErrands, FileTree.isDirectory, List.filterMap_cons, Errand.stored?,
              FileTree.entryContents, faithful.stored_eq, stored]
          · simpa [FileTree.entryErrands, FileTree.isDirectory, or_imp, forall_and] using
              And.intro faithful.faultless faultless

/-- A walk of a regular directory is faithful. -/
theorem faithful_regular {t : FileTree} (regular : t.IsRegular) (isDirectory : t.isDirectory = true)
    (here : top.at? place = some t) : Faithful top place t.sorted := by
  induction regular generalizing place with
  | file => cases isDirectory
  | directory entries distinct named regular ih =>
      have whole := FileTree.IsRegular.directory entries distinct named regular
      rw [FileTree.sorted_directory]
      have listed : ∀ e ∈ FileTree.orderedEntries entries, Listed top place e.1 e.2 := by
        intro e ordered
        obtain ⟨name, u⟩ := e
        obtain ⟨t, mem, rfl⟩ := FileTree.mem_orderedEntries.1 ordered
        have found := FileTree.find_entry here whole mem
        have below : top.at? (place ++ [name]) = some t :=
          (FileTree.at?_entry here name).trans ((lookup_eq_some_iff_mem distinct).2 mem)
        have kind : t.IsRegular := regular _ mem
        cases kind with
        | file content mode => exact .file found
        | directory inner =>
            have faithful : Faithful top (place ++ [name]) (FileTree.directory inner).sorted :=
              ih _ mem rfl below
            rw [FileTree.sorted_directory] at faithful ⊢
            exact .directory faithful
      obtain ⟨captured, stored, faultless⟩ := captured_entries listed
      refine ⟨?_, ?_, ?_⟩
      · rw [FileTree.captured, FileTree.walked, captured]
      · simpa [FileTree.errands, FileTree.contents, List.filterMap_cons, Errand.stored?]
          using stored
      · simpa [FileTree.errands] using faultless

/-- What a walk reports is what it stores and is too large. -/
theorem violations_of_walks {s : Store} {errands : List Errand}
    (walks : ∀ e ∈ errands, FileTree.Walks top e) :
    errands.flatMap (Errand.violations s) = s.refusals (errands.filterMap Errand.stored?) := by
  induction errands with
  | nil => rfl
  | cons e rest ih =>
      have first : FileTree.Walks top e := walks e List.mem_cons_self
      rw [List.flatMap_cons, ih fun e mem => walks e (List.mem_cons_of_mem _ mem)]
      cases first with
      | check | lost => rfl
      | @content _ _ _ data =>
          show _ = s.refusals ([data] ++ rest.filterMap Errand.stored?)
          rw [Store.refusals_append, Store.refusals_singleton]
          rfl

end

/-! ### Declared paths -/

section

variable {top t : FileTree} {root : FileTree.Place} {p : PlainPath}

/-- What the capture of a declared file does is told by what its path leads to. -/
theorem fileErrands_regular (here : top.at? root = some t) (regular : t.IsRegular)
    (faultless : t.fault? p = none) :
    top.outputFile? root p.text = t.fileRecord? p ∧
    (∀ s, (top.fileErrands root p.text).flatMap (Errand.violations s) = t.fileViolations s p) ∧
    ∀ e ∈ top.fileErrands root p.text, e.failure? = none := by
  have found := FileTree.find_plain here regular.isLinkless p
  rw [faultless] at found
  unfold FileTree.outputFile? FileTree.fileRecord? FileTree.fileErrands FileTree.fileViolations
  rw [found]
  cases there : t.at? p.names with
  | none => simp [Errand.violations]
  | some u =>
      have kind : u.IsRegular := regular.at? there
      cases kind with
      | file content mode => simp [Errand.violations, Store.refusals_singleton, Errand.failure?]
      | directory entries => simp [Errand.violations, Errand.failure?]

/-- What the capture of a declared directory does is told by what its path leads to. -/
theorem directoryErrands_regular (here : top.at? root = some t) (regular : t.IsRegular)
    (faultless : t.fault? p = none) :
    (top.outputDirectory? root p.text).map FileTree.directoryRecord = t.treeRecord? p ∧
    (∀ s, (top.directoryErrands root p.text).flatMap (Errand.violations s) =
      t.treeViolations s p) ∧
    ∀ e ∈ top.directoryErrands root p.text, e.failure? = none := by
  have found := FileTree.find_plain here regular.isLinkless p
  rw [faultless] at found
  unfold FileTree.outputDirectory? FileTree.treeRecord? FileTree.directoryErrands
    FileTree.treeViolations
  rw [found]
  cases there : t.at? p.names with
  | none => simp [Errand.violations]
  | some u =>
      have kind : u.IsRegular := regular.at? there
      cases u with
      | file content mode => simp [Errand.violations, Errand.failure?]
      | link | special => cases kind
      | directory entries =>
          have place : top.at? (root ++ p.names) = some (.directory entries) := by
            rw [FileTree.at?_append, here]
            exact there
          obtain ⟨captured, stored, faultless⟩ := faithful_regular kind rfl place
          have walked (s : Store) := @violations_of_walks top s _
            (FileTree.walks_errands (root ++ p.names) (FileTree.directory entries).sorted)
          refine ⟨?_, ?_, ?_⟩
          · simp [FileTree.directoryRecord, captured]
          · intro s
            simp [Errand.violations, walked, stored, captured, Store.refusals_singleton]
          · simpa [Errand.failure?, or_imp, forall_and] using faultless

variable {files directories : List PlainPath}

/-- The disk is to blame for the fault of the first declared path that has one. -/
theorem blame?_regular (here : top.at? root = some t) (regular : t.IsRegular) :
    top.blame? root (files.map PlainPath.text) (directories.map PlainPath.text) =
      ((files ++ directories).findSome? t.fault?).map fun e => .io e.toIo := by
  have first {paths : List PlainPath} {errands : String → List Errand}
      (faulty : ∀ p ∈ paths, ∀ e, t.fault? p = some e → errands p.text = [.check, .lost e])
      (faultless : ∀ p ∈ paths, t.fault? p = none →
        ∀ e ∈ errands p.text, e.failure? = none) :
      ((paths.map PlainPath.text).flatMap errands).findSome? Errand.failure? =
        (paths.findSome? t.fault?).map fun e => .io e.toIo := by
    induction paths with
    | nil => rfl
    | cons p rest ih =>
        rw [List.forall_mem_cons] at faulty faultless
        rw [List.map_cons, List.flatMap_cons, List.findSome?_append, ih faulty.2 faultless.2,
          List.findSome?_cons]
        cases fault : t.fault? p with
        | some e =>
            rw [faulty.1 e fault]
            rfl
        | none =>
            rw [List.findSome?_eq_none_iff.2 (faultless.1 fault)]
            rfl
  have faulty {p : PlainPath} {e : LookupError} (fault : t.fault? p = some e) :=
    FileTree.outputErrands_fault here regular.isLinkless fault
  rw [FileTree.blame?, FileTree.outputErrands, List.findSome?_append, List.findSome?_append,
    first (fun _ _ _ fault => (faulty fault).1)
      (fun _ _ faultless => (fileErrands_regular here regular faultless).2.2),
    first (fun _ _ _ fault => (faulty fault).2)
      (fun _ _ faultless => (directoryErrands_regular here regular faultless).2.2)]
  cases files.findSome? t.fault? <;> rfl

theorem reported_regular (here : top.at? root = some t) (regular : t.IsRegular)
    (faultless : ∀ p ∈ files ++ directories, t.fault? p = none) (s : Store) :
    top.reported s root (files.map PlainPath.text) (directories.map PlainPath.text) =
      t.pathViolations s files directories := by
  simp only [List.mem_append] at faultless
  simp only [FileTree.reported, FileTree.outputErrands, FileTree.pathViolations,
    List.flatMap_append, List.flatMap_assoc, List.flatMap_map]
  congr 1
  · apply List.flatMap_congr
    intro p mem
    exact (fileErrands_regular here regular (faultless p (.inl mem))).2.1 s
  · apply List.flatMap_congr
    intro p mem
    exact (directoryErrands_regular here regular (faultless p (.inr mem))).2.1 s

/-- Errands record what is there. -/
theorem recordAll_regular (here : top.at? root = some t) (regular : t.IsRegular)
    (faultless : ∀ p ∈ files ++ directories, t.fault? p = none) (r : ActionResult) :
    recordAll (top.outputErrands root (files.map PlainPath.text)
        (directories.map PlainPath.text)) r =
      { r with
        outputFiles := r.outputFiles ++ files.filterMap t.fileRecord?
        outputDirectories := r.outputDirectories ++ directories.filterMap t.treeRecord? } := by
  simp only [List.mem_append] at faultless
  have recorded : (files.map PlainPath.text).filterMap (top.outputFile? root) =
      files.filterMap t.fileRecord? := by
    rw [List.filterMap_map]
    apply List.filterMap_congr
    intro p mem
    exact (fileErrands_regular here regular (faultless p (.inl mem))).1
  have recorded' : ((directories.map PlainPath.text).filterMap (top.outputDirectory? root)).map
      FileTree.directoryRecord = directories.filterMap t.treeRecord? := by
    rw [List.filterMap_map, List.map_filterMap]
    apply List.filterMap_congr
    intro p mem
    exact (directoryErrands_regular here regular (faultless p (.inr mem))).1
  rw [recordAll, FileTree.filterMap_file?, FileTree.filterMap_directory?, recorded, recorded']

end

end Capture

namespace Depot

variable {d : Depot} {settings : CaptureSettings} {top t : FileTree} {root : FileTree.Place}
  {action : Digest} {result : ActionResult}

/-- What no stream writes to is what the errands make of it, up to the first for which the disk is
to blame. -/
theorem captureOutputs_apart {α : Type} (field : ActionResult → α)
    (apart : ∀ (s : StandardStream) digest r, field (s.note digest r) = field r)
    {files directories : List String} (calm : d.Calm) (sound : d.store.Sound)
    (sized : top.IsSized) :
    field (d.captureOutputs settings top root action result files directories).2.1 =
      field (recordAll
        ((top.outputErrands root files directories).takeWhile (·.failure?.isNone)) result) := by
  obtain ⟨c, settled, run⟩ := @captureOutputs_settles d settings top root action result files
    directories calm sound sized
  have record := congrArg field settled.result_eq
  rw [run, ← record]
  cases top.blame? root files directories with
  | none => exact finish_apart field apart settings action c
  | some e => rfl

variable {files directories : List PlainPath}

/-- **A capture of plain outputs records exactly those that are there in the right shape, unless one
cannot be looked up.** It adds them in declared order, once for each declaration, to what the result
has already, whose exit code stays. It ends with all violations of the declared paths if there are
any, and otherwise as the streams allow. But the first declared path with a fault fails the capture,
also if there is nothing at it; then too what the result has already stays. -/
theorem captureOutputs_records (calm : d.Calm) (reachable : d.store.Reachable)
    (sized : top.IsSized) (here : top.at? root = some t) (regular : t.IsRegular)
    {outcome : Except ExecutionError Unit} {result' : ActionResult} {d' : Depot}
    (run : d.captureOutputs settings top root action result (files.map PlainPath.text)
      (directories.map PlainPath.text) = (outcome, result', d')) :
    result'.exitCode = result.exitCode ∧
    ((∀ p ∈ files ++ directories, t.fault? p = none) →
      result'.outputFiles = result.outputFiles ++ files.filterMap t.fileRecord? ∧
      result'.outputDirectories =
        result.outputDirectories ++ directories.filterMap t.treeRecord? ∧
      outcome =
        if t.pathViolations d.store files directories = [] then
          unlessRefused (result.refusedStream? settings.inlineLimit d.store)
        else .error (.precondition action ⟨t.pathViolations d.store files directories⟩)) ∧
    ∀ e, (files ++ directories).findSome? t.fault? = some e →
      outcome = .error (.io e.toIo) ∧ result.outputFiles <+: result'.outputFiles ∧
        result.outputDirectories <+: result'.outputDirectories := by
  have blame := @blame?_regular top t root files directories here regular
  have ends := @captureOutputs_outcome d settings top root action result (files.map PlainPath.text)
    (directories.map PlainPath.text) calm reachable.sound sized
  have kept {α : Type} (field : ActionResult → α)
      (apart : ∀ (s : StandardStream) digest r, field (s.note digest r) = field r) :=
    @captureOutputs_apart d settings top root action result α field apart
      (files.map PlainPath.text) (directories.map PlainPath.text) calm reachable.sound sized
  have exitCode := kept ActionResult.exitCode StandardStream.exitCode_note
  have outputFiles := kept ActionResult.outputFiles StandardStream.outputFiles_note
  have outputDirectories :=
    kept ActionResult.outputDirectories StandardStream.outputDirectories_note
  rw [run] at ends exitCode outputFiles outputDirectories
  refine ⟨exitCode, fun faultless => ?_, fun e fault => ?_⟩
  · rw [List.findSome?_eq_none_iff.2 faultless] at blame
    have record := recordAll_regular here regular faultless result
    rw [FileTree.takeWhile_of_blame?_eq_none blame, record] at outputFiles outputDirectories
    rw [blame, reported_regular here regular faultless] at ends
    exact ⟨outputFiles, outputDirectories, ends⟩
  · rw [blame, fault] at ends
    exact ⟨ends, outputFiles ▸ List.prefix_append _ _, outputDirectories ▸ List.prefix_append _ _⟩

theorem samplePath_spells :
    FileTree.Spells (String.toUTF8 "o/a") ["o".toUTF8, "a".toUTF8] := by
  refine ⟨?_, by decide +kernel⟩
  rw [List.forall_mem_cons, List.forall_mem_singleton]
  constructor <;> constructor <;> decide +kernel

/-- The path of the file. -/
def samplePath : PlainPath := ⟨"o/a", _, samplePath_spells⟩

/-- The path of the directory. -/
def sampleParent : PlainPath := .single "o" (by constructor <;> decide +kernel)

/-- A path to nothing. -/
def sampleVoid : PlainPath := .single "a" (by constructor <;> decide +kernel)

theorem sampleDisk_regular : sampleDisk.IsRegular := by
  refine .directory _ (by decide +kernel) ?_ ?_
  · intro e mem
    cases List.mem_singleton.1 mem
    refine ⟨?_, by decide +kernel⟩
    constructor <;> decide +kernel
  · intro e mem
    cases List.mem_singleton.1 mem
    exact sampleDirectory_plain.isRegular

/-- Everything that can happen to a declared path, in a depot for entries of a single byte. -/
theorem sampleNarrow_records :
    let run := sampleNarrow.captureOutputs {} sampleDisk [] .empty {} ["o/a", "a", "o"] ["o", "o/a"]
    let tree := Digest.ofMessage sampleDirectory.walked.tree
    run.2.1.outputFiles = [⟨"o/a", .ofBytes sampleContent, true⟩] ∧
    run.2.1.outputDirectories = [⟨"o", tree⟩] ∧
    run.1 = .error (.precondition .empty
      ⟨[.fileWasDirectory "o", .oversized tree, .directoryWasFile "o/a"]⟩) := by
  have calm : sampleNarrow.Calm := ⟨rfl, rfl⟩
  have reachable : sampleNarrow.store.Reachable := ⟨1, .refl⟩
  have parts (run : Except ExecutionError Unit × ActionResult × Depot) :
      run = (run.1, run.2.1, run.2.2) := rfl
  have faultless : ∀ p ∈ [samplePath, sampleVoid, sampleParent] ++ [sampleParent, samplePath],
      sampleDisk.fault? p = none := by
    decide +kernel
  have here : sampleDisk.at? [] = some sampleDisk := rfl
  obtain ⟨files, directories, outcome⟩ := (@captureOutputs_records sampleNarrow {} _ _ [] .empty {}
    [samplePath, sampleVoid, sampleParent] [sampleParent, samplePath] calm reachable
    sampleDisk_sized here sampleDisk_regular _ _ _ (parts _)).2.1 faultless
  have violations : sampleDisk.pathViolations sampleNarrow.store
      [samplePath, sampleVoid, sampleParent] [sampleParent, samplePath] =
      [.fileWasDirectory "o", .oversized (Digest.ofMessage sampleDirectory.walked.tree),
        .directoryWasFile "o/a"] := by
    decide +kernel
  rw [violations, if_neg (List.cons_ne_nil _ _)] at outcome
  refine ⟨files.trans ?_, directories.trans ?_, outcome⟩
  · decide +kernel
  · decide +kernel

/-- A path to nothing by a name that is too long. -/
def sampleLongName : PlainPath :=
  .single (String.ofList (List.replicate 256 'a')) (by constructor <;> decide +kernel)

/-- There is nothing at a path by a name that is too long, but declaring it makes a capture fail. -/
theorem sampleLongName_fails :
    FileTree.empty.at? sampleLongName.names = none ∧
    ((ofStore (.ofLimit 0)).captureOutputs {} .empty [] .empty {} [sampleLongName.text] []).1 =
      .error (.io (.system .other)) ∧
    ((ofStore (.ofLimit 0)).captureOutputs {} .empty [] .empty {} [] []).1 = .ok () := by
  decide +kernel

end Depot

end BuildWorker
