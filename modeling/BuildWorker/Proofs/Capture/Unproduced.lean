import BuildWorker.Proofs.Capture.Running
import BuildWorker.Proofs.Files.Regular

/-!
# Outputs that were not produced

A declared path that leads to nothing is passed over: all that a capture does for it is to look
whether the worker is interrupted. While nothing interrupts the worker (`Depot.Undisturbed`) such a
look has no effect (`Capture.runAll_check`), so the capture comes to the same, call by call, as if
the path were not declared (`Depot.captureOutputs_declared`).

In a file tree without links, a plain path at which there is nothing leads to nothing, unless there
is a fault with it: it leads through a file, or it is too long. Then it cannot be looked up, which
fails the capture (`Depot.captureOutputs_passes_over`).
-/

namespace BuildWorker

/-! ### Depots without interruption -/

/-- The worker is not interrupted, and no failure to come interrupts it. -/
structure Depot.Undisturbed (d : Depot) : Prop where
  uninterrupted : d.interrupted = false
  calls : ∀ f ∈ d.callFaults, f.interrupts = false
  sinks : ∀ f ∈ d.sinkFaults, f.moment ≠ .hang

/-- A sink that does not interrupt the worker. -/
def Sink.Steady (k : Sink) : Prop := ∀ f, k.fault = some f → f.moment ≠ .hang

namespace Depot.Undisturbed

variable {d d' : Depot}

theorem of_same (h : d.Undisturbed) (script : d'.script = d.script)
    (interrupted : d'.interrupted = d.interrupted) : d'.Undisturbed := by
  obtain ⟨calls, sinks⟩ := Prod.mk.inj script
  exact ⟨interrupted.trans h.uninterrupted, calls ▸ h.calls, sinks ▸ h.sinks⟩

theorem begin (h : d.Undisturbed) (c : StoreCall) : (d.begin c).2.Undisturbed := by
  refine h.of_same (congrArg Prod.fst (d.frame_begin c)) ?_
  unfold Depot.begin
  dsimp only
  split
  · rfl
  next f found =>
    have quiet : f.interrupts = false := h.calls f (List.mem_of_find?_eq_some found)
    rw [quiet]
    rfl

end Depot.Undisturbed

/-- A write that does not interrupt the worker, to a sink that will not either. -/
structure Sink.Leaves (d : Depot) (r : WriteEnd × Sink × Depot) : Prop where
  interrupted_eq : r.2.2.interrupted = d.interrupted
  steady : r.2.1.Steady

namespace Sink.Steady

variable {k : Sink}

theorem append (steady : k.Steady) (d : Depot) (data : ByteArray) :
    Leaves d (k.append d data) := ⟨rfl, steady⟩

theorem appendThenFail (steady : k.Steady) (d : Depot) (data : ByteArray) (n : Nat)
    (error : StoreError) : Leaves d (k.appendThenFail d data n error) := by
  have first := steady.append d (data.extract 0 n)
  unfold Sink.appendThenFail
  split
  next eq =>
    rw [eq] at first
    exact ⟨first.interrupted_eq, first.steady⟩
  next => exact first

theorem write (steady : k.Steady) (d : Depot) (data : ByteArray) :
    Leaves d (k.write d data) := by
  unfold Sink.write
  split
  · exact steady.append d data
  next f fault =>
    have spent : Sink.Steady { k with fault := none } := fun f fault => by cases fault
    dsimp only
    split
    · exact ⟨rfl, spent⟩
    · exact spent.appendThenFail d data _ _
    · exact spent.appendThenFail d data _ _
    next hangs => exact absurd hangs (steady f fault)
    · exact steady.append d data

theorem writeAgain (steady : k.Steady) (d : Depot) (data : ByteArray) :
    Leaves d (k.writeAgain d data) := by
  have first := steady.write d data
  unfold Sink.writeAgain
  split
  next e k' d' eq =>
    rw [eq] at first
    split
    · have second := first.steady.write d' data
      exact ⟨second.interrupted_eq.trans first.interrupted_eq, second.steady⟩
    · exact ⟨first.interrupted_eq, first.steady⟩
  next => exact first

theorem writePieces (steady : k.Steady) (d : Depot) (pieces : List ByteArray) :
    Leaves d (k.writePieces d pieces) := by
  induction pieces generalizing k d with
  | nil => exact ⟨rfl, steady⟩
  | cons piece rest ih =>
      have first := steady.writeAgain d piece
      unfold Sink.writePieces
      split
      next k' d' eq =>
        rw [eq] at first
        have second := ih first.steady d'
        exact ⟨second.interrupted_eq.trans first.interrupted_eq, second.steady⟩
      next => exact first

end Sink.Steady

namespace Depot.Undisturbed

variable {d : Depot}

theorem openFor (h : d.Undisturbed) (w : Session) (deadline : Nat) :
    (Sink.openFor w deadline d).2.interrupted = d.interrupted ∧
      ∀ k, (Sink.openFor w deadline d).1 = .ok k → k.Steady := by
  have begun := h.begin (.getOutput deadline)
  unfold Sink.openFor
  generalize d.begin (.getOutput deadline) = r at begun
  obtain ⟨_ | e, d'⟩ := r
  · have interrupted := begun.uninterrupted.trans h.uninterrupted.symm
    dsimp only
    split
    · exact ⟨interrupted, fun k opened => by cases opened⟩
    · refine ⟨interrupted, fun k opened => ?_⟩
      cases opened
      exact fun f fault => begun.sinks f (List.mem_of_find?_eq_some fault)
  · exact ⟨begun.uninterrupted.trans h.uninterrupted.symm, fun k opened => by cases opened⟩

theorem stream (h : d.Undisturbed) (deadline : Nat) (w : Session) (content : ByteArray) :
    (d.stream deadline w content).2.2.interrupted = d.interrupted := by
  obtain ⟨opened, steady⟩ := h.openFor w deadline
  unfold Depot.stream
  generalize Sink.openFor w deadline d = r at opened steady
  obtain ⟨_ | k, d'⟩ := r
  · exact opened
  · have written := ((steady k rfl).writePieces d' (piecesFrom content 0)).interrupted_eq
    dsimp only at opened ⊢
    split
    · exact opened
    · split
      all_goals
        next eq =>
          rw [eq] at written
          exact written.trans opened

theorem fill (h : d.Undisturbed) (deadline : Nat) (w : Session) (content : ByteArray) :
    (d.fill deadline w content).2.interrupted = d.interrupted := by
  have streamed := h.stream deadline w content
  unfold Depot.fill
  split
  · rfl
  · split
    next eq =>
      rw [eq] at streamed
      exact streamed
    next eq =>
      rw [eq] at streamed
      split <;> exact streamed

theorem insert (h : d.Undisturbed) (deadline : Nat) (digest : Digest) (content : ByteArray) :
    (d.insert deadline digest content).2.Undisturbed := by
  refine h.of_same (congrArg Prod.fst (d.frame_insert ..)) ?_
  have begun := h.begin (.getWrite digest)
  have same := begun.uninterrupted.trans h.uninterrupted.symm
  unfold Depot.insert openSession
  split
  · rfl
  · generalize d.begin (.getWrite digest) = r at begun same
    obtain ⟨_ | e, d'⟩ := r
    · have held : d'.hold.Undisturbed := begun.of_same rfl rfl
      exact (held.fill deadline (.start d'.store digest) content).trans same
    · exact same

theorem put (h : d.Undisturbed) (b : Blob) : (d.put b).2.Undisturbed := by
  refine h.of_same (congrArg Prod.fst (d.frame_put b)) ?_
  have begun := h.begin (.put b.digest)
  have same := begun.uninterrupted.trans h.uninterrupted.symm
  unfold Depot.put
  split
  all_goals
    next eq =>
      rw [eq] at same
      exact same

end Depot.Undisturbed

namespace Capture

variable {settings : CaptureSettings}

/-! ### Errands without interruption -/

/-- An errand does not interrupt the worker. -/
theorem Errand.run_undisturbed {c : Capture} (undisturbed : c.depot.Undisturbed) (e : Errand) :
    (told (e.run settings c)).2.2.Undisturbed := by
  have storing {f : Depot → Except ExecutionError Unit × Depot}
      (after : (f c.depot).2.Undisturbed) :
      (told (reportOversized (atDepot f) c)).2.2.Undisturbed := by
    rw [told_reportOversized]
    exact after
  cases e with
  | check =>
      show (told (checkInterrupted c)).2.2.Undisturbed
      rw [checkInterrupted_run]
      split <;> exact undisturbed
  | content data => exact storing (undisturbed.insert _ _ _)
  | tree text => exact storing (undisturbed.put _)
  | fileWasDirectory | directoryWasFile | file | directory | lost | unreadable => exact undisturbed

/-- While nothing interrupts the worker, to look whether it is interrupted has no effect. -/
theorem runAll_check {c : Capture} (undisturbed : c.depot.Undisturbed) (rest : List Errand) :
    runAll settings (.check :: rest) c = runAll settings rest c := by
  rw [runAll, bind_run, Errand.run, checkInterrupted_run, undisturbed.uninterrupted]
  rfl

/-- Whether an errand does more than look whether the worker is interrupted. -/
def Errand.acts : Errand → Bool
  | check => false
  | _ => true

/-- While nothing interrupts the worker, a capture comes to what its other errands come to. -/
theorem runAll_acts {c : Capture} (undisturbed : c.depot.Undisturbed) (errands : List Errand) :
    runAll settings errands c = runAll settings (errands.filter Errand.acts) c := by
  induction errands generalizing c with
  | nil => rfl
  | cons e rest ih =>
      cases acts : e.acts with
      | true =>
          have after : (told (e.run settings c)).2.2.Undisturbed := e.run_undisturbed undisturbed
          rw [List.filter_cons_of_pos acts, runAll, runAll, bind_run, bind_run]
          generalize e.run settings c = r at after
          cases r with
          | ok _ c' => exact ih after
          | error => rfl
      | false =>
          rw [List.filter_cons_of_neg (Bool.not_eq_true _ ▸ acts)]
          cases e with
          | check => exact (runAll_check undisturbed rest).trans (ih undisturbed)
          | _ => cases acts

/-- Errands fail if the disk is to blame for one of them, at the latest when that one is run. -/
theorem runAll_of_failure (settings : CaptureSettings) {errands : List Errand} {e : Errand}
    {error : ExecutionError} (mem : e ∈ errands) (failure : e.failure? = some error) (c : Capture) :
    ∃ error' c', runAll settings errands c = .error error' c' := by
  induction errands generalizing c with
  | nil => cases mem
  | cons first rest ih =>
      rw [runAll, bind_run]
      rcases List.mem_cons.1 mem with rfl | mem
      · rw [e.run_of_failure failure]
        exact ⟨error, c, rfl⟩
      · cases first.run settings c with
        | ok _ c' => exact ih mem c'
        | error error' c' => exact ⟨error', c', rfl⟩

end Capture

open Capture

/-! ### Declared paths -/

namespace FileTree

variable {top t : FileTree} {root : Place}

/-- Whether a path leads to nothing. -/
def isMissing (top : FileTree) (root : Place) (path : String) : Bool :=
  match top.find root path.toUTF8 with
  | .ok none => true
  | _ => false

theorem find_of_isMissing {path : String} (missing : top.isMissing root path = true) :
    top.find root path.toUTF8 = .ok none := by
  unfold isMissing at missing
  split at missing
  next found => exact found
  next => cases missing

/-- Items for which there is nothing to do can be left out. -/
theorem flatMap_filter_of_nil {α β : Type} {f : α → List β} {keep : α → Bool}
    (nothing : ∀ a, keep a = false → f a = []) (items : List α) :
    (items.filter keep).flatMap f = items.flatMap f := by
  induction items with
  | nil => rfl
  | cons a rest ih =>
      cases kept : keep a with
      | true => rw [List.filter_cons_of_pos kept, List.flatMap_cons, List.flatMap_cons, ih]
      | false =>
          rw [List.filter_cons_of_neg (Bool.eq_false_iff.1 kept), List.flatMap_cons,
            nothing a kept, List.nil_append, ih]

/-- Of a path that leads to nothing only the look remains. -/
theorem outputErrands_acts (files directories : List String) :
    (top.outputErrands root (files.filter fun path => !top.isMissing root path)
      (directories.filter fun path => !top.isMissing root path)).filter Errand.acts =
    (top.outputErrands root files directories).filter Errand.acts := by
  simp only [outputErrands, List.filter_append, List.filter_flatMap]
  congr 1
  · refine flatMap_filter_of_nil (fun path missing => ?_) files
    rw [Bool.not_eq_false'] at missing
    rw [fileErrands, find_of_isMissing missing]
    rfl
  · refine flatMap_filter_of_nil (fun path missing => ?_) directories
    rw [Bool.not_eq_false'] at missing
    rw [directoryErrands, find_of_isMissing missing]
    rfl

/-- Where there are no links, a plain path leads to nothing if there is nothing where its names
lead, unless there is a fault with it. -/
theorem isMissing_linkless (here : top.at? root = some t) (linkless : t.IsLinkless)
    (p : PlainPath) : top.isMissing root p.text =
      (!(t.at? p.names).isSome && (t.fault? p).isNone) := by
  rw [isMissing, find_plain here linkless p]
  cases t.fault? p with
  | some e => simp
  | none => cases t.at? p.names <;> rfl

/-- Of a declared path with a fault there is nothing but the fault. -/
theorem outputErrands_fault (here : top.at? root = some t) (linkless : t.IsLinkless)
    {p : PlainPath} {e : LookupError} (fault : t.fault? p = some e) :
    top.fileErrands root p.text = [.check, .lost e] ∧
      top.directoryErrands root p.text = [.check, .lost e] := by
  have found := find_plain here linkless p
  rw [fault] at found
  rw [fileErrands, directoryErrands, found]
  exact ⟨rfl, rfl⟩

/-- A declared path with a fault cannot be looked up. -/
theorem exists_failure_of_fault (here : top.at? root = some t) (linkless : t.IsLinkless)
    {files directories : List PlainPath} {p : PlainPath} (mem : p ∈ files ++ directories)
    {e : LookupError} (fault : t.fault? p = some e) :
    .lost e ∈ top.outputErrands root (files.map PlainPath.text)
      (directories.map PlainPath.text) := by
  obtain ⟨ofFile, ofDirectory⟩ := outputErrands_fault here linkless fault
  rw [outputErrands]
  rcases List.mem_append.1 mem with mem | mem
  · refine List.mem_append_left _ (List.mem_flatMap.2 ⟨p.text, List.mem_map_of_mem mem, ?_⟩)
    rw [ofFile]
    exact List.mem_cons_of_mem _ (List.mem_singleton_self _)
  · refine List.mem_append_right _ (List.mem_flatMap.2 ⟨p.text, List.mem_map_of_mem mem, ?_⟩)
    rw [ofDirectory]
    exact List.mem_cons_of_mem _ (List.mem_singleton_self _)

end FileTree

namespace Depot

variable {d : Depot} {settings : CaptureSettings} {top t : FileTree} {root : FileTree.Place}
  {action : Digest} {result : ActionResult}

/-- A capture comes to the same without the declared paths that lead to nothing. -/
theorem captureOutputs_declared (undisturbed : d.Undisturbed) (files directories : List String) :
    d.captureOutputs settings top root action result files directories =
      d.captureOutputs settings top root action result
        (files.filter fun path => !top.isMissing root path)
        (directories.filter fun path => !top.isMissing root path) := by
  have same (c : Capture) (undisturbed : c.depot.Undisturbed) :
      runAll settings (top.outputErrands root files directories) c =
        runAll settings (top.outputErrands root (files.filter fun path => !top.isMissing root path)
          (directories.filter fun path => !top.isMissing root path)) c := by
    rw [runAll_acts undisturbed, ← FileTree.outputErrands_acts, ← runAll_acts undisturbed]
  rw [captureOutputs_eq, captureOutputs_eq, bind_run, bind_run, same _ undisturbed]

/-- **Plain outputs that were not produced do not influence a capture, unless one cannot be looked
up.** In a file tree without links, a capture comes to the same, with the same outcome, result and
depot, when only those paths are declared at which there is something. But if there is a fault with
a declared path, so that it leads through something that is no directory or is too long, the capture
fails, though there may be nothing at the path. -/
theorem captureOutputs_passes_over (undisturbed : d.Undisturbed) (here : top.at? root = some t)
    (linkless : t.IsLinkless) (files directories : List PlainPath) :
    let run (files directories : List PlainPath) :=
      d.captureOutputs settings top root action result (files.map PlainPath.text)
        (directories.map PlainPath.text)
    let produced (p : PlainPath) : Bool := (t.at? p.names).isSome
    ((∀ p ∈ files ++ directories, t.fault? p = none) →
      run files directories = run (files.filter produced) (directories.filter produced)) ∧
    ((∃ p ∈ files ++ directories, t.fault? p ≠ none) →
      ∃ e, (run files directories).1 = .error e) := by
  intro run produced
  constructor
  · intro faultless
    have kept {paths : List PlainPath} (faultless : ∀ p ∈ paths, t.fault? p = none) :
        (paths.map PlainPath.text).filter (fun path => !top.isMissing root path) =
          (paths.filter produced).map PlainPath.text := by
      rw [List.filter_map]
      congr 1
      refine List.filter_congr fun p mem => ?_
      show (!top.isMissing root p.text) = (t.at? p.names).isSome
      rw [FileTree.isMissing_linkless here linkless, faultless p mem]
      cases t.at? p.names <;> rfl
    rw [List.forall_mem_append] at faultless
    show d.captureOutputs settings top root action result _ _ = _
    rw [captureOutputs_declared undisturbed, kept faultless.1, kept faultless.2]
  · intro ⟨p, mem, faulty⟩
    obtain ⟨e, fault⟩ := Option.ne_none_iff_exists'.1 faulty
    obtain ⟨e, c, failed⟩ := runAll_of_failure settings
      (FileTree.exists_failure_of_fault here linkless mem fault) rfl { depot := d, result }
    refine ⟨e, ?_⟩
    show (d.captureOutputs settings top root action result _ _).1 = _
    rw [captureOutputs_eq, bind_run, failed]
    rfl

/-- A disk with a file. -/
def sampleLeaf : FileTree := .directory [("a".toUTF8, .file .empty 0o644)]

theorem sampleLeaf_linkless : sampleLeaf.IsLinkless := by
  refine .directory _ fun e mem => ?_
  cases List.mem_singleton.1 mem
  exact .file _ _

theorem sampleBeyond_spells :
    FileTree.Spells (String.toUTF8 "a/b") ["a".toUTF8, "b".toUTF8] := by
  refine ⟨?_, by decide +kernel⟩
  rw [List.forall_mem_cons, List.forall_mem_singleton]
  constructor <;> constructor <;> decide +kernel

/-- A path through the file. -/
def sampleBeyond : PlainPath := ⟨"a/b", _, sampleBeyond_spells⟩

/-- Names at which there is nothing are passed over, and a path through the file is not. -/
theorem sampleLeaf_passes_over :
    (ofStore (.ofLimit 0)).captureOutputs {} sampleLeaf [] .empty {} ["b", "a"] ["c"] =
      (ofStore (.ofLimit 0)).captureOutputs {} sampleLeaf [] .empty {} ["a"] [] ∧
    ∃ e, ((ofStore (.ofLimit 0)).captureOutputs {} sampleLeaf [] .empty {} ["a/b"] []).1 =
      .error e := by
  have undisturbed : (ofStore (.ofLimit 0)).Undisturbed :=
    ⟨rfl, List.forall_mem_nil _, List.forall_mem_nil _⟩
  have here : sampleLeaf.at? [] = some sampleLeaf := rfl
  constructor
  · have same := (@captureOutputs_passes_over _ {} _ _ _ .empty {} undisturbed here
      sampleLeaf_linkless
      [.single "b" (by constructor <;> decide +kernel),
        .single "a" (by constructor <;> decide +kernel)]
      [.single "c" (by constructor <;> decide +kernel)]).1 (by decide +kernel)
    exact same
  · exact (captureOutputs_passes_over undisturbed here sampleLeaf_linkless [sampleBeyond] []).2
      ⟨sampleBeyond, List.mem_singleton_self _, by decide +kernel⟩

/-- There is nothing at a path through the file, but declaring it makes a capture fail. -/
theorem sampleLeaf_fails :
    sampleLeaf.at? sampleBeyond.names = none ∧
    ((ofStore (.ofLimit 0)).captureOutputs {} sampleLeaf [] .empty {} ["a/b"] []).1 =
      .error (.io (.system .other)) ∧
    ((ofStore (.ofLimit 0)).captureOutputs {} sampleLeaf [] .empty {} [] []).1 = .ok () := by
  decide +kernel

end Depot

end BuildWorker
