import BuildWorker.Proofs.Capture.Agreement
import BuildWorker.Proofs.Capture.Streams
import Mathlib.Data.List.TakeWhile

/-!
# How a capture ends

When neither the store fails by itself nor the worker is interrupted, the disk, the limit of the
store and the streams tell how a capture ends (`Depot.captureOutputs_outcome`). The disk comes
first: a path that cannot be followed, or a file that cannot be read, fails the capture with an
input/output failure. Then come the violations, and last the streams.

Content of the outputs that is larger than the store accepts is among the violations. A stream that
is too large is not: the refusal of the store becomes the failure of the capture
(`Depot.captureOutputs_limited`).
-/

namespace BuildWorker

open Capture

/-- The failure that the disk is to blame for: that of the first path that cannot be followed or
read. -/
def FileTree.blame? (top : FileTree) (root : FileTree.Place) (files directories : List String) :
    Option ExecutionError :=
  (top.outputErrands root files directories).findSome? Errand.failure?

/-- The disk is not to blame for a failure of the store. -/
theorem FileTree.blame?_ne_store {top : FileTree} {root : FileTree.Place}
    {files directories : List String} (e : StoreError) :
    top.blame? root files directories ≠ some (.store e) := by
  intro blame
  obtain ⟨errand, -, failed⟩ := List.exists_of_findSome?_eq_some blame
  cases errand <;> cases failed

/-- All errands are done when the disk is not to blame for anything. -/
theorem FileTree.takeWhile_of_blame?_eq_none {top : FileTree} {root : FileTree.Place}
    {files directories : List String} (faultless : top.blame? root files directories = none) :
    (top.outputErrands root files directories).takeWhile (·.failure?.isNone) =
      top.outputErrands root files directories := by
  refine List.takeWhile_eq_self_iff.2 fun e mem => ?_
  simpa using List.findSome?_eq_none_iff.1 faultless e mem

/-- The violations that a capture collects, in order. -/
def FileTree.reported (top : FileTree) (s : Store) (root : FileTree.Place)
    (files directories : List String) : List Violation :=
  (top.outputErrands root files directories).flatMap (Errand.violations s)

/-- The digest of a stream that is too long to stay in the result and too large for the store. -/
def StandardStream.refused? (limit : Nat) (store : Store) (r : ActionResult)
    (s : StandardStream) : Option Digest :=
  if limit < (s.raw r).size ∧ store.exceedsLimit (.ofBytes (s.raw r)) = true then
    some (.ofBytes (s.raw r))
  else none

theorem StandardStream.refused?_congr {s : StandardStream} {store store' : Store}
    {r r' : ActionResult} (stores : store'.limit = store.limit) (raw : s.raw r' = s.raw r)
    (limit : Nat) : s.refused? limit store' r' = s.refused? limit store r := by
  unfold refused?
  rw [raw, Store.exceedsLimit_congr stores]

/-- The digest of the first stream that the store refuses. -/
def ActionResult.refusedStream? (r : ActionResult) (limit : Nat) (store : Store) :
    Option Digest :=
  (StandardStream.output.refused? limit store r).or (StandardStream.error.refused? limit store r)

theorem ActionResult.refusedStream?_congr {store store' : Store} {r r' : ActionResult}
    (stores : store'.limit = store.limit) (raw : ∀ s : StandardStream, s.raw r' = s.raw r)
    (limit : Nat) : r'.refusedStream? limit store' = r.refusedStream? limit store := by
  unfold refusedStream?
  rw [StandardStream.refused?_congr stores (raw .output),
    StandardStream.refused?_congr stores (raw .error)]

namespace Capture

variable {settings : CaptureSettings} {s : StandardStream} {c : Capture}

/-! ### The streams -/

/-- What is answered when the store may refuse something. -/
def unlessRefused : Option Digest → Except ExecutionError Unit
  | none => .ok ()
  | some digest => .error (.store (.entryLimit digest))

theorem unlessRefused_eq_error {refused : Option Digest} {digest : Digest} :
    unlessRefused refused = .error (.store (.entryLimit digest)) ↔ refused = some digest := by
  cases refused <;> simp [unlessRefused]

/-- Without scripted failures, only the limit of the store can keep a stream from being moved. -/
theorem relocateStream_answer (settings : CaptureSettings) (s : StandardStream)
    (unscripted : c.depot.callFaults = []) :
    let r := told (relocateStream settings s.raw s.note c)
    r.1 = unlessRefused (s.refused? settings.inlineLimit c.depot.store c.result) ∧
      r.2.2.callFaults = [] ∧ r.2.2.store.limit = c.depot.store.limit := by
  have limit : (c.depot.store.put (.ofBytes (s.raw c.result))).2.limit = c.depot.store.limit :=
    (Store.Step.put _ _).blobs.1
  rw [relocateStream_run, Depot.put_of_nil unscripted]
  by_cases short : (s.raw c.result).size ≤ settings.inlineLimit
  · have stays : s.refused? settings.inlineLimit c.depot.store c.result = none :=
      if_neg fun refused => Nat.not_le_of_lt refused.1 short
    rw [if_pos short, stays]
    exact ⟨rfl, unscripted, rfl⟩
  · have long := Nat.lt_of_not_le short
    rw [if_neg short]
    dsimp only
    rw [Store.put_fst]
    cases excess : c.depot.store.exceedsLimit (Blob.ofBytes (s.raw c.result)).digest with
    | true =>
        have refused : s.refused? settings.inlineLimit c.depot.store c.result =
            some (.ofBytes (s.raw c.result)) := if_pos ⟨long, excess⟩
        rw [refused]
        exact ⟨rfl, unscripted, limit⟩
    | false =>
        have taken : s.refused? settings.inlineLimit c.depot.store c.result = none :=
          if_neg fun refused => Bool.eq_false_iff.1 excess refused.2
        rw [taken]
        exact ⟨rfl, unscripted, limit⟩

/-- Moving the streams fails at the first that the store refuses. -/
theorem relocateStreams_answer (settings : CaptureSettings) (unscripted : c.depot.callFaults = []) :
    (told (relocateStreams settings c)).1 =
      unlessRefused (c.result.refusedStream? settings.inlineLimit c.depot.store) := by
  obtain ⟨answer, unscripted', limit⟩ := relocateStream_answer settings .output unscripted
  have other := (relocateStream_relocates settings .output c).other
    (show StandardStream.error ≠ .output from nofun)
  rw [relocateStreams_eq, bind_run, ActionResult.refusedStream?]
  generalize relocateStream settings StandardStream.output.raw StandardStream.output.note c = r
    at answer unscripted' limit other
  cases refused : StandardStream.output.refused? settings.inlineLimit c.depot.store c.result with
  | none =>
      rw [refused] at answer
      cases r with
      | error => cases answer
      | ok _ c₁ =>
          obtain ⟨second, -, -⟩ := relocateStream_answer settings .error unscripted'
          have same : StandardStream.error.refused? settings.inlineLimit c₁.depot.store c₁.result =
              StandardStream.error.refused? settings.inlineLimit c.depot.store c.result :=
            StandardStream.refused?_congr limit other.raw_eq _
          rw [same] at second
          exact second
  | some digest =>
      rw [refused] at answer
      cases r with
      | ok => cases answer
      | error e c₁ => exact answer

end Capture

namespace Depot

variable {d : Depot} {settings : CaptureSettings} {top : FileTree} {root : FileTree.Place}
  {action : Digest} {result : ActionResult} {files directories : List String}

/-! ### The whole capture -/

/-- A capture into a calm depot does its errands up to the first for which the disk is to blame,
and comes to its end if there is none. -/
theorem captureOutputs_settles (calm : d.Calm) (sound : d.store.Sound) (sized : top.IsSized) :
    ∃ c, Settled { depot := d, result } c
        ((top.outputErrands root files directories).takeWhile (·.failure?.isNone)) ∧
      d.captureOutputs settings top root action result files directories =
        told (match top.blame? root files directories with
          | none => finish settings action c
          | some e => .error e c) := by
  have sized (data : ByteArray) (mem : .content data ∈ top.outputErrands root files directories) :
      data.size < UInt64.size := sized.size_lt mem
  obtain ⟨c, settled, run⟩ :=
    runAll_settles settings (c := { depot := d, result }) calm sound sized
  refine ⟨c, settled, ?_⟩
  rw [captureOutputs_eq, bind_run, run, FileTree.blame?]
  cases (top.outputErrands root files directories).findSome? Errand.failure? <;> rfl

/-- When the disk is not to blame for anything, all errands are done. -/
theorem captureOutputs_of_faultless (calm : d.Calm) (sound : d.store.Sound) (sized : top.IsSized)
    (faultless : top.blame? root files directories = none) :
    ∃ c, Settled { depot := d, result } c (top.outputErrands root files directories) ∧
      d.captureOutputs settings top root action result files directories =
        told (finish settings action c) := by
  obtain ⟨c, settled, run⟩ := @captureOutputs_settles d settings top root action result files
    directories calm sound sized
  rw [FileTree.takeWhile_of_blame?_eq_none faultless] at settled
  rw [faultless] at run
  exact ⟨c, settled, run⟩

/-- **How a capture into a calm depot ends**: with what the disk is to blame for, else with its
violations, else with the refusal of a stream, and else well. -/
theorem captureOutputs_outcome (calm : d.Calm) (sound : d.store.Sound) (sized : top.IsSized) :
    (d.captureOutputs settings top root action result files directories).1 =
      match top.blame? root files directories with
      | some e => .error e
      | none =>
        if top.reported d.store root files directories = [] then
          unlessRefused (result.refusedStream? settings.inlineLimit d.store)
        else .error (.precondition action ⟨top.reported d.store root files directories⟩) := by
  cases blame : top.blame? root files directories with
  | some e =>
      obtain ⟨c, -, run⟩ := @captureOutputs_settles d settings top root action result files
        directories calm sound sized
      rw [run, blame]
      rfl
  | none =>
      obtain ⟨c, settled, run⟩ := @captureOutputs_of_faultless d settings top root action result
        files directories calm sound sized blame
      have violations : c.violations = top.reported d.store root files directories :=
        settled.violations_eq
      rw [run, finish_run, violations]
      dsimp only
      split
      next clean =>
        have unscripted : c.depot.callFaults = [] := (Prod.mk.inj settled.calm.script_eq).1
        have raw (s : StandardStream) : s.raw c.result = s.raw result := by
          rw [settled.result_eq]
          cases s <;> rfl
        rw [relocateStreams_answer settings unscripted]
        exact congrArg unlessRefused
          (ActionResult.refusedStream?_congr settled.evolves.limit_eq raw _)
      next => rfl

/-- **Only streams make a refusal for size the failure of a capture.** When some content of the
outputs is larger than the store accepts, a capture for which the disk is not to blame ends with
violations, one of which says that the content is missing. A capture fails with a refusal for size
exactly if nothing was wrong with the outputs and the store refuses a stream. -/
theorem captureOutputs_limited (calm : d.Calm) (reachable : d.store.Reachable)
    (sized : top.IsSized) {outcome : Except ExecutionError Unit} {result' : ActionResult}
    {d' : Depot} (run : d.captureOutputs settings top root action result files directories =
      (outcome, result', d')) :
    (∀ digest ∈ top.recorded root files directories, d.store.exceedsLimit digest = true →
      top.blame? root files directories = none →
        ∃ failure, outcome = .error (.precondition action failure) ∧
          ∃ v ∈ failure.violations, v.kind = .missing ∧ v.subject = "blobs/" ++ digest.display) ∧
    ∀ digest, outcome = .error (.store (.entryLimit digest)) ↔
      top.blame? root files directories = none ∧ top.reported d.store root files directories = [] ∧
        result.refusedStream? settings.inlineLimit d.store = some digest := by
  have ends := @captureOutputs_outcome d settings top root action result files directories calm
    reachable.sound sized
  rw [run] at ends
  dsimp only at ends
  constructor
  · intro digest recorded excess faultless
    have reported : Violation.oversized digest ∈ top.reported d.store root files directories :=
      (mem_violations.2 ⟨digest, FileTree.mem_recorded.1 recorded, excess, rfl⟩).1
    rw [faultless] at ends
    dsimp only at ends
    rw [if_neg (List.ne_nil_of_mem reported)] at ends
    exact ⟨_, ends, _, reported, rfl, rfl⟩
  · intro digest
    rw [ends]
    cases blame : top.blame? root files directories with
    | some e =>
        have other : e ≠ .store (.entryLimit digest) := by
          intro same
          exact FileTree.blame?_ne_store _ (same ▸ blame)
        simp [other]
    | none =>
        by_cases clean : top.reported d.store root files directories = []
        · simp [clean, unlessRefused_eq_error]
        · simp [clean]

/-- A depot for entries of a single byte. -/
def sampleNarrow : Depot := ofStore (.ofLimit 1)

/-- The tree of a directory that does not fit is reported as missing, and a stream that does not
fit is refused. -/
theorem sampleNarrow_reports :
    (∃ failure, (sampleNarrow.captureOutputs {} sampleDisk [] .empty {} ["o/a"] ["o"]).1 =
        .error (.precondition .empty failure) ∧
      ∃ v ∈ failure.violations, v.kind = .missing ∧
        v.subject = "blobs/" ++ (Digest.ofMessage sampleDirectory.walked.tree).display) ∧
    (sampleNarrow.captureOutputs {} sampleDisk [] .empty sampleStreams ["o/a"] []).1 =
      .error (.store (.entryLimit (.ofBytes "ab".toUTF8))) := by
  have calm : sampleNarrow.Calm := ⟨rfl, rfl⟩
  have reachable : sampleNarrow.store.Reachable := ⟨1, .refl⟩
  have parts (run : Except ExecutionError Unit × ActionResult × Depot) :
      run = (run.1, run.2.1, run.2.2) := rfl
  constructor
  · refine (captureOutputs_limited calm reachable sampleDisk_sized (parts _)).1 _ ?_ ?_ ?_
    · decide +kernel
    · decide +kernel
    · decide +kernel
  · refine ((captureOutputs_limited calm reachable sampleDisk_sized (parts _)).2 _).2 ?_
    decide +kernel

/-- Standard output that is larger than the store accepts is not reported as missing. -/
theorem sampleNarrow_refuses :
    sampleNarrow.store.exceedsLimit (.ofBytes sampleStreams.stdoutRaw) = true ∧
    (sampleNarrow.captureOutputs {} .empty [] .empty sampleStreams [] []).1 =
      .error (.store (.entryLimit (.ofBytes sampleStreams.stdoutRaw))) := by
  decide +kernel

end Depot

end BuildWorker
