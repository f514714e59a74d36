import BuildWorker.Proofs.Capture.Streams

/-!
# Captures and interruption

A capture looks whether the worker is interrupted before it looks at a declared path, so when that
is so from the start it stops there, with the result and the depot as they were
(`Depot.captureOutputs_interrupted`).

Nothing else looks. When no path is declared, the capture has only standard output and error to
move, and it does not heed the interruption (`Capture.Heedless`): it ends as it would without.
-/

namespace BuildWorker

namespace Depot

/-- A depot whose worker is not interrupted. -/
def resumed (d : Depot) : Depot := { d with interrupted := false }

/-- What a call is answered and what it leaves does not depend on the interruption. -/
theorem begin_resumed (d : Depot) (c : StoreCall) :
    (d.resumed.begin c).1 = (d.begin c).1 ∧
      (d.resumed.begin c).2.resumed = (d.begin c).2.resumed := by
  unfold begin
  have found : (d.resumed.record c).callFaults.find?
      (fun f => some f.kind == c.kind? && f.number == (d.resumed.record c).count f.kind) =
      (d.record c).callFaults.find?
        (fun f => some f.kind == c.kind? && f.number == (d.record c).count f.kind) := rfl
  dsimp only
  rw [found]
  split
  · exact ⟨rfl, rfl⟩
  next f _ => cases f.interrupts <;> exact ⟨rfl, rfl⟩

theorem put_resumed (d : Depot) (b : Blob) :
    (d.resumed.put b).1 = (d.put b).1 ∧ (d.resumed.put b).2.resumed = (d.put b).2.resumed := by
  obtain ⟨answer, left⟩ := d.begin_resumed (.put b.digest)
  unfold put
  generalize d.resumed.begin (.put b.digest) = r₁ at answer left
  generalize d.begin (.put b.digest) = r₂ at answer left
  obtain ⟨answer₁, d₁⟩ := r₁
  obtain ⟨answer₂, d₂⟩ := r₂
  obtain rfl : answer₁ = answer₂ := answer
  have left : d₁.resumed = d₂.resumed := left
  have store := congrArg Depot.store left
  change d₁.store = d₂.store at store
  cases answer₁ with
  | none =>
      dsimp only
      rw [store]
      exact ⟨rfl, congrArg (fun d => { d with store := (d₂.store.put b).2 }) left⟩
  | some e => exact ⟨rfl, left⟩

end Depot

namespace Capture

/-- A capture whose worker is not interrupted. -/
def resumed (c : Capture) : Capture := { c with depot := c.depot.resumed }

@[simp] theorem resumed_depot (c : Capture) : c.resumed.depot = c.depot.resumed := rfl

@[simp] theorem resumed_result (c : Capture) : c.resumed.result = c.result := rfl

@[simp] theorem resumed_violations (c : Capture) : c.resumed.violations = c.violations := rfl

/-- How a part of a capture ends, apart from whether the worker is interrupted. -/
def ended : EStateM.Result ExecutionError Capture Unit → Except ExecutionError Unit × Capture
  | .ok () c => (.ok (), c.resumed)
  | .error e c => (.error e, c.resumed)

/-- A part of a capture that does not heed an interruption. -/
def Heedless (act : Capturing Unit) : Prop := ∀ c, ended (act c.resumed) = ended (act c)

theorem told_ended (r : EStateM.Result ExecutionError Capture Unit) :
    (ended r).1 = (told r).1 ∧ (ended r).2.result = (told r).2.1 ∧
      (ended r).2.depot = (told r).2.2.resumed := by
  cases r <;> exact ⟨rfl, rfl, rfl⟩

variable {settings : CaptureSettings}

theorem Heedless.bind {x y : Capturing Unit} (hx : Heedless x) (hy : Heedless y) :
    Heedless (do x; y) := by
  intro c
  have first := hx c
  rw [bind_run, bind_run]
  generalize x c.resumed = r₁ at first
  generalize x c = r₂ at first
  cases r₁ with
  | ok _ c₁ =>
      cases r₂ with
      | ok _ c₂ =>
          have same : c₁.resumed = c₂.resumed := (Prod.mk.inj first).2
          calc ended (y c₁) = ended (y c₁.resumed) := (hy c₁).symm
            _ = ended (y c₂.resumed) := by rw [same]
            _ = ended (y c₂) := hy c₂
      | error => cases (Prod.mk.inj first).1
  | error e c₁ =>
      cases r₂ with
      | ok => cases (Prod.mk.inj first).1
      | error => exact first

theorem relocateStream_heedless (raw : ActionResult → ByteArray)
    (note : Digest → ActionResult → ActionResult) :
    Heedless (relocateStream settings raw note) := by
  intro c
  rw [relocateStream_run, relocateStream_run]
  obtain ⟨answer, left⟩ := c.depot.put_resumed (.ofBytes (raw c.result))
  by_cases short : (raw c.result).size ≤ settings.inlineLimit
  · have short' : (raw c.resumed.result).size ≤ settings.inlineLimit := short
    rw [if_pos short', if_pos short]
    rfl
  · have long : ¬ (raw c.resumed.result).size ≤ settings.inlineLimit := short
    rw [if_neg long, if_neg short]
    simp only [resumed_depot, resumed_result, answer]
    generalize (c.depot.put (.ofBytes (raw c.result))).1 = answer
    cases answer with
    | ok =>
        refine Prod.ext rfl ?_
        exact congrArg (fun d => { c with
          depot := d, result := note (.ofBytes (raw c.result)) c.result }) left
    | error e =>
        refine Prod.ext rfl ?_
        exact congrArg (fun d => { c with depot := d }) left

theorem finish_heedless (action : Digest) : Heedless (finish settings action) := by
  intro c
  rw [finish_run, finish_run, resumed_violations]
  by_cases clean : c.violations = []
  · rw [if_pos clean, if_pos clean]
    exact (relocateStream_heedless _ _).bind (relocateStream_heedless _ _) c
  · rw [if_neg clean, if_neg clean]
    rfl

end Capture

namespace Depot

open Capture

variable {d : Depot} {settings : CaptureSettings} {top : FileTree} {root : FileTree.Place}
  {action : Digest} {result : ActionResult} {files directories : List String}

/-- **A capture stops when the worker is interrupted before it, if it has anything to look for.** It
then leaves the result and the depot as they are. And if it has not, it does not notice: it ends as
it would if the worker were not interrupted. -/
theorem captureOutputs_interrupted (interrupted : d.interrupted = true) :
    (d.captureOutputs settings top root action result files directories =
        (.error .interrupted, result, d) ↔ files ≠ [] ∨ directories ≠ []) ∧
    (files = [] → directories = [] →
      let run := d.captureOutputs settings top root action result files directories
      let uninterrupted :=
        d.resumed.captureOutputs settings top root action result files directories
      uninterrupted.1 = run.1 ∧ uninterrupted.2.1 = run.2.1 ∧
        uninterrupted.2.2.resumed = run.2.2.resumed) := by
  have nothing : d.captureOutputs settings top root action result [] [] =
      told (finish settings action { depot := d, result }) := by
    rw [captureOutputs_eq]
    rfl
  have nothing' : d.resumed.captureOutputs settings top root action result [] [] =
      told (finish settings action { depot := d.resumed, result }) := by
    rw [captureOutputs_eq]
    rfl
  refine ⟨⟨fun stopped => ?_, fun declared => ?_⟩, ?_⟩
  · by_contra undeclared
    obtain ⟨rfl, rfl⟩ : files = [] ∧ directories = [] := by simpa using undeclared
    rw [nothing, finish_run, if_pos rfl] at stopped
    have outcome := relocateStreams_outcome settings { depot := d, result }
    rw [stopped] at outcome
    simp at outcome
  · obtain ⟨rest, errands⟩ := FileTree.outputErrands_of_declared declared
    rw [captureOutputs_eq, errands, bind_run, runAll_of_interrupted interrupted]
    rfl
  · rintro rfl rfl
    rw [nothing, nothing']
    have same : ended (finish settings action { depot := d.resumed, result }) =
        ended (finish settings action { depot := d, result }) :=
      finish_heedless action { depot := d, result }
    obtain ⟨outcome, record, left⟩ := told_ended (finish settings action { depot := d, result })
    obtain ⟨outcome', record', left'⟩ :=
      told_ended (finish settings action { depot := d.resumed, result })
    rw [same] at outcome' record' left'
    exact ⟨outcome'.symm.trans outcome, record'.symm.trans record, left'.symm.trans left⟩

/-- A depot whose worker is interrupted. -/
def sampleStop : Depot := (ofStore (.ofLimit 0)).interrupt

/-- Captures into it stop at a declared file, and do not stop when nothing is declared. -/
theorem sampleStop_stops :
    sampleStop.captureOutputs {} .empty [] .empty sampleStreams ["a"] [] =
      (.error .interrupted, sampleStreams, sampleStop) ∧
    (sampleStop.captureOutputs {} .empty [] .empty sampleStreams [] []).1 =
      (sampleStop.resumed.captureOutputs {} .empty [] .empty sampleStreams [] []).1 := by
  have declared := @captureOutputs_interrupted sampleStop {} .empty [] .empty sampleStreams ["a"] []
    rfl
  have undeclared := @captureOutputs_interrupted sampleStop {} .empty [] .empty sampleStreams [] []
    rfl
  exact ⟨declared.1.2 (.inl (List.cons_ne_nil _ _)), (undeclared.2 rfl rfl).1.symm⟩

/-- When nothing is declared, a capture succeeds and moves the streams although the worker is
interrupted. -/
theorem sampleStop_ignored :
    (sampleStop.captureOutputs {} .empty [] .empty sampleStreams [] []).1 = .ok () ∧
    (sampleStop.captureOutputs {} .empty [] .empty sampleStreams [] []).2.1 ≠ sampleStreams ∧
    (sampleStop.captureOutputs {} .empty [] .empty sampleStreams [] []).2.2.store.blobs ≠
      sampleStop.store.blobs := by
  decide +kernel

end Depot

end BuildWorker
