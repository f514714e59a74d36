import BuildWorker.Proofs.Capture.Errands

/-!
# Standard output and error

When a capture has stored everything else, it moves standard output and error into the store if
they are too long to stay in the result. What was written to them is not lost, however the capture
ends (`Depot.captureOutputs_keeps_streams`): a stream is where it was, or it is in the store under
the digest that the result names.

All that moving a stream can do is said once (`Capture.Relocates`). It takes the stream out of the
result only when the store has taken it in, and it touches nothing else. That a stream is still in
the store when the other one has followed needs that the two have digests of their own.
-/

namespace BuildWorker

/-- A stream that an execution writes. -/
inductive StandardStream
  /-- Standard output. -/
  | output
  /-- Standard error. -/
  | error
  deriving DecidableEq, Repr

namespace StandardStream

/-- The bytes of a stream, as far as they are inline. -/
def raw : StandardStream → ActionResult → ByteArray
  | output => ActionResult.stdoutRaw
  | error => ActionResult.stderrRaw

/-- Where a stream is stored, if it is not inline. -/
def digest? : StandardStream → ActionResult → Option Digest
  | output => ActionResult.stdoutDigest
  | error => ActionResult.stderrDigest

/-- The result when a stream has been stored. -/
def note : StandardStream → Digest → ActionResult → ActionResult
  | output => fun digest r => { r with stdoutRaw := .empty, stdoutDigest := some digest }
  | error => fun digest r => { r with stderrRaw := .empty, stderrDigest := some digest }

variable {s t : StandardStream} {r r' r'' : ActionResult}

@[simp] theorem raw_note (s : StandardStream) (digest : Digest) (r : ActionResult) :
    s.raw (s.note digest r) = .empty := by
  cases s <;> rfl

@[simp] theorem digest?_note (s : StandardStream) (digest : Digest) (r : ActionResult) :
    s.digest? (s.note digest r) = some digest := by
  cases s <;> rfl

@[simp] theorem outputFiles_note (s : StandardStream) (digest : Digest) (r : ActionResult) :
    (s.note digest r).outputFiles = r.outputFiles := by
  cases s <;> rfl

@[simp] theorem outputDirectories_note (s : StandardStream) (digest : Digest) (r : ActionResult) :
    (s.note digest r).outputDirectories = r.outputDirectories := by
  cases s <;> rfl

@[simp] theorem exitCode_note (s : StandardStream) (digest : Digest) (r : ActionResult) :
    (s.note digest r).exitCode = r.exitCode := by
  cases s <;> rfl

/-- A stream is as it was. -/
structure Kept (s : StandardStream) (r r' : ActionResult) : Prop where
  raw_eq : s.raw r' = s.raw r
  digest_eq : s.digest? r' = s.digest? r

/-- A stream was too long to stay, and is now in a store. -/
structure Moved (s : StandardStream) (limit : Nat) (r r' : ActionResult) (store : Store) :
    Prop where
  long : limit < (s.raw r).size
  raw_eq : s.raw r' = .empty
  digest_eq : s.digest? r' = some (.ofBytes (s.raw r))
  stored : store.find? (.ofBytes (s.raw r)) = some (s.raw r)

theorem Kept.refl (s : StandardStream) (r : ActionResult) : s.Kept r r := ⟨rfl, rfl⟩

theorem Kept.trans (h : s.Kept r r') (h' : s.Kept r' r'') : s.Kept r r'' :=
  ⟨h'.raw_eq.trans h.raw_eq, h'.digest_eq.trans h.digest_eq⟩

theorem Kept.moved {limit : Nat} {store : Store} (h : s.Kept r r')
    (h' : s.Moved limit r' r'' store) : s.Moved limit r r'' store := by
  obtain ⟨long, raw, digest, stored⟩ := h'
  rw [h.raw_eq] at long digest stored
  exact ⟨long, raw, digest, stored⟩

/-- What was moved stays moved as long as it is in the store. -/
theorem Moved.kept {limit : Nat} {store store' : Store} (h : s.Moved limit r r' store)
    (h' : s.Kept r' r'') (stored : store'.find? (.ofBytes (s.raw r)) = some (s.raw r)) :
    s.Moved limit r r'' store' :=
  ⟨h.long, h'.raw_eq.trans h.raw_eq, h'.digest_eq.trans h.digest_eq, stored⟩

/-- What becomes of a stream that may be moved: it stays or is moved, and if nothing fails it is
moved when it is too long. -/
structure Ends (s : StandardStream) (limit : Nat) (r : ActionResult)
    (outcome : Except ExecutionError Unit) (r' : ActionResult) (store : Store) : Prop where
  either : s.Kept r r' ∨ s.Moved limit r r' store
  moved : outcome = .ok () → limit < (s.raw r).size → s.Moved limit r r' store

/-- Noting where one stream went leaves the other. -/
theorem kept_note (other : t ≠ s) (digest : Digest) (r : ActionResult) :
    t.Kept r (s.note digest r) := by
  cases s <;> cases t
  case output.error | error.output => exact ⟨rfl, rfl⟩
  all_goals exact absurd rfl other

end StandardStream

/-! ### Putting -/

theorem Store.find?_put_of_ok {s s' : Store} {b : Blob} (h : s.put b = (.ok (), s'))
    (k : Digest) : s'.find? k = if k = b.digest then some b.data else s.find? k := by
  unfold Store.put at h
  split at h
  · cases h
  · cases h
    exact s.find?_commit b.digest k b.data

theorem Store.find?_put_of_error {s s' : Store} {b : Blob} {e : StoreError}
    (h : s.put b = (.error e, s')) (k : Digest) : s'.find? k = s.find? k := by
  unfold Store.put at h
  split at h
  · cases h
    exact s.find?_record _ k
  · cases h

namespace Depot

variable {d d' : Depot} {b : Blob}

/-- A put that succeeds has put the blob into the store. -/
theorem find?_of_put (h : d.put b = (.ok (), d')) (k : Digest) :
    d'.store.find? k = if k = b.digest then some b.data else d.store.find? k := by
  have store := d.store_begin (.put b.digest)
  unfold Depot.put at h
  generalize d.begin (.put b.digest) = begun at h store
  obtain ⟨_ | e, d₁⟩ := begun
  · rw [← store]
    obtain ⟨answer, rfl⟩ := Prod.mk.inj h
    exact Store.find?_put_of_ok (Prod.ext answer rfl) k
  · cases h

/-- A put that fails leaves what is in the store, whether the store refuses the blob or the call
does not get there. -/
theorem find?_of_put_error {e : StoreError} (h : d.put b = (.error e, d')) (k : Digest) :
    d'.store.find? k = d.store.find? k := by
  have store := d.store_begin (.put b.digest)
  unfold Depot.put at h
  generalize d.begin (.put b.digest) = begun at h store
  obtain ⟨_ | e, d₁⟩ := begun
  · rw [← store]
    obtain ⟨answer, rfl⟩ := Prod.mk.inj h
    exact Store.find?_put_of_error (Prod.ext answer rfl) k
  · cases h
    exact congrArg (Store.find? · k) store

end Depot

namespace Capture

variable {settings : CaptureSettings} {s t : StandardStream} {c c' : Capture}

/-! ### Moving one stream -/

/-- All that moving a stream can do: nothing if the stream may stay, and otherwise what the store
makes of it. -/
inductive Relocates (settings : CaptureSettings) (s : StandardStream) (c : Capture) :
    EStateM.Result ExecutionError Capture Unit → Prop
  /-- The stream stays. -/
  | stays (short : (s.raw c.result).size ≤ settings.inlineLimit) : Relocates settings s c (.ok () c)
  /-- The store has taken the stream. -/
  | moves (long : settings.inlineLimit < (s.raw c.result).size) {d : Depot}
      (put : c.depot.put (.ofBytes (s.raw c.result)) = (.ok (), d)) :
      Relocates settings s c (.ok () { c with
        depot := d, result := s.note (.ofBytes (s.raw c.result)) c.result })
  /-- The store has not taken the stream, and the capture fails. -/
  | fails (long : settings.inlineLimit < (s.raw c.result).size) {d : Depot} {e : StoreError}
      (put : c.depot.put (.ofBytes (s.raw c.result)) = (.error e, d)) :
      Relocates settings s c (.error (.store e) { c with depot := d })

theorem relocateStream_relocates (settings : CaptureSettings) (s : StandardStream) (c : Capture) :
    Relocates settings s c (relocateStream settings s.raw s.note c) := by
  rw [relocateStream_run]
  by_cases short : (s.raw c.result).size ≤ settings.inlineLimit
  · rw [if_pos short]
    exact .stays short
  · rw [if_neg short]
    have long := Nat.lt_of_not_le short
    dsimp only
    generalize put : c.depot.put (.ofBytes (s.raw c.result)) = stored
    obtain ⟨_ | _, d⟩ := stored
    · exact .fails long put
    · exact .moves long put

/-- The stream itself stays or has been moved; when nothing fails, it has been moved if it was too
long. -/
theorem Relocates.own {r : EStateM.Result ExecutionError Capture Unit}
    (h : Relocates settings s c r) :
    s.Ends settings.inlineLimit c.result (told r).1 (told r).2.1 (told r).2.2.store := by
  cases h with
  | stays short => exact ⟨.inl (.refl s _), fun _ long => absurd short (Nat.not_le_of_lt long)⟩
  | fails => exact ⟨.inl (.refl s _), nofun⟩
  | moves long put =>
      have stored := Depot.find?_of_put put (.ofBytes (s.raw c.result))
      have moved : s.Moved settings.inlineLimit c.result
          (s.note (.ofBytes (s.raw c.result)) c.result) _ :=
        ⟨long, s.raw_note _ _, s.digest?_note _ _, stored.trans (if_pos rfl)⟩
      exact ⟨.inr moved, fun _ _ => moved⟩

/-- The other stream stays. -/
theorem Relocates.other {r : EStateM.Result ExecutionError Capture Unit}
    (h : Relocates settings s c r) (other : t ≠ s) : t.Kept c.result (told r).2.1 := by
  cases h with
  | stays | fails => exact .refl t _
  | moves => exact StandardStream.kept_note other _ _

/-- What does not change when a stream is noted stays. -/
theorem Relocates.apart {α : Type} {field : ActionResult → α}
    (apart : ∀ digest r, field (s.note digest r) = field r)
    {r : EStateM.Result ExecutionError Capture Unit} (h : Relocates settings s c r) :
    field (told r).2.1 = field c.result := by
  cases h with
  | stays | fails => rfl
  | moves => exact apart _ _

/-- Content in the store stays there, unless it shares its digest with the stream. -/
theorem Relocates.find? {r : EStateM.Result ExecutionError Capture Unit}
    (h : Relocates settings s c r) {data : ByteArray}
    (apart : Digest.ofBytes data = .ofBytes (s.raw c.result) → data = s.raw c.result)
    (found : c.depot.store.find? (.ofBytes data) = some data) :
    (told r).2.2.store.find? (.ofBytes data) = some data := by
  cases h with
  | stays => exact found
  | fails _ put => exact (Depot.find?_of_put_error put _).trans found
  | moves _ put =>
      refine (Depot.find?_of_put put _).trans ?_
      by_cases same : Digest.ofBytes data = .ofBytes (s.raw c.result)
      · rw [apart same]
        exact if_pos rfl
      · exact (if_neg same).trans found

theorem Relocates.outcome {r : EStateM.Result ExecutionError Capture Unit}
    (h : Relocates settings s c r) : (told r).1 = .ok () ∨ ∃ e, (told r).1 = .error (.store e) := by
  cases h with
  | stays | moves => exact .inl rfl
  | fails => exact .inr ⟨_, rfl⟩

theorem Relocates.evolves {r : EStateM.Result ExecutionError Capture Unit}
    (h : Relocates settings s c r) : c.depot.store.Evolves (told r).2.2.store := by
  have evolves := (c.depot.put_stores (s.raw c.result)).1
  cases h with
  | stays => exact .refl
  | fails _ put | moves _ put =>
      rw [put] at evolves
      exact evolves

/-! ### Moving both -/

theorem relocateStreams_eq (settings : CaptureSettings) : relocateStreams settings = (do
    relocateStream settings StandardStream.output.raw StandardStream.output.note
    relocateStream settings StandardStream.error.raw StandardStream.error.note) := rfl

/-- Standard output goes first, and standard error follows unless that has failed. -/
theorem relocateStreams_cases (settings : CaptureSettings) (c : Capture) :
    (∃ c₁, Relocates settings .output c (.ok () c₁) ∧
      Relocates settings .error c₁ (relocateStreams settings c)) ∨
    ∃ e c₁, Relocates settings .output c (.error e c₁) ∧
      relocateStreams settings c = .error e c₁ := by
  have first := relocateStream_relocates settings .output c
  rw [relocateStreams_eq, bind_run]
  generalize relocateStream settings StandardStream.output.raw StandardStream.output.note c = r
    at first
  cases r with
  | ok _ c₁ => exact .inl ⟨c₁, first, relocateStream_relocates settings .error c₁⟩
  | error e c₁ => exact .inr ⟨e, c₁, first, rfl⟩

/-- What becomes of a stream when both are moved in turn. -/
theorem relocateStreams_ends (settings : CaptureSettings)
    (distinguishes : Digest.Distinguishes [c.result.stdoutRaw, c.result.stderrRaw])
    (s : StandardStream) :
    let r := told (relocateStreams settings c)
    s.Ends settings.inlineLimit c.result r.1 r.2.1 r.2.2.store := by
  obtain ⟨c₁, first, second⟩ | ⟨e, c₁, first, stopped⟩ := relocateStreams_cases settings c
  · have untouched : StandardStream.error.Kept c.result c₁.result := first.other nofun
    generalize relocateStreams settings c = r at second
    cases s with
    | output =>
        have kept : StandardStream.output.Kept c₁.result (told r).2.1 := second.other nofun
        have still (moved : StandardStream.output.Moved settings.inlineLimit c.result c₁.result
            c₁.depot.store) : StandardStream.output.Moved settings.inlineLimit c.result
            (told r).2.1 (told r).2.2.store := by
          refine moved.kept kept (second.find? (fun same => ?_) moved.stored)
          rw [untouched.raw_eq] at same ⊢
          exact distinguishes _ (by simp [StandardStream.raw]) _ (by simp [StandardStream.raw]) same
        refine ⟨?_, fun _ long => still (first.own.moved rfl long)⟩
        rcases first.own.either with stays | moved
        · exact .inl (stays.trans kept)
        · exact .inr (still moved)
    | error =>
        refine ⟨?_, fun ok long => ?_⟩
        · rcases second.own.either with stays | moved
          · exact .inl (untouched.trans stays)
          · exact .inr (untouched.moved moved)
        · exact untouched.moved (second.own.moved ok (untouched.raw_eq ▸ long))
  · rw [stopped]
    have failed : (told (.error e c₁)).1 ≠ .ok () := nofun
    cases s with
    | output => exact first.own
    | error => exact ⟨.inl (first.other nofun), fun ok => absurd ok failed⟩

/-- What does not change when streams are noted stays, however the moving ends. -/
theorem relocateStreams_apart {α : Type} (field : ActionResult → α)
    (apart : ∀ (s : StandardStream) digest r, field (s.note digest r) = field r)
    (settings : CaptureSettings) (c : Capture) :
    field (told (relocateStreams settings c)).2.1 = field c.result := by
  obtain ⟨c₁, first, second⟩ | ⟨e, c₁, first, stopped⟩ := relocateStreams_cases settings c
  · exact (second.apart (apart .error)).trans (first.apart (apart .output))
  · rw [stopped]
    exact first.apart (apart .output)

theorem relocateStreams_evolves (settings : CaptureSettings) (c : Capture) :
    c.depot.store.Evolves (told (relocateStreams settings c)).2.2.store := by
  obtain ⟨c₁, first, second⟩ | ⟨e, c₁, first, stopped⟩ := relocateStreams_cases settings c
  · exact first.evolves.trans second.evolves
  · rw [stopped]
    exact first.evolves

/-- The end of a capture changes the streams of the result and nothing else. -/
theorem finish_apart {α : Type} (field : ActionResult → α)
    (apart : ∀ (s : StandardStream) digest r, field (s.note digest r) = field r)
    (settings : CaptureSettings) (action : Digest) (c : Capture) :
    field (told (finish settings action c)).2.1 = field c.result := by
  rw [finish_run]
  by_cases clean : c.violations = []
  · rw [if_pos clean]
    exact relocateStreams_apart field apart settings c
  · rw [if_neg clean]
    rfl

theorem relocateStreams_outcome (settings : CaptureSettings) (c : Capture) :
    (told (relocateStreams settings c)).1 = .ok () ∨
      ∃ e, (told (relocateStreams settings c)).1 = .error (.store e) := by
  obtain ⟨c₁, first, second⟩ | ⟨e, c₁, first, stopped⟩ := relocateStreams_cases settings c
  · exact second.outcome
  · rw [stopped]
    exact first.outcome

/-! ### The errands before -/

/-- No errand touches a stream, however it ends. -/
theorem Errand.run_kept (e : Errand) (c : Capture) (s : StandardStream) :
    s.Kept c.result (told (e.run settings c)).2.1 := by
  cases e with
  | check =>
      show s.Kept c.result (told (checkInterrupted c)).2.1
      rw [checkInterrupted_run]
      split <;> exact .refl s _
  | content data =>
      have same : (told ((content data).run settings c)).2.1 = c.result :=
        congrArg Prod.fst (told_reportOversized _ c)
      rw [same]
      exact .refl s _
  | tree text =>
      have same : (told ((tree text).run settings c)).2.1 = c.result :=
        congrArg Prod.fst (told_reportOversized _ c)
      rw [same]
      exact .refl s _
  | fileWasDirectory | directoryWasFile | lost | unreadable => exact .refl s _
  | file | directory => cases s <;> exact ⟨rfl, rfl⟩

theorem runAll_kept (errands : List Errand) (c : Capture) (s : StandardStream) :
    s.Kept c.result (told (runAll settings errands c)).2.1 := by
  induction errands generalizing c with
  | nil => exact .refl s _
  | cons e rest ih =>
      have first : s.Kept c.result (told (e.run settings c)).2.1 := e.run_kept c s
      rw [runAll, bind_run]
      generalize e.run settings c = r at first
      cases r with
      | ok _ c₁ => exact first.trans (ih c₁)
      | error => exact first

end Capture

namespace Depot

open Capture StandardStream

variable {d : Depot} {settings : CaptureSettings} {top : FileTree} {root : FileTree.Place}
  {action : Digest} {result : ActionResult} {files directories : List String}

/-- **What was written to standard output and error is never lost.** However a capture ends, and
whatever fails or is interrupted on the way, a stream is as it was, or it was too long to stay and
is now in the store under the digest that the result names. When the capture succeeds, the streams
that were too long have been moved and no others; when it ends with violations or is interrupted,
neither has been. -/
theorem captureOutputs_keeps_streams
    (distinguishes : Digest.Distinguishes [result.stdoutRaw, result.stderrRaw])
    {outcome : Except ExecutionError Unit} {result' : ActionResult} {d' : Depot}
    (run : d.captureOutputs settings top root action result files directories =
      (outcome, result', d')) (s : StandardStream) :
    (s.Kept result result' ∨ s.Moved settings.inlineLimit result result' d'.store) ∧
    (outcome = .ok () → (s.Moved settings.inlineLimit result result' d'.store ↔
      settings.inlineLimit < (s.raw result).size)) ∧
    ((∃ name failure, outcome = .error (.precondition name failure)) ∨
      outcome = .error .interrupted → s.Kept result result') := by
  have before (s : StandardStream) : s.Kept result (told (runAll settings
      (top.outputErrands root files directories) { depot := d, result })).2.1 :=
    runAll_kept _ { depot := d, result } s
  rw [captureOutputs_eq, bind_run] at run
  generalize runAll settings (top.outputErrands root files directories) { depot := d, result } = r
    at before run
  obtain ⟨_, c⟩ | ⟨e, c⟩ := r
  · have before (s : StandardStream) : s.Kept result c.result := before s
    dsimp only at run
    rw [finish_run] at run
    by_cases clean : c.violations = []
    · rw [if_pos clean] at run
      have streams : Digest.Distinguishes [c.result.stdoutRaw, c.result.stderrRaw] := by
        have output : c.result.stdoutRaw = result.stdoutRaw := (before .output).raw_eq
        have error : c.result.stderrRaw = result.stderrRaw := (before .error).raw_eq
        rw [output, error]
        exact distinguishes
      have ends := relocateStreams_ends settings streams s
      have told_outcome := relocateStreams_outcome settings c
      rw [run] at ends told_outcome
      refine ⟨?_, fun ok => ⟨Moved.long, fun long => ?_⟩, fun stopped => ?_⟩
      · rcases ends.either with kept | moved
        · exact .inl ((before s).trans kept)
        · exact .inr ((before s).moved moved)
      · exact (before s).moved (ends.moved ok ((before s).raw_eq ▸ long))
      · rcases told_outcome with ok | ⟨error, failed⟩ <;>
          rcases stopped with ⟨name, failure, reported⟩ | interrupted <;> simp_all
    · rw [if_neg clean] at run
      cases run
      exact ⟨.inl (before s), nofun, fun _ => before s⟩
  · cases run
    exact ⟨.inl (before s), nofun, fun _ => before s⟩

/-- A result with two bytes of standard output and three of standard error. -/
def sampleStreams : ActionResult := { stdoutRaw := "ab".toUTF8, stderrRaw := "abc".toUTF8 }

/-- Both streams are moved into a store for two bytes. -/
def sampleOverflow : Except ExecutionError Unit × ActionResult × Depot :=
  (ofStore (.ofLimit 2)).captureOutputs {} .empty [] .empty sampleStreams [] []

/-- The store takes standard output and refuses standard error, which stays in the result. -/
theorem sampleOverflow_keeps :
    sampleOverflow.1 = .error (.store (.entryLimit (.ofBytes "abc".toUTF8))) ∧
    StandardStream.output.Moved 0 sampleStreams sampleOverflow.2.1 sampleOverflow.2.2.store ∧
    StandardStream.error.Kept sampleStreams sampleOverflow.2.1 := by
  have distinguishes : Digest.Distinguishes [sampleStreams.stdoutRaw, sampleStreams.stderrRaw] :=
    Digest.distinguishes_pair (by decide +kernel)
  have run : (ofStore (.ofLimit 2)).captureOutputs {} .empty [] .empty sampleStreams [] [] =
      (sampleOverflow.1, sampleOverflow.2.1, sampleOverflow.2.2) := rfl
  have streams := captureOutputs_keeps_streams distinguishes run
  refine ⟨by decide +kernel, ?_, ?_⟩
  · rcases (streams .output).1 with kept | moved
    · exact absurd kept.raw_eq (by decide +kernel)
    · exact moved
  · rcases (streams .error).1 with kept | moved
    · exact kept
    · exact absurd moved.raw_eq (by decide +kernel)

end Depot

end BuildWorker
