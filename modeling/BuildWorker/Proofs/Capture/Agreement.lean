import BuildWorker.Proofs.Capture.Rebuild
import BuildWorker.Proofs.Capture.Running
import BuildWorker.Proofs.Files.Plain
import Mathlib.Data.Set.Defs

/-!
# A capture does not depend on what the store holds

Content that is in the store already is not written again, so captures from two stores do different
things. They come to the same all the same: the same outcome, the same record, and the same content
added to either store (`Depot.captureOutputs_agrees`). So a capture that is repeated changes
nothing.

Two runs are compared step by step (`Capture.Agree`): what an errand makes of content is told by
the limit, which the stores share, and what it adds is the same digests. Only in the end are
digests turned into contents, and that is where no two contents may share a digest.
-/

namespace BuildWorker

/-- The sizes of files are 64-bit numbers. -/
def FileTree.IsSized (top : FileTree) : Prop :=
  ∀ place content mode, top.at? place = some (.file content mode) → content.size < UInt64.size

namespace Capture

/-! ### Two captures side by side -/

/-- Two captures that differ in nothing but what their stores hold. -/
structure Alike (c₁ c₂ : Capture) : Prop where
  unscripted₁ : c₁.depot.callFaults = []
  unscripted₂ : c₂.depot.callFaults = []
  limit_eq : c₂.depot.store.limit = c₁.depot.store.limit
  result_eq : c₁.result = c₂.result
  violations_eq : c₁.violations = c₂.violations

/-- Two captures have gone on alike, and the same digests were added to their stores. -/
structure InStep (c₁ c₂ c₁' c₂' : Capture) : Prop where
  alike : Alike c₁' c₂'
  evolves₁ : c₁.depot.store.Evolves c₁'.depot.store
  evolves₂ : c₂.depot.store.Evolves c₂'.depot.store
  gains : ∃ Adds : Digest → Prop, ∀ digest,
    (c₁'.depot.store.contains digest = true ↔
      c₁.depot.store.contains digest = true ∨ Adds digest) ∧
    (c₂'.depot.store.contains digest = true ↔
      c₂.depot.store.contains digest = true ∨ Adds digest)

theorem InStep.refl {c₁ c₂ : Capture} (h : Alike c₁ c₂) : InStep c₁ c₂ c₁ c₂ :=
  ⟨h, .refl, .refl, fun _ => False, by simp⟩

theorem InStep.trans {c₁ c₂ c₁' c₂' c₁'' c₂'' : Capture} (h : InStep c₁ c₂ c₁' c₂')
    (h' : InStep c₁' c₂' c₁'' c₂'') : InStep c₁ c₂ c₁'' c₂'' := by
  obtain ⟨Adds, first⟩ := h.gains
  obtain ⟨Adds', second⟩ := h'.gains
  refine ⟨h'.alike, h.evolves₁.trans h'.evolves₁, h.evolves₂.trans h'.evolves₂,
    fun digest => Adds digest ∨ Adds' digest, fun digest => ⟨?_, ?_⟩⟩
  · rw [(second digest).1, (first digest).1, or_assoc]
  · rw [(second digest).2, (first digest).2, or_assoc]

/-- Two runs that end alike, both well or both with the same failure. -/
inductive Agree (c₁ c₂ : Capture) :
    EStateM.Result ExecutionError Capture Unit → EStateM.Result ExecutionError Capture Unit → Prop
  | ok {c₁' c₂' : Capture} (after : InStep c₁ c₂ c₁' c₂') : Agree c₁ c₂ (.ok () c₁') (.ok () c₂')
  | error {c₁' c₂' : Capture} (e : ExecutionError) (after : InStep c₁ c₂ c₁' c₂') :
      Agree c₁ c₂ (.error e c₁') (.error e c₂')

/-- Runs one after the other agree if each does. -/
theorem Agree.bind {x y : Capturing Unit} {c₁ c₂ : Capture} (h : Agree c₁ c₂ (x c₁) (x c₂))
    (rest : ∀ c₁' c₂', Alike c₁' c₂' → Agree c₁' c₂' (y c₁') (y c₂')) :
    Agree c₁ c₂ ((do x; y) c₁) ((do x; y) c₂) := by
  rw [bind_run, bind_run]
  generalize x c₁ = r₁ at h
  generalize x c₂ = r₂ at h
  cases h with
  | @ok c₁' c₂' after =>
      have second := rest c₁' c₂' after.alike
      dsimp only
      generalize y c₁' = r₁ at second
      generalize y c₂' = r₂ at second
      cases second with
      | ok after' => exact .ok (after.trans after')
      | error e after' => exact .error e (after.trans after')
  | error e after => exact .error e after

/-- Runs that agree tell the same, apart from the depots that they leave. -/
theorem Agree.told {c₁ c₂ : Capture} {r₁ r₂ : EStateM.Result ExecutionError Capture Unit}
    (h : Agree c₁ c₂ r₁ r₂) : ∃ outcome c₁' c₂', InStep c₁ c₂ c₁' c₂' ∧
      told r₁ = (outcome, c₁'.result, c₁'.depot) ∧ told r₂ = (outcome, c₂'.result, c₂'.depot) := by
  cases h with
  | ok after => exact ⟨_, _, _, after, rfl, rfl⟩
  | error e after => exact ⟨_, _, _, after, rfl, rfl⟩

section

variable {settings : CaptureSettings} {c₁ c₂ : Capture}

/-! ### The errands -/

theorem runAll_agree (alike : Alike c₁ c₂) (calm₁ : c₁.depot.Calm) (calm₂ : c₂.depot.Calm)
    (sound₁ : c₁.depot.store.Sound) (sound₂ : c₂.depot.store.Sound) {errands : List Errand}
    (sized : ∀ data, .content data ∈ errands → data.size < UInt64.size) :
    Agree c₁ c₂ (runAll settings errands c₁) (runAll settings errands c₂) := by
  obtain ⟨c₁', settled₁, run₁⟩ := runAll_settles settings calm₁ sound₁ sized
  obtain ⟨c₂', settled₂, run₂⟩ := runAll_settles settings calm₂ sound₂ sized
  have after : InStep c₁ c₂ c₁' c₂' := by
    refine ⟨⟨?_, ?_, ?_, ?_, ?_⟩, settled₁.evolves, settled₂.evolves, ?_⟩
    · exact (Prod.mk.inj settled₁.calm.script_eq).1
    · exact (Prod.mk.inj settled₂.calm.script_eq).1
    · rw [settled₂.evolves.limit_eq, settled₁.evolves.limit_eq, alike.limit_eq]
    · rw [settled₁.result_eq, settled₂.result_eq, alike.result_eq]
    · rw [settled₁.violations_eq, settled₂.violations_eq, alike.violations_eq,
        Errand.violations_congr alike.limit_eq]
    · refine ⟨_, fun digest => ⟨settled₁.contains_iff digest, ?_⟩⟩
      rw [settled₂.contains_iff]
      simp only [Errand.adds_congr alike.limit_eq]
  rw [run₁, run₂]
  split
  · exact .ok after
  next e _ => exact .error e after

/-- When the worker is interrupted neither capture does anything. -/
theorem runAll_interrupted (alike : Alike c₁ c₂) (interrupted₁ : c₁.depot.interrupted = true)
    (interrupted₂ : c₂.depot.interrupted = true) {errands : List Errand}
    (checks : errands = [] ∨ ∃ rest, errands = .check :: rest) :
    Agree c₁ c₂ (runAll settings errands c₁) (runAll settings errands c₂) := by
  rcases checks with rfl | ⟨rest, rfl⟩
  · exact .ok (.refl alike)
  · rw [runAll_of_interrupted interrupted₁, runAll_of_interrupted interrupted₂]
    exact .error _ (.refl alike)

/-! ### The end of a capture -/

/-- Content that is put into both stores. -/
theorem Alike.put (alike : Alike c₁ c₂) {b : Blob} {data : ByteArray} (own : b = .ofBytes data)
    (result : ActionResult) :
    (c₁.depot.put b).1 = (c₂.depot.put b).1 ∧
    InStep c₁ c₂ { c₁ with depot := (c₁.depot.put b).2, result }
      { c₂ with depot := (c₂.depot.put b).2, result } := by
  rw [Depot.put_of_nil alike.unscripted₁, Depot.put_of_nil alike.unscripted₂]
  have limits := Store.exceedsLimit_congr alike.limit_eq
  have evolves (s : Store) : s.Evolves (s.put b).2 := own ▸ .single (.put s data)
  refine ⟨?_, ⟨alike.unscripted₁, alike.unscripted₂, ?_, rfl, alike.violations_eq⟩, evolves _,
    evolves _, ?_⟩
  · rw [Store.put_fst, Store.put_fst, limits]
  · show ((c₂.depot.store.put b).2).limit = ((c₁.depot.store.put b).2).limit
    rw [(evolves _).limit_eq, (evolves _).limit_eq, alike.limit_eq]
  · refine ⟨_, fun digest => ⟨Store.contains_put_iff, ?_⟩⟩
    rw [← limits]
    exact Store.contains_put_iff

theorem relocateStream_agree (alike : Alike c₁ c₂) (raw : ActionResult → ByteArray)
    (note : Digest → ActionResult → ActionResult) :
    Agree c₁ c₂ (relocateStream settings raw note c₁) (relocateStream settings raw note c₂) := by
  rw [relocateStream_run, relocateStream_run, ← alike.result_eq]
  by_cases short : (raw c₁.result).size ≤ settings.inlineLimit
  · rw [if_pos short, if_pos short]
    exact .ok (.refl alike)
  · rw [if_neg short, if_neg short]
    generalize own : Blob.ofBytes (raw c₁.result) = b
    have put := alike.put own.symm
    dsimp only
    rw [← (put c₁.result).1]
    generalize (c₁.depot.put b).1 = answer
    cases answer with
    | ok => exact .ok (put _).2
    | error e => exact .error _ (put _).2

theorem finish_agree (alike : Alike c₁ c₂) (action : Digest) :
    Agree c₁ c₂ (finish settings action c₁) (finish settings action c₂) := by
  rw [finish_run, finish_run, ← alike.violations_eq]
  by_cases clean : c₁.violations = []
  · rw [if_pos clean, if_pos clean]
    exact .bind (relocateStream_agree alike _ _) fun _ _ alike => relocateStream_agree alike _ _
  · rw [if_neg clean, if_neg clean]
    exact .error _ (.refl alike)

end

end Capture

open Capture

namespace FileTree

theorem IsSized.size_lt {top : FileTree} (h : top.IsSized) {root : Place}
    {files directories : List String} {data : ByteArray}
    (mem : .content data ∈ top.outputErrands root files directories) :
    data.size < UInt64.size := by
  obtain ⟨place, path, there, mode, found⟩ := found_of_mem_outputErrands mem
  rcases find_at? found with empty | found
  · cases empty
  · exact h there data mode found

end FileTree

/-! ### What is added to the stores -/

section

variable {contents : List ByteArray} (distinguishes : Digest.Distinguishes contents)
include distinguishes

/-- Under a digest that is in two sound stores there is the same content. -/
theorem Store.Sound.find?_eq {s t : Store} (hs : s.Sound) (ht : t.Sound)
    (fromS : ∀ b ∈ s.blobs, b.2 ∈ contents) (fromT : ∀ b ∈ t.blobs, b.2 ∈ contents)
    {digest : Digest} {data : ByteArray} (found : s.find? digest = some data)
    (there : t.contains digest = true) : t.find? digest = some data := by
  obtain ⟨other, found'⟩ := contains_iff.1 there
  have same : other = data := by
    apply distinguishes _ (fromT _ (mem_of_find? found')) _ (fromS _ (mem_of_find? found))
    rw [ht.ofBytes_of_find? found', hs.ofBytes_of_find? found]
  rw [found', same]

/-- A store to which digests were added has had their contents added, as some store tells them. -/
theorem Store.find?_iff_of_gains {s t u : Store} (hs : s.Sound) (ht : t.Sound) (hu : u.Sound)
    (fromS : ∀ b ∈ s.blobs, b.2 ∈ contents) (fromT : ∀ b ∈ t.blobs, b.2 ∈ contents)
    (fromU : ∀ b ∈ u.blobs, b.2 ∈ contents) {Adds : Digest → Prop}
    (gains : ∀ digest, t.contains digest = true ↔ s.contains digest = true ∨ Adds digest)
    (added : ∀ digest, Adds digest → u.contains digest = true) (digest : Digest)
    (data : ByteArray) :
    t.find? digest = some data ↔
      s.find? digest = some data ∨ Adds digest ∧ u.find? digest = some data := by
  constructor
  · intro found
    rcases (gains digest).1 (contains_iff.2 ⟨data, found⟩) with there | adds
    · exact .inl (ht.find?_eq distinguishes hs fromT fromS found there)
    · exact .inr ⟨adds, ht.find?_eq distinguishes hu fromT fromU found (added digest adds)⟩
  · rintro (found | ⟨adds, found⟩)
    · have there := (gains digest).2 (.inl (contains_iff.2 ⟨data, found⟩))
      exact hs.find?_eq distinguishes ht fromS fromT found there
    · exact hu.find?_eq distinguishes ht fromU fromT found ((gains digest).2 (.inr adds))

end

namespace Depot

variable {d₁ d₂ : Depot} {settings : CaptureSettings} {top : FileTree} {root : FileTree.Place}
  {action : Digest} {result : ActionResult} {files directories : List String}

/-- **A capture does not depend on what the store holds.** From two stores with one limit, captures
of the same disk end with the same outcome and the same result. Unless different contents share a
digest, the same contents are added to both stores; and when the second store is what the first
capture left, nothing is added to it. -/
theorem captureOutputs_agrees (reachable₁ : d₁.store.Reachable) (reachable₂ : d₂.store.Reachable)
    (limit : d₁.store.limit = d₂.store.limit) (unscripted₁ : d₁.script = ([], []))
    (unscripted₂ : d₂.script = ([], [])) (interrupted : d₁.interrupted = d₂.interrupted)
    (sized : top.IsSized) {outcome₁ outcome₂ : Except ExecutionError Unit}
    {result₁ result₂ : ActionResult} {d₁' d₂' : Depot}
    (run₁ : d₁.captureOutputs settings top root action result files directories =
      (outcome₁, result₁, d₁'))
    (run₂ : d₂.captureOutputs settings top root action result files directories =
      (outcome₂, result₂, d₂')) :
    outcome₁ = outcome₂ ∧ result₁ = result₂ ∧
    (Digest.Distinguishes ((d₁.store.blobs ++ d₂.store.blobs ++ d₁'.store.blobs ++
        d₂'.store.blobs).map Prod.snd) →
      ∃ stored : Set (Digest × ByteArray),
        (∀ digest data, d₁'.store.find? digest = some data ↔
          d₁.store.find? digest = some data ∨ (digest, data) ∈ stored) ∧
        (∀ digest data, d₂'.store.find? digest = some data ↔
          d₂.store.find? digest = some data ∨ (digest, data) ∈ stored) ∧
        (d₂.store = d₁'.store → d₂'.store.find? = d₂.store.find?)) := by
  have alike : Alike { depot := d₁, result } { depot := d₂, result } :=
    ⟨(Prod.mk.inj unscripted₁).1, (Prod.mk.inj unscripted₂).1, limit.symm, rfl, rfl⟩
  have errands : Agree { depot := d₁, result } { depot := d₂, result }
      (runAll settings (top.outputErrands root files directories) { depot := d₁, result })
      (runAll settings (top.outputErrands root files directories) { depot := d₂, result }) := by
    cases stopped : d₂.interrupted with
    | true =>
        exact runAll_interrupted alike (interrupted.trans stopped) stopped
          FileTree.outputErrands_checks
    | false =>
        exact runAll_agree alike ⟨unscripted₁, interrupted.trans stopped⟩ ⟨unscripted₂, stopped⟩
          reachable₁.sound reachable₂.sound fun data mem => sized.size_lt mem
  obtain ⟨outcome, c₁, c₂, after, told₁, told₂⟩ :=
    (errands.bind fun _ _ alike => finish_agree alike action).told
  rw [captureOutputs_eq, told₁] at run₁
  rw [captureOutputs_eq, told₂] at run₂
  cases run₁
  cases run₂
  refine ⟨rfl, after.alike.result_eq, fun distinguishes => ?_⟩
  obtain ⟨Adds, gains⟩ := after.gains
  have sound₁ := after.evolves₁.sound reachable₁.sound
  have sound₂ := after.evolves₂.sound reachable₂.sound
  have added (digest : Digest) (adds : Adds digest) :
      c₁.depot.store.contains digest = true := (gains digest).1.2 (.inr adds)
  simp only [List.map_append, List.append_assoc] at distinguishes
  have mem {blobs : List (Digest × ByteArray)} (b : Digest × ByteArray) (h : b ∈ blobs) :
      b.2 ∈ blobs.map Prod.snd := List.mem_map_of_mem h
  -- What is under the digests that were added is told by the first store.
  have union₁ := Store.find?_iff_of_gains distinguishes reachable₁.sound sound₁ sound₁
    (fun b h => by simp [mem b h]) (fun b h => by simp [mem b h]) (fun b h => by simp [mem b h])
    (fun digest => (gains digest).1) added
  have union₂ := Store.find?_iff_of_gains distinguishes reachable₂.sound sound₂ sound₁
    (fun b h => by simp [mem b h]) (fun b h => by simp [mem b h]) (fun b h => by simp [mem b h])
    (fun digest => (gains digest).2) added
  refine ⟨{p | Adds p.1 ∧ c₁.depot.store.find? p.1 = some p.2}, union₁, union₂, fun same => ?_⟩
  funext digest
  apply Option.ext
  intro data
  rw [union₂, same]
  exact or_iff_left_of_imp And.right

/-- A depot that has the content of the file, but not the tree of the directory. -/
def sampleFilled : Depot := ofStore ((Store.ofLimit 0).put (.ofBytes sampleContent)).2

/-- The file and the directory are captured into it. -/
def sampleRerun : Except ExecutionError Unit × ActionResult × Depot :=
  sampleFilled.captureOutputs {} sampleDisk [] .empty {} ["o/a"] ["o"]

theorem sampleDisk_sized : sampleDisk.IsSized := by
  intro place content mode found
  have mem : content ∈ [sampleContent] := FileTree.mem_contents_of_at? found
  rw [List.mem_singleton.1 mem]
  decide +kernel

theorem sampleRerun_stores : sampleFilled.store.blobs.map Prod.snd = [sampleContent] ∧
    sampleRerun.2.2.store.blobs.map Prod.snd =
      [sampleContent, Message.encode sampleDirectory.walked.tree] := by
  decide +kernel

theorem sampleRerun_agrees : sampleRun.1 = sampleRerun.1 ∧ sampleRun.2.1 = sampleRerun.2.1 ∧
    ∃ stored : Set (Digest × ByteArray),
      (∀ digest data, sampleRun.2.2.store.find? digest = some data ↔ (digest, data) ∈ stored) ∧
      ∀ digest data, sampleRerun.2.2.store.find? digest = some data ↔
        sampleFilled.store.find? digest = some data ∨ (digest, data) ∈ stored := by
  have parts (run : Except ExecutionError Unit × ActionResult × Depot) :
      run = (run.1, run.2.1, run.2.2) := rfl
  have reachable₁ : (ofStore (.ofLimit 0)).store.Reachable := ⟨0, .refl⟩
  have reachable₂ : sampleFilled.store.Reachable := ⟨0, .single (.put _ sampleContent)⟩
  obtain ⟨outcome, result, agrees⟩ :=
    captureOutputs_agrees reachable₁ reachable₂ rfl rfl rfl rfl sampleDisk_sized (parts sampleRun)
      (parts sampleRerun)
  have distinguishes : Digest.Distinguishes
      (((ofStore (.ofLimit 0)).store.blobs ++ sampleFilled.store.blobs ++
        sampleRun.2.2.store.blobs ++ sampleRerun.2.2.store.blobs).map Prod.snd) := by
    have pair : Digest.Distinguishes [sampleContent, Message.encode sampleDirectory.walked.tree] :=
      Digest.distinguishes_pair (by decide +kernel)
    refine pair.mono fun text mem => ?_
    obtain ⟨filled, rerun⟩ := sampleRerun_stores
    rw [List.map_append, List.map_append, List.map_append, filled, sampleRun_stores.2, rerun] at mem
    rcases List.mem_append.1 mem with mem | mem
    · rcases List.mem_append.1 mem with mem | mem
      · exact List.mem_cons.2 (.inl (List.mem_singleton.1 mem))
      · exact mem
    · exact mem
  obtain ⟨stored, union₁, union₂, -⟩ := agrees distinguishes
  have new (digest : Digest) (data : ByteArray) :
      ¬(ofStore (.ofLimit 0)).store.find? digest = some data :=
    fun found => Option.some_ne_none data found.symm
  exact ⟨outcome, result, stored, fun digest data => (union₁ digest data).trans
    (or_iff_right (new digest data)), union₂⟩

end Depot

end BuildWorker
