import BuildWorker.Proofs.Capture.Errands
import BuildWorker.Proofs.Capture.Streaming

/-!
# Running errands

An errand that stores content either does so or reports the content as too large, and which of the
two is told by the limit of the store. So errands that were run have done what the disk and the
limit say (`Capture.Ran`), whatever was in the store before.

However errands end, no write session stays held (`Depot.captureOutputs_frame`).
-/

namespace BuildWorker

/-- What is made of content when it is stored under its digest. -/
structure Depot.Stores (d : Depot) (digest : Digest) (r : Except ExecutionError Unit × Depot) :
    Prop where
  evolves : d.store.Evolves r.2.store
  script_eq : r.2.script = d.script
  stored : r.1 = .ok () → digest.isEmpty = true ∨ r.2.store.contains digest = true
  refuses : ∀ e, r.1 = .error e → e.Refuses d.store digest

namespace Depot

theorem Honest.insert_stores {d : Depot} (h : d.Honest) (deadline : Nat) (content : ByteArray) :
    d.Stores (.ofBytes content) (d.insert deadline (.ofBytes content) content) := by
  obtain ⟨evolves, stored⟩ := d.insert_stores deadline content
  exact ⟨evolves, congrArg Prod.fst (d.frame_insert ..), stored, fun _ => h.insert_refuses⟩

theorem Honest.put_stores {d : Depot} (h : d.Honest) (data : ByteArray) :
    d.Stores (.ofBytes data)
      ((d.put (.ofBytes data)).1.mapError .store, (d.put (.ofBytes data)).2) := by
  obtain ⟨evolves, stored⟩ := d.put_stores data
  have answer : (d.put (.ofBytes data)).1 = (d.store.put (.ofBytes data)).1 :=
    congrArg Prod.fst (h.put_eq _)
  refine ⟨evolves, congrArg Prod.fst (d.frame_put _), fun ok => .inr (stored ?_),
    fun e failed => ?_⟩
  · generalize (d.put (.ofBytes data)).1 = answer at ok
    cases answer with
    | ok => rfl
    | error => cases ok
  · rw [answer] at failed
    unfold Store.put at failed
    split at failed
    next excess =>
      cases failed
      exact .oversized excess
    next => cases failed

end Depot

namespace Capture

section

variable {settings : CaptureSettings}

/-- Content is stored, or reported as too large; the first exactly if it is not too large. -/
theorem reportOversized_ends {f : Depot → Except ExecutionError Unit × Depot} {digest : Digest}
    {c : Capture} (sound : c.depot.store.Sound) (stores : c.depot.Stores digest (f c.depot)) :
    match reportOversized (atDepot f) c with
    | .ok () c' => c' = { c with
          depot := (f c.depot).2
          violations := c.violations ++
            if c.depot.store.exceedsLimit digest then [.oversized digest] else [] } ∧
        (digest.isEmpty = false → c.depot.store.exceedsLimit digest = false →
          c'.depot.store.contains digest = true)
    | .error e _ => ∀ action failure, e ≠ .precondition action failure := by
  rw [reportOversized_run, atDepot_run]
  have after := stores.evolves.sound sound
  have limit := stores.evolves.exceedsLimit digest
  obtain ⟨-, -, stored, refuses⟩ := stores
  generalize f c.depot = r at after limit stored refuses
  obtain ⟨_ | e, d⟩ := r
  · cases refuses _ rfl with
    | oversized excess =>
        refine ⟨?_, fun _ within => ?_⟩
        · rw [if_pos excess]
        · rw [excess] at within
          cases within
    | interrupted => nofun
    | io => nofun
  · have within : c.depot.store.exceedsLimit digest = false := by
      rcases stored rfl with empty | there
      · exact Store.exceedsLimit_of_isEmpty _ empty
      · rw [← limit]
        by_contra excess
        rw [after.absent (Bool.not_eq_false _ ▸ excess)] at there
        cases there
    refine ⟨?_, fun filled _ => ?_⟩
    · rw [within]
      simp
    · rcases stored rfl with empty | there
      · rw [filled] at empty
        cases empty
      · exact there

/-! ### The errands of a capture -/

/-- The violations that an errand reports. -/
def Errand.violations (s : Store) : Errand → List Violation
  | content data | tree data =>
    if s.exceedsLimit (.ofBytes data) then [.oversized (.ofBytes data)] else []
  | fileWasDirectory path => [.fileWasDirectory path]
  | directoryWasFile path => [.directoryWasFile path]
  | _ => []

theorem Errand.violations_congr {s t : Store} (limit : t.limit = s.limit) :
    Errand.violations t = Errand.violations s := by
  funext e
  cases e <;> simp only [violations, Store.exceedsLimit_congr limit]

/-- A result with the records that errands make. -/
def recordAll (errands : List Errand) (r : ActionResult) : ActionResult :=
  { r with
    outputFiles := r.outputFiles ++ errands.filterMap Errand.file?
    outputDirectories := r.outputDirectories ++ errands.filterMap Errand.directory? }

theorem recordAll_append (these those : List Errand) (r : ActionResult) :
    recordAll (these ++ those) r = recordAll those (recordAll these r) := by
  simp only [recordAll, List.filterMap_append, List.append_assoc]

theorem recordAll_of_none {e : Errand} (files : e.file? = none) (directories : e.directory? = none)
    (r : ActionResult) : recordAll [e] r = r := by
  simp [recordAll, files, directories]

/-- What errands that were run have done. -/
structure Ran (c c' : Capture) (errands : List Errand) : Prop where
  evolves : c.depot.store.Evolves c'.depot.store
  script_eq : c'.depot.script = c.depot.script
  result_eq : c'.result = recordAll errands c.result
  violations_eq : c'.violations = c.violations ++ errands.flatMap (Errand.violations c.depot.store)
  /-- Content that is neither empty nor too large is stored. -/
  stored : ∀ digest ∈ FileTree.digestsOf errands, digest.isEmpty = false →
    c.depot.store.exceedsLimit digest = false → c'.depot.store.contains digest = true

theorem Ran.nil (c : Capture) : Ran c c [] := by
  refine ⟨.refl, rfl, ?_, ?_, nofun⟩
  · simp [recordAll]
  · simp

/-- An errand that leaves the depot. -/
theorem Ran.of_depot {c c' : Capture} {e : Errand} (depot : c'.depot = c.depot)
    (result : c'.result = recordAll [e] c.result)
    (violations : c'.violations = c.violations ++ e.violations c.depot.store)
    (nothing : FileTree.digestsOf [e] = []) : Ran c c' [e] := by
  refine ⟨depot ▸ .refl, congrArg Depot.script depot, result, ?_, ?_⟩
  · rw [violations, List.flatMap_singleton]
  · intro digest mem
    rw [nothing] at mem
    cases mem

theorem Ran.cons {c c' c'' : Capture} {e : Errand} {rest : List Errand} (h : Ran c c' [e])
    (h' : Ran c' c'' rest) : Ran c c'' (e :: rest) := by
  refine ⟨h.evolves.trans h'.evolves, h'.script_eq.trans h.script_eq, ?_, ?_, ?_⟩
  · rw [h'.result_eq, h.result_eq, ← recordAll_append]
    rfl
  · rw [h'.violations_eq, h.violations_eq, Errand.violations_congr h.evolves.limit_eq,
      List.append_assoc, ← List.flatMap_append]
    rfl
  · intro digest mem filled within
    rw [← List.singleton_append, FileTree.digestsOf_append] at mem
    rcases List.mem_append.1 mem with mem | mem
    · exact h'.evolves.contains (h.stored digest mem filled within)
    · exact h'.stored digest mem filled ((h.evolves.exceedsLimit digest).trans within)

/-- How an errand ends: it has been run, or it failed with something else than violations. -/
def Ends (c : Capture) (errands : List Errand) : EStateM.Result ExecutionError Capture Unit → Prop
  | .ok () c' => Ran c c' errands
  | .error e _ => ∀ action failure, e ≠ .precondition action failure

/-- An errand that stores content ends as the storing does. -/
theorem Ends.of_stores {c : Capture} (sound : c.depot.store.Sound) {e : Errand} {digest : Digest}
    {f : Depot → Except ExecutionError Unit × Depot} (stores : c.depot.Stores digest (f c.depot))
    (files : e.file? = none) (directories : e.directory? = none)
    (digests : FileTree.digestsOf [e] = [digest])
    (violations : e.violations c.depot.store =
      if c.depot.store.exceedsLimit digest then [.oversized digest] else []) :
    Ends c [e] (reportOversized (atDepot f) c) := by
  have ends := reportOversized_ends sound stores
  generalize reportOversized (atDepot f) c = r at ends
  obtain ⟨_, c'⟩ | ⟨error, c'⟩ := r
  · obtain ⟨rfl, stored⟩ := ends
    refine ⟨stores.evolves, stores.script_eq, ?_, ?_, ?_⟩
    · exact (recordAll_of_none files directories _).symm
    · rw [List.flatMap_singleton, violations]
    · intro other mem
      rw [digests, List.mem_singleton] at mem
      rw [mem]
      exact stored
  · exact ends

theorem Errand.run_ends {c : Capture} (honest : c.depot.Honest) (sound : c.depot.store.Sound)
    (e : Errand) : Ends c [e] (e.run settings c) := by
  cases e with
  | check =>
      show Ends c [check] (checkInterrupted c)
      rw [checkInterrupted_run]
      split
      · rintro _ _ ⟨⟩
      · exact .of_depot rfl (recordAll_of_none rfl rfl _).symm (List.append_nil _).symm rfl
  | content data =>
      exact .of_stores sound (honest.insert_stores settings.writeDeadline data) rfl rfl rfl rfl
  | tree text => exact .of_stores sound (honest.put_stores text) rfl rfl rfl rfl
  | fileWasDirectory | directoryWasFile =>
      exact .of_depot rfl (recordAll_of_none rfl rfl _).symm rfl rfl
  | file | directory =>
      refine .of_depot rfl ?_ (List.append_nil _).symm rfl
      simp [recordAll, file?, directory?]
  | lost | unreadable => rintro _ _ ⟨⟩

theorem runAll_ends {c : Capture} (honest : c.depot.Honest) (sound : c.depot.store.Sound)
    (errands : List Errand) : Ends c errands (runAll settings errands c) := by
  induction errands generalizing c with
  | nil => exact .nil c
  | cons e rest ih =>
      have first : Ends c [e] (e.run settings c) := e.run_ends honest sound
      rw [runAll, bind_run]
      generalize e.run settings c = r at first
      obtain ⟨_, c'⟩ | ⟨error, c'⟩ := r
      · have first : Ran c c' [e] := first
        have second := @ih c' (honest.of_script first.script_eq) (first.evolves.sound sound)
        dsimp only
        generalize runAll settings rest c' = r at second
        obtain ⟨_, c''⟩ | ⟨error, c''⟩ := r
        · exact first.cons second
        · exact second
      · exact first

theorem Errand.mem_violations {s : Store} {e : Errand} {v : Violation} :
    v ∈ e.violations s ∧ v.kind = .missing ↔
      ∃ data, e.stored? = some data ∧ s.exceedsLimit (.ofBytes data) = true ∧
        v = .oversized (.ofBytes data) := by
  have storing (data : ByteArray) : v ∈ (if s.exceedsLimit (.ofBytes data) then
      [Violation.oversized (.ofBytes data)] else []) ∧ v.kind = .missing ↔
      ∃ other, some data = some other ∧ s.exceedsLimit (.ofBytes other) = true ∧
        v = .oversized (.ofBytes other) := by
    constructor
    · rintro ⟨mem, -⟩
      split at mem
      next excess => exact ⟨data, rfl, excess, List.mem_singleton.1 mem⟩
      next => cases mem
    · rintro ⟨_, ⟨⟩, excess, rfl⟩
      rw [if_pos excess]
      exact ⟨List.mem_singleton_self _, rfl⟩
  cases e with
  | content data | tree data => exact storing data
  | fileWasDirectory | directoryWasFile =>
      simp only [violations, stored?, List.mem_singleton]
      constructor
      · rintro ⟨rfl, ⟨⟩⟩
      · rintro ⟨_, ⟨⟩, _⟩
  | check | file | directory | lost | unreadable => simp [violations, stored?]

/-- What is reported as missing is what was too large to be stored. -/
theorem mem_violations {s : Store} {errands : List Errand} {v : Violation} :
    v ∈ errands.flatMap (Errand.violations s) ∧ v.kind = .missing ↔
      ∃ digest ∈ FileTree.digestsOf errands, s.exceedsLimit digest = true ∧
        v = .oversized digest := by
  simp only [FileTree.digestsOf, List.mem_flatMap, List.mem_map, List.mem_filterMap]
  constructor
  · rintro ⟨⟨e, mem, reported⟩, missing⟩
    obtain ⟨data, stored, excess, same⟩ := Errand.mem_violations.1 ⟨reported, missing⟩
    exact ⟨_, ⟨data, ⟨e, mem, stored⟩, rfl⟩, excess, same⟩
  · rintro ⟨_, ⟨data, ⟨e, mem, stored⟩, rfl⟩, excess, same⟩
    obtain ⟨reported, missing⟩ := Errand.mem_violations.2 ⟨data, stored, excess, same⟩
    exact ⟨⟨e, mem, reported⟩, missing⟩

/-! ### Errands in a calm depot -/

/-- What an errand fails with, whatever there is in the depot. -/
def Errand.failure? : Errand → Option ExecutionError
  | lost e => some (.io e.toIo)
  | unreadable => some (.content (.io (.system .other)))
  | _ => none

@[simp] theorem Errand.failure?_check : check.failure? = none := rfl

@[simp] theorem Errand.failure?_content (data : ByteArray) : (content data).failure? = none := rfl

theorem Errand.run_of_failure {e : Errand} {error : ExecutionError} (h : e.failure? = some error)
    (c : Capture) : e.run settings c = .error error c := by
  cases e with
  | lost | unreadable =>
      cases h
      rfl
  | check | content | tree | fileWasDirectory | directoryWasFile | file | directory => cases h

/-- That an errand adds a digest to a store. -/
def Errand.Adds (s : Store) (digest : Digest) : Errand → Prop
  | content data =>
    digest = .ofBytes data ∧ digest.isEmpty = false ∧ s.exceedsLimit digest = false
  | tree text => digest = .ofBytes text ∧ s.exceedsLimit digest = false
  | _ => False

/-- What errands that were run in a calm depot have done. -/
structure Settled (c c' : Capture) (errands : List Errand) : Prop extends Ran c c' errands where
  calm : c'.depot.Calm
  contains_iff : ∀ digest, c'.depot.store.contains digest = true ↔
    c.depot.store.contains digest = true ∨ ∃ e ∈ errands, e.Adds c.depot.store digest

/-- What is made of content in a calm depot when it is stored, adding some digests. -/
structure Settles (d : Depot) (digest : Digest) (Adds : Digest → Prop)
    (r : Except ExecutionError Unit × Depot) : Prop where
  calm : r.2.Calm
  answer : r.1 = .ok () ∨ r.1 = .error (.store (.entryLimit digest))
  contains_iff : ∀ other,
    r.2.store.contains other = true ↔ d.store.contains other = true ∨ Adds other

theorem insert_settles {d : Depot} (calm : d.Calm) (deadline : Nat)
    {content : ByteArray} (sized : content.size < UInt64.size) {digest : Digest}
    (own : Digest.ofBytes content = digest) :
    Settles d digest (fun other => other = digest ∧ other.isEmpty = false ∧
      d.store.exceedsLimit other = false) (d.insert deadline digest content) := by
  by_cases empty : digest.isEmpty = true
  · obtain ⟨d', eq, store, calm'⟩ := calm.insert_present deadline content (.inl empty)
    rw [eq]
    refine ⟨calm', .inl rfl, fun other => ?_⟩
    rw [store]
    simp +contextual [empty]
  have filled := Bool.eq_false_iff.2 empty
  by_cases there : d.store.contains digest = true
  · obtain ⟨d', eq, store, calm'⟩ := calm.insert_present deadline content (.inr there)
    rw [eq]
    refine ⟨calm', .inl rfl, fun other => ?_⟩
    rw [store]
    simp +contextual [there]
  · obtain ⟨d', eq, store, calm'⟩ :=
      calm.insert_absent deadline content sized own filled (Bool.eq_false_iff.2 there)
    rw [eq]
    refine ⟨calm', ?_, fun other => ?_⟩
    · rw [Store.put_fst]
      split
      · exact .inr rfl
      · exact .inl rfl
    · rw [store, Store.contains_put_iff]
      constructor
      · rintro (stored | ⟨rfl, within⟩)
        · exact .inl stored
        · exact .inr ⟨rfl, filled, within⟩
      · rintro (stored | ⟨rfl, -, within⟩)
        · exact .inl stored
        · exact .inr ⟨rfl, within⟩

theorem put_settles {d : Depot} (calm : d.Calm) (b : Blob) :
    Settles d b.digest (fun other => other = b.digest ∧ d.store.exceedsLimit other = false)
      ((d.put b).1.mapError .store, (d.put b).2) := by
  rw [Depot.put_of_nil (Prod.mk.inj calm.script_eq).1]
  refine ⟨⟨calm.script_eq, calm.uninterrupted⟩, ?_, fun other => ?_⟩
  · rw [Store.put_fst]
    split
    · exact .inr rfl
    · exact .inl rfl
  · exact Store.contains_put_iff

/-- Storing that settles what becomes of some content is no failure of the capture. -/
theorem Settles.run {c : Capture} {digest : Digest} {Adds : Digest → Prop}
    {f : Depot → Except ExecutionError Unit × Depot} (h : Settles c.depot digest Adds (f c.depot)) :
    ∃ c', reportOversized (atDepot f) c = .ok () c' ∧ c'.depot.Calm ∧ ∀ other,
      c'.depot.store.contains other = true ↔
        c.depot.store.contains other = true ∨ Adds other := by
  rw [reportOversized_run, atDepot_run]
  rcases h.answer with answer | answer
  · rw [answer]
    exact ⟨_, rfl, h.calm, h.contains_iff⟩
  · rw [answer]
    exact ⟨_, rfl, h.calm, h.contains_iff⟩

theorem Errand.run_settles {c : Capture} (calm : c.depot.Calm) (sound : c.depot.store.Sound)
    {e : Errand} (sized : ∀ data, e = .content data → data.size < UInt64.size)
    (fine : e.failure? = none) : ∃ c', e.run settings c = .ok () c' ∧ Settled c c' [e] := by
  have ends : Ends c [e] (e.run settings c) := e.run_ends calm.honest sound
  -- It remains to see that the errand does not fail, and what it adds to the store.
  suffices ∃ c', e.run settings c = .ok () c' ∧ c'.depot.Calm ∧ ∀ digest,
      c'.depot.store.contains digest = true ↔
        c.depot.store.contains digest = true ∨ e.Adds c.depot.store digest by
    obtain ⟨c', run, calm', contains_iff⟩ := this
    rw [run] at ends
    refine ⟨c', run, ends, calm', ?_⟩
    simpa using contains_iff
  have same {c' : Capture} (depot : c'.depot = c.depot) {e : Errand}
      (nothing : ∀ digest, ¬ e.Adds c.depot.store digest) :
      c'.depot.Calm ∧ ∀ digest, c'.depot.store.contains digest = true ↔
        c.depot.store.contains digest = true ∨ e.Adds c.depot.store digest := by
    rw [depot]
    exact ⟨calm, fun digest => (or_iff_left (nothing digest)).symm⟩
  cases e with
  | check =>
      refine ⟨c, ?_, same rfl fun _ => id⟩
      show checkInterrupted c = _
      rw [checkInterrupted_run, if_neg (ne_true_of_eq_false calm.uninterrupted)]
  | content data =>
      exact Settles.run (f := fun d => d.insert settings.writeDeadline (.ofBytes data) data)
        (insert_settles calm settings.writeDeadline (sized data rfl) rfl)
  | tree text =>
      exact Settles.run
        (f := fun d => ((d.put (.ofBytes text)).1.mapError .store, (d.put (.ofBytes text)).2))
        (put_settles calm (.ofBytes text))
  | fileWasDirectory | directoryWasFile | file | directory =>
      exact ⟨_, rfl, same rfl fun _ => id⟩
  | lost | unreadable => cases fine

theorem Settled.nil {c : Capture} (calm : c.depot.Calm) : Settled c c [] :=
  ⟨.nil c, calm, by simp⟩

theorem Errand.adds_congr {s t : Store} (limit : t.limit = s.limit) (digest : Digest)
    (e : Errand) : e.Adds t digest ↔ e.Adds s digest := by
  cases e <;> simp only [Adds, Store.exceedsLimit_congr limit]

theorem Settled.cons {c c' c'' : Capture} {e : Errand} {rest : List Errand} (h : Settled c c' [e])
    (h' : Settled c' c'' rest) : Settled c c'' (e :: rest) := by
  refine ⟨h.toRan.cons h'.toRan, h'.calm, fun digest => ?_⟩
  rw [h'.contains_iff, h.contains_iff]
  simp only [Errand.adds_congr h.evolves.limit_eq, List.mem_singleton, exists_eq_left,
    List.exists_mem_cons_iff, or_assoc]

variable (settings) in
/-- **A capture into a calm depot does its errands**, up to the first for which the disk is to
blame. -/
theorem runAll_settles {c : Capture} (calm : c.depot.Calm) (sound : c.depot.store.Sound)
    {errands : List Errand}
    (sized : ∀ data, .content data ∈ errands → data.size < UInt64.size) :
    ∃ c', Settled c c' (errands.takeWhile (·.failure?.isNone)) ∧
      runAll settings errands c = match errands.findSome? Errand.failure? with
        | none => .ok () c'
        | some e => .error e c' := by
  induction errands generalizing c with
  | nil => exact ⟨c, .nil calm, rfl⟩
  | cons e rest ih =>
      cases fine : e.failure? with
      | some error =>
          refine ⟨c, ?_, ?_⟩
          · rw [List.takeWhile_cons, fine]
            exact .nil calm
          · rw [runAll, bind_run, e.run_of_failure fine, List.findSome?_cons, fine]
      | none =>
          obtain ⟨c₁, run, first⟩ : ∃ c', e.run settings c = .ok () c' ∧ Settled c c' [e] :=
            e.run_settles calm sound (fun data eq => sized data (eq ▸ List.mem_cons_self)) fine
          obtain ⟨c', second, rest⟩ := ih first.calm (first.evolves.sound sound)
            fun data mem => sized data (List.mem_cons_of_mem _ mem)
          refine ⟨c', ?_, ?_⟩
          · rw [List.takeWhile_cons, fine]
            exact first.cons second
          · rw [runAll, bind_run, run, List.findSome?_cons, fine]
            exact rest

/-! ### Sessions held -/

/-- A part of a capture that, however it ends, leaves the failures to come and lets go of the
sessions that it opens. -/
def Frames (x : Capturing Unit) : Prop := ∀ c, (told (x c)).2.2.frame = c.depot.frame

theorem Frames.bind {x : Capturing Unit} {f : Unit → Capturing Unit} (first : Frames x)
    (second : Frames (f ())) : Frames (x >>= f) := by
  intro c
  have first := first c
  rw [bind_run]
  generalize x c = r at first
  cases r with
  | ok _ c' => exact (second c').trans first
  | error => exact first

theorem frames_reportOversized {f : Depot → Except ExecutionError Unit × Depot}
    (frame : ∀ d, (f d).2.frame = d.frame) : Frames (reportOversized (atDepot f)) := by
  intro c
  rw [told_reportOversized]
  exact frame c.depot

theorem Errand.frames_run (e : Errand) : Frames (e.run settings) := by
  cases e with
  | check =>
      intro c
      show (told (checkInterrupted c)).2.2.frame = c.depot.frame
      rw [checkInterrupted_run]
      split <;> rfl
  | content => exact frames_reportOversized fun d => d.frame_insert ..
  | tree => exact frames_reportOversized fun d => d.frame_put _
  | fileWasDirectory | directoryWasFile | file | directory | lost | unreadable => exact fun _ => rfl

theorem frames_runAll (errands : List Errand) : Frames (runAll settings errands) := by
  induction errands with
  | nil => exact fun _ => rfl
  | cons e rest ih => exact e.frames_run.bind ih

theorem frames_relocateStream (raw : ActionResult → ByteArray)
    (note : Digest → ActionResult → ActionResult) : Frames (relocateStream settings raw note) := by
  intro c
  have frame := c.depot.frame_put (.ofBytes (raw c.result))
  rw [relocateStream_run]
  split
  · rfl
  · dsimp only
    generalize c.depot.put (.ofBytes (raw c.result)) = stored at frame
    obtain ⟨_ | _, d⟩ := stored <;> exact frame

theorem frames_finish (action : Digest) : Frames (finish settings action) := by
  intro c
  rw [finish_run]
  split
  · exact (frames_relocateStream _ _).bind (frames_relocateStream _ _) c
  · rfl

end

end Capture

/-- **A capture lets go of every session that it opens**, however it ends, and it leaves the
failures to come. -/
theorem Depot.captureOutputs_frame (d : Depot) (settings : CaptureSettings) (top : FileTree)
    (root : FileTree.Place) (action : Digest) (result : ActionResult)
    (files directories : List String) :
    (d.captureOutputs settings top root action result files directories).2.2.frame = d.frame := by
  rw [Capture.captureOutputs_eq]
  exact (Capture.frames_runAll _).bind (Capture.frames_finish action) { depot := d, result }

end BuildWorker
