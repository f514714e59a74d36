import BuildWorker.Proofs.Capture.Rebuild
import BuildWorker.Proofs.Capture.Running

/-!
# What a failed capture says is missing

A capture goes on when the store refuses content for its size. In the end it reports every refusal,
and the report can be relied upon: of the digests that the capture recorded, those are absent from
the store that are reported as missing, and no others (`Depot.captureOutputs_accounts`).

That what is not reported is there holds because an errand either stores its content or reports it
(`Capture.Ran`). That what is reported is not there, from whatever run before, is the invariant of
the store: nothing above the limit is ever in it.
-/

namespace BuildWorker

/-! ### Subjects -/

/-- A list is cut at the last of its separators in one way only. -/
theorem append_cons_inj {α : Type} {c : α} {a a' b b' : List α} (h : c ∉ b) (h' : c ∉ b')
    (same : a ++ c :: b = a' ++ c :: b') : a = a' ∧ b = b' := by
  have tail {x y as : List α} (hx : c ∉ x) (eq : c :: x = as ++ c :: y) : as = [] ∧ x = y := by
    cases as with
    | nil => exact ⟨rfl, List.tail_eq_of_cons_eq eq⟩
    | cons _ as =>
        have longer : x = as ++ c :: y := List.tail_eq_of_cons_eq eq
        exact absurd (longer ▸ List.mem_append_right as List.mem_cons_self) hx
  rcases List.append_eq_append_iff.1 same with ⟨as, eq, rest⟩ | ⟨as, eq, rest⟩
  · obtain ⟨rfl, rfl⟩ := tail h rest
    exact ⟨by rw [eq, List.append_nil], rfl⟩
  · obtain ⟨rfl, rfl⟩ := tail h' rest
    exact ⟨by rw [eq, List.append_nil], rfl⟩

theorem slash_not_mem_toDigits (n : Nat) : '/' ∉ Nat.toDigits 10 n := by
  intro mem
  have digit := Nat.isDigit_of_mem_toDigits (by omega) (by omega) mem
  revert digit
  decide

/-- The displayed form tells the digest. -/
theorem Digest.display_injective : Function.Injective Digest.display := by
  intro a b same
  have lists : a.hash.toList ++ '/' :: Nat.toDigits 10 a.size.toNat =
      b.hash.toList ++ '/' :: Nat.toDigits 10 b.size.toNat := by
    simpa [display] using congrArg String.toList same
  obtain ⟨hash, digits⟩ :=
    append_cons_inj (slash_not_mem_toDigits _) (slash_not_mem_toDigits _) lists
  have size := congrArg (Nat.ofDigitChars 10 · 0) digits
  simp only [Nat.ofDigitChars_toDigits (by omega : 1 < 10) (by omega : 10 ≤ 10)] at size
  obtain ⟨_, _⟩ := a
  obtain ⟨_, _⟩ := b
  cases String.toList_inj.1 hash
  cases UInt64.toNat_inj.1 size
  rfl

namespace Capture

/-! ### The end of a capture -/

section

variable {settings : CaptureSettings}

/-- A capture whose errands were run keeps what they recorded, and tells the violations that they
reported. -/
structure Finished (c : Capture) (action : Digest) (outcome : Except ExecutionError Unit)
    (result : ActionResult) (d : Depot) : Prop where
  evolves : c.depot.store.Evolves d.store
  files_eq : result.outputFiles = c.result.outputFiles
  directories_eq : result.outputDirectories = c.result.outputDirectories
  told : outcome = .ok () ∧ c.violations = [] ∨
    outcome = .error (.precondition action ⟨c.violations⟩)

theorem finish_ends {action : Digest} {c : Capture} {outcome : Except ExecutionError Unit}
    {result : ActionResult} {d : Depot}
    (run : told (finish settings action c) = (outcome, result, d))
    (ends : outcome = .ok () ∨ ∃ name failure, outcome = .error (.precondition name failure)) :
    c.Finished action outcome result d := by
  rw [finish_run] at run
  by_cases clean : c.violations = []
  · rw [if_pos clean] at run
    cases moved : relocateStreams settings c with
    | ok _ c' =>
        rw [moved] at run
        cases run
        have moves := relocateStreams_moves moved
        exact ⟨moves.evolves, moves.files_eq, moves.directories_eq, .inl ⟨rfl, clean⟩⟩
    | error e c' =>
        have failed := relocateStreams_outcome settings c
        rw [moved] at run failed
        cases run
        rcases failed with failed | ⟨error, failed⟩ <;> cases failed
        rcases ends with ends | ⟨name, failure, ends⟩ <;> cases ends
  · rw [if_neg clean] at run
    cases run
    exact ⟨.refl, rfl, rfl, .inr rfl⟩

end

end Capture

namespace Depot

open Capture FileTree

variable {d : Depot} {settings : CaptureSettings} {top : FileTree} {root : FileTree.Place}
  {action : Digest} {result : ActionResult} {files directories : List String}

/-- **What a capture reports as missing is what is missing.** When a capture into a depot without
scripted failures succeeds or ends with violations, it has recorded the declared files and
directories that are there. Of the digests recorded, one that is not empty is absent from the store
exactly if the capture ended with a violation that says that it is missing. And what is said to be
missing was recorded, and is too large for the store. -/
theorem captureOutputs_accounts (reachable : d.store.Reachable) (honest : d.Honest)
    {outcome : Except ExecutionError Unit} {result' : ActionResult} {d' : Depot}
    (run : d.captureOutputs settings top root action result files directories =
      (outcome, result', d'))
    (ends : outcome = .ok () ∨ ∃ name failure, outcome = .error (.precondition name failure)) :
    result'.outputFiles = result.outputFiles ++ files.filterMap (top.outputFile? root) ∧
    result'.outputDirectories = result.outputDirectories ++
      (directories.filterMap (top.outputDirectory? root)).map directoryRecord ∧
    (∀ digest ∈ top.recorded root files directories, digest.isEmpty = false →
      (d'.store.contains digest = false ↔
        ∃ failure, outcome = .error (.precondition action failure) ∧
          ∃ v ∈ failure.violations, v.kind = .missing ∧ v.subject = "blobs/" ++ digest.display)) ∧
    ∀ failure, outcome = .error (.precondition action failure) →
      ∀ v ∈ failure.violations, v.kind = .missing →
        ∃ digest ∈ top.recorded root files directories,
          v.subject = "blobs/" ++ digest.display ∧ d.store.exceedsLimit digest = true := by
  have sound := reachable.sound
  have errands : Ends { depot := d, result } (top.outputErrands root files directories)
      (runAll settings _ _) := runAll_ends honest sound _
  rw [captureOutputs_eq, bind_run] at run
  generalize runAll settings (top.outputErrands root files directories) { depot := d, result } = r
    at errands run
  obtain ⟨_, c⟩ | ⟨e, c⟩ := r
  case error =>
    cases run
    rcases ends with ends | ⟨name, failure, ends⟩
    · cases ends
    · cases ends
      exact absurd rfl (errands name failure)
  have ran : Ran { depot := d, result } c (top.outputErrands root files directories) := errands
  have finished := finish_ends run ends
  have after : d.store.Evolves d'.store := ran.evolves.trans finished.evolves
  -- The violations that the outcome tells are those that the errands have reported.
  have reported (v : Violation) :
      (∃ failure, outcome = .error (.precondition action failure) ∧ v ∈ failure.violations ∧
        v.kind = .missing) ↔
      ∃ digest ∈ top.recorded root files directories, d.store.exceedsLimit digest = true ∧
        v = .oversized digest := by
    have violations : c.violations = (top.outputErrands root files directories).flatMap
        (Errand.violations d.store) := ran.violations_eq
    simp only [mem_recorded, ← mem_violations, ← violations]
    rcases finished.told with ⟨rfl, clean⟩ | rfl
    · simp [clean]
    · simp
  refine ⟨?_, ?_, ?_, ?_⟩
  · rw [finished.files_eq, ran.result_eq, recordAll, filterMap_file?]
  · rw [finished.directories_eq, ran.result_eq, recordAll, filterMap_directory?]
  · intro digest mem filled
    constructor
    · intro absent
      have excess : d.store.exceedsLimit digest = true := by
        by_contra within
        have there := ran.stored digest (mem_recorded.1 mem) filled (Bool.eq_false_iff.2 within)
        rw [finished.evolves.contains there] at absent
        cases absent
      obtain ⟨failure, ended, told, -⟩ := (reported _).2 ⟨digest, mem, excess, rfl⟩
      exact ⟨failure, ended, _, told, rfl, rfl⟩
    · rintro ⟨failure, ended, v, told, missing, subject⟩
      obtain ⟨other, -, excess, rfl⟩ := (reported v).1 ⟨failure, ended, told, missing⟩
      have same : other = digest := Digest.display_injective ((String.append_right_inj _).1 subject)
      apply (after.sound sound).absent
      rw [after.exceedsLimit, ← same, excess]
  · intro failure ended v told missing
    obtain ⟨digest, mem, excess, rfl⟩ := (reported v).1 ⟨failure, ended, told, missing⟩
    exact ⟨digest, mem, rfl, excess⟩

/-- The file and the directory are captured into a store for single bytes, which is enough for the
file but not for the tree of the directory. -/
def sampleRefusal : Except ExecutionError Unit × ActionResult × Depot :=
  (ofStore (.ofLimit 1)).captureOutputs {} sampleDisk [] .empty {} ["o/a"] ["o"]

theorem sampleRefusal_accounts :
    sampleRefusal.1 = .error (.precondition .empty
      ⟨[.oversized (.ofBytes (Message.encode sampleDirectory.walked.tree))]⟩) ∧
    ∀ digest ∈ sampleDisk.recorded [] ["o/a"] ["o"], digest.isEmpty = false →
      (sampleRefusal.2.2.store.contains digest = false ↔
        ∃ failure, sampleRefusal.1 = .error (.precondition .empty failure) ∧
          ∃ v ∈ failure.violations,
            v.kind = .missing ∧ v.subject = "blobs/" ++ digest.display) := by
  have refused : sampleRefusal.1 = .error (.precondition .empty
      ⟨[.oversized (.ofBytes (Message.encode sampleDirectory.walked.tree))]⟩) := by
    decide +kernel
  have run : (ofStore (.ofLimit 1)).captureOutputs {} sampleDisk [] .empty {} ["o/a"] ["o"] =
      (sampleRefusal.1, sampleRefusal.2.1, sampleRefusal.2.2) := rfl
  obtain ⟨-, -, accounts, -⟩ :=
    captureOutputs_accounts ⟨1, .refl⟩ (calm_ofStore _).honest run
      (.inr ⟨_, _, refused⟩)
  exact ⟨refused, accounts⟩

end Depot

end BuildWorker
