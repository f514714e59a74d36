import BuildWorker.Action
import BuildWorker.Operation
import BuildWorker.Proofs.Directory.Encoding
import BuildWorker.Proofs.Duration.Human
import BuildWorker.Violation

/-!
# Records are read back

Platforms and policies, units of work and what they refer to, operations with their results, and
violations are lawful messages, as digests and trees are.

Most records write all of their fields, and are read back field by field. A field that is left out
when it is empty is read as its default, which is the empty one.
-/

namespace BuildWorker

open Message

/-! ### Platforms -/

instance : LawfulMessage Property where
  isPlain_toJson _ := isPlain_record (by simp)
  ofJson?_toJson _ := by
    refine (bind_fields?_record (by simp) (by simp) _).trans ?_
    simp [List.lookup_cons]

instance : LawfulMessage Platform where
  isPlain_toJson _ := isPlain_record (by simp)
  ofJson?_toJson _ := by
    refine (bind_fields?_record (by simp) (by simp) _).trans ?_
    simp

instance : LawfulMessage Wrapper where
  isPlain_toJson _ := isPlain_record (by simp)
  ofJson?_toJson _ := by
    refine (bind_fields?_record (by simp) (by simp) _).trans ?_
    simp [List.lookup_cons]

instance : LawfulMessage ExecutionPolicy where
  isPlain_toJson _ := by
    refine isPlain_record (List.forall_mem_cons.2 ⟨isPlain_toJson _, isPlain_whenSome⟩)
  ofJson?_toJson p := by
    have keys : ((("name", toJson p.name) :: whenSome "wrapper" p.wrapper).map (·.1)).Sublist
        ["name", "wrapper"] :=
      (keys_whenSome _ _).cons_cons _
    refine (bind_fields?_sublist keys (by simp) _).trans ?_
    have wrapper := optional?_toJson (fun _ : Wrapper => record_ne_null _) p.wrapper
    simp [List.lookup_cons, wrapper]

/-! ### Units of work -/

instance : LawfulMessage ExecuteEntry where
  isPlain_toJson _ := isPlain_record (by simp)
  ofJson?_toJson _ := by
    refine (bind_fields?_record (by simp) (by simp) _).trans ?_
    simp [List.lookup_cons]

instance : LawfulMessage QueueEntry where
  isPlain_toJson _ := isPlain_record (by simp)
  ofJson?_toJson _ := by
    refine (bind_fields?_record (by simp) (by simp) _).trans ?_
    simp [List.lookup_cons]

instance : LawfulMessage Action where
  isPlain_toJson a := by
    refine isPlain_record ?_
    cases h : a.timeout <;> simp [Json.IsPlain]
  ofJson?_toJson a := by
    refine (bind_fields?_record (by simp) (by simp) _).trans ?_
    -- No timeout is written as null, and null is read as no timeout.
    have timeout : optional? (some ((a.timeout.map toJson).getD .null)) = some a.timeout := by
      cases a.timeout with
      | none => rfl
      | some d => exact optional?_toJson (fun _ : Duration => text_ne_null _) (some d)
    simp [List.lookup_cons, timeout]

instance : LawfulMessage Command where
  isPlain_toJson _ := isPlain_record (by simp)
  ofJson?_toJson _ := by
    refine (bind_fields?_record (by simp) (by simp) _).trans ?_
    simp [List.lookup_cons]

instance : LawfulMessage QueuedOperation where
  isPlain_toJson _ := isPlain_record (by simp)
  ofJson?_toJson _ := by
    refine (bind_fields?_record (by simp) (by simp) _).trans ?_
    simp [List.lookup_cons]

/-! ### Results and operations -/

instance : LawfulMessage ActionKey where
  isPlain_toJson k := isPlain_toJson k.digest
  ofJson?_toJson k := by
    show (ofJson? (toJson k.digest)).map ActionKey.mk = some k
    rw [ofJson?_toJson]
    rfl

instance : LawfulMessage OutputFile where
  isPlain_toJson _ := isPlain_record (by simp)
  ofJson?_toJson _ := by
    refine (bind_fields?_record (by simp) (by simp) _).trans ?_
    simp [List.lookup_cons]

instance : LawfulMessage OutputDirectory where
  isPlain_toJson _ := isPlain_record (by simp)
  ofJson?_toJson _ := by
    refine (bind_fields?_record (by simp) (by simp) _).trans ?_
    simp [List.lookup_cons]

instance : LawfulMessage ActionResult where
  isPlain_toJson r := by
    refine isPlain_record ?_
    simp only [List.forall_mem_append]
    exact ⟨⟨⟨⟨by simp, isPlain_whenBytes⟩, isPlain_whenSome⟩, isPlain_whenBytes⟩,
      isPlain_whenSome⟩
  ofJson?_toJson r := by
    have keys : ((([("output_files", toJson r.outputFiles),
        ("output_directories", toJson r.outputDirectories), ("exit_code", toJson r.exitCode)] ++
        whenBytes "stdout_raw" r.stdoutRaw ++ whenSome "stdout_digest" r.stdoutDigest ++
        whenBytes "stderr_raw" r.stderrRaw ++ whenSome "stderr_digest" r.stderrDigest).map
          (·.1)).Sublist (["output_files", "output_directories", "exit_code"] ++ ["stdout_raw"] ++
            ["stdout_digest"] ++ ["stderr_raw"] ++ ["stderr_digest"])) := by
      simp only [List.map_append]
      exact ((((List.Sublist.refl _).append (keys_whenBytes _ _)).append (keys_whenSome _ _)).append
        (keys_whenBytes _ _)).append (keys_whenSome _ _)
    refine (bind_fields?_sublist keys (by simp) _).trans ?_
    have stdout := optional?_toJson (fun _ : Digest => record_ne_null _) r.stdoutDigest
    have stderr := optional?_toJson (fun _ : Digest => record_ne_null _) r.stderrDigest
    simp [List.lookup_append, List.lookup_cons, withDefault?_bytes, stdout, stderr]

instance : LawfulMessage ExecutionStage where
  isPlain_toJson _ := rfl
  ofJson?_toJson s := by cases s <;> rfl

instance : LawfulMessage Operation where
  isPlain_toJson o := by
    refine isPlain_record ?_
    simp only [List.forall_mem_append]
    exact ⟨⟨⟨by simp, isPlain_whenSome⟩, isPlain_whenSome⟩, isPlain_whenSome⟩
  ofJson?_toJson o := by
    have keys : ((([("name", toJson o.name), ("done", toJson o.done), ("stage", toJson o.stage)] ++
        whenSome "action_digest" o.actionDigest ++ whenSome "result" o.result ++
        whenSome "error" o.error).map (·.1)).Sublist
          (["name", "done", "stage"] ++ ["action_digest"] ++ ["result"] ++ ["error"])) := by
      simp only [List.map_append]
      exact (((List.Sublist.refl _).append (keys_whenSome _ _)).append (keys_whenSome _ _)).append
        (keys_whenSome _ _)
    refine (bind_fields?_sublist keys (by simp) _).trans ?_
    have digest := optional?_toJson (fun _ : Digest => record_ne_null _) o.actionDigest
    have result := optional?_toJson (fun _ : ActionResult => record_ne_null _) o.result
    have error := optional?_toJson (fun _ : String => text_ne_null _) o.error
    simp [List.lookup_append, List.lookup_cons, digest, result, error]

/-! ### Violations -/

instance : LawfulMessage ViolationKind where
  isPlain_toJson _ := rfl
  ofJson?_toJson k := by cases k <;> rfl

instance : LawfulMessage Violation where
  isPlain_toJson _ := isPlain_record (by simp)
  ofJson?_toJson _ := by
    refine (bind_fields?_record (by simp) (by simp) _).trans ?_
    simp [List.lookup_cons]

instance : LawfulMessage PreconditionFailure where
  isPlain_toJson _ := isPlain_record (by simp)
  ofJson?_toJson _ := by
    refine (bind_fields?_record (by simp) (by simp) _).trans ?_
    simp

end BuildWorker
