import BuildWorker.Digest

/-!
# Results and operations

An action result records what an execution produced. An operation is the long-running record that
is published about an execution: it passes through stages and ends with a result or an error.
-/

namespace BuildWorker

/-- The key of a cached result: the digest of its action. -/
structure ActionKey where
  /-- The action's digest. -/
  digest : Digest
  deriving DecidableEq

/-- A captured file. -/
structure OutputFile where
  /-- The path as it was declared. -/
  path : String
  /-- The digest of its content. -/
  digest : Digest
  /-- Whether anyone may execute it. -/
  isExecutable : Bool
  deriving DecidableEq

/-- A captured directory. -/
structure OutputDirectory where
  /-- The path as it was declared. -/
  path : String
  treeDigest : Digest
  deriving DecidableEq

/-- What an execution produced. -/
structure ActionResult where
  /-- The files, in the order in which they were declared. -/
  outputFiles : List OutputFile := []
  /-- The directories, in the order in which they were declared. -/
  outputDirectories : List OutputDirectory := []
  exitCode : Int32 := 0
  /-- Standard output, as far as it is inline. -/
  stdoutRaw : ByteArray := .empty
  /-- Where standard output is stored otherwise. -/
  stdoutDigest : Option Digest := none
  /-- Standard error, as far as it is inline. -/
  stderrRaw : ByteArray := .empty
  /-- Where standard error is stored otherwise. -/
  stderrDigest : Option Digest := none
  deriving DecidableEq

namespace ActionResult

/-- The first output file of a path. -/
def outputFile? (r : ActionResult) (path : String) : Option OutputFile :=
  r.outputFiles.find? (·.path == path)

/-- The first output directory of a path. -/
def outputDirectory? (r : ActionResult) (path : String) : Option OutputDirectory :=
  r.outputDirectories.find? (·.path == path)

end ActionResult

/-- How far an execution has come. -/
inductive ExecutionStage
  /-- Not known. -/
  | unknown
  /-- A cached result is looked for. -/
  | cacheCheck
  /-- Waiting for a worker. -/
  | queued
  /-- A worker is at it. -/
  | executing
  /-- Over, with a result or an error. -/
  | completed
  deriving DecidableEq, Repr

namespace ExecutionStage

/-- Every stage, in order. -/
def all : List ExecutionStage := [.unknown, .cacheCheck, .queued, .executing, .completed]

/-- The word for a stage. -/
def word : ExecutionStage → String
  | .unknown => "UNKNOWN"
  | .cacheCheck => "CACHE_CHECK"
  | .queued => "QUEUED"
  | .executing => "EXECUTING"
  | .completed => "COMPLETED"

/-- The stage of a word. -/
def ofWord? (s : String) : Option ExecutionStage := all.find? (·.word == s)

@[simp] theorem ofWord?_word (s : ExecutionStage) : ofWord? s.word = some s := by
  cases s <;> rfl

end ExecutionStage

/-- The published record of an execution. -/
structure Operation where
  /-- The identity of the execution. -/
  name : String
  /-- Whether it is over. -/
  done : Bool := false
  /-- How far it has come. -/
  stage : ExecutionStage
  /-- The action, if it is told. -/
  actionDigest : Option Digest := none
  /-- The result, once there is one. -/
  result : Option ActionResult := none
  /-- What went wrong, if something did. -/
  error : Option String := none
  deriving DecidableEq

namespace Operation

/-- Say which action is executed. -/
def withActionDigest (o : Operation) (digest : Digest) : Operation :=
  { o with actionDigest := some digest }

/-- End with a result. -/
def complete (o : Operation) (result : ActionResult) : Operation :=
  { o with stage := .completed, done := true, result := some result }

/-- End with an error. -/
def fail (o : Operation) (error : String) : Operation :=
  { o with stage := .completed, done := true, error := some error }

end Operation

instance : Message ActionKey where
  toJson k := toJson k.digest
  ofJson? j := (ofJson? j).map ActionKey.mk

instance : Message OutputFile where
  toJson f := .record [("path", toJson f.path), ("digest", toJson f.digest),
    ("is_executable", toJson f.isExecutable)]
  ofJson? j := do
    let [path, digest, isExecutable] ← Message.fields? ["path", "digest", "is_executable"] j | none
    return ⟨← Message.required? path, ← Message.required? digest, ← Message.required? isExecutable⟩

instance : Message OutputDirectory where
  toJson d := .record [("path", toJson d.path), ("tree_digest", toJson d.treeDigest)]
  ofJson? j := do
    let [path, digest] ← Message.fields? ["path", "tree_digest"] j | none
    return ⟨← Message.required? path, ← Message.required? digest⟩

instance : Message ActionResult where
  toJson r := .record (
    [("output_files", toJson r.outputFiles), ("output_directories", toJson r.outputDirectories),
      ("exit_code", toJson r.exitCode)] ++
    Message.whenBytes "stdout_raw" r.stdoutRaw ++ Message.whenSome "stdout_digest" r.stdoutDigest ++
    Message.whenBytes "stderr_raw" r.stderrRaw ++ Message.whenSome "stderr_digest" r.stderrDigest)
  ofJson? j := do
    let [files, directories, exitCode, stdoutRaw, stdoutDigest, stderrRaw, stderrDigest] ←
      Message.fields? ["output_files", "output_directories", "exit_code", "stdout_raw",
        "stdout_digest", "stderr_raw", "stderr_digest"] j | none
    return ⟨← Message.withDefault? [] files, ← Message.withDefault? [] directories,
      ← Message.withDefault? 0 exitCode, ← Message.withDefault? .empty stdoutRaw,
      ← Message.optional? stdoutDigest, ← Message.withDefault? .empty stderrRaw,
      ← Message.optional? stderrDigest⟩

instance : Message ExecutionStage where
  toJson s := .text s.word
  ofJson? j := do ExecutionStage.ofWord? (← Message.word? j)

instance : Message Operation where
  toJson o := .record (
    [("name", toJson o.name), ("done", toJson o.done), ("stage", toJson o.stage)] ++
    Message.whenSome "action_digest" o.actionDigest ++ Message.whenSome "result" o.result ++
    Message.whenSome "error" o.error)
  ofJson? j := do
    let [name, done, stage, actionDigest, result, error] ← Message.fields?
      ["name", "done", "stage", "action_digest", "result", "error"] j | none
    return ⟨← Message.required? name, ← Message.required? done, ← Message.required? stage,
      ← Message.optional? actionDigest, ← Message.optional? result, ← Message.optional? error⟩

end BuildWorker
