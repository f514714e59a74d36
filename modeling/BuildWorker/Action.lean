import BuildWorker.Directory
import BuildWorker.Duration.Human
import BuildWorker.Platform

/-!
# Actions and the queue entries that ask for them

An action is a command with an input tree. A queue entry is the claim ticket for executing one:
it names the operation, points to the fully resolved `QueuedOperation` in the content store, and
says which platform is required.
-/

namespace BuildWorker

/-- Which execution is asked for. -/
structure ExecuteEntry where
  /-- The operation that reports on the execution; the identity of the unit of work. -/
  operationName : String
  actionDigest : Digest
  /-- Whether a cached result must not be used. -/
  skipCacheLookup : Bool := false
  deriving DecidableEq

/-- The claim ticket for one unit of work. -/
structure QueueEntry where
  executeEntry : ExecuteEntry
  /-- Where the resolved operation is stored. -/
  queuedOperationDigest : Digest
  /-- What the worker has to offer. -/
  platform : Platform := {}
  /-- How often the unit went back to the queue. -/
  requeueAttempts : UInt32 := 0
  deriving DecidableEq

/-- The identity of the unit of work. -/
def QueueEntry.name (e : QueueEntry) : String := e.executeEntry.operationName

/-- What is to be executed. -/
structure Action where
  commandDigest : Digest
  inputRootDigest : Digest
  /-- How long the command may take. -/
  timeout : Option Duration := none
  /-- Whether the result must not be cached. -/
  doNotCache : Bool := false
  deriving DecidableEq

/-- A command line and what it is declared to produce. -/
structure Command where
  /-- The program and its arguments. -/
  arguments : List String
  /-- Names and values. -/
  environmentVariables : List (String × String) := []
  /-- Paths of files. -/
  outputFiles : List String := []
  /-- Paths of directories. -/
  outputDirectories : List String := []
  /-- Where the command can run. -/
  platform : Platform := {}
  /-- Where it is started, relative to the root. -/
  workingDirectory : String := ""
  deriving DecidableEq

/-- An action with everything that it refers to. -/
structure QueuedOperation where
  action : Action
  command : Command
  /-- Its inputs. -/
  tree : Tree
  deriving DecidableEq

instance : Message ExecuteEntry where
  toJson e := .record [("operation_name", toJson e.operationName),
    ("action_digest", toJson e.actionDigest), ("skip_cache_lookup", toJson e.skipCacheLookup)]
  ofJson? j := do
    let [name, digest, skip] ←
      Message.fields? ["operation_name", "action_digest", "skip_cache_lookup"] j | none
    return ⟨← Message.required? name, ← Message.required? digest,
      ← Message.withDefault? false skip⟩

instance : Message QueueEntry where
  toJson e := .record [("execute_entry", toJson e.executeEntry),
    ("queued_operation_digest", toJson e.queuedOperationDigest), ("platform", toJson e.platform),
    ("requeue_attempts", toJson e.requeueAttempts)]
  ofJson? j := do
    let [entry, digest, platform, attempts] ← Message.fields?
      ["execute_entry", "queued_operation_digest", "platform", "requeue_attempts"] j | none
    return ⟨← Message.required? entry, ← Message.required? digest,
      ← Message.withDefault? {} platform, ← Message.withDefault? 0 attempts⟩

instance : Message Action where
  toJson a := .record [("command_digest", toJson a.commandDigest),
    ("input_root_digest", toJson a.inputRootDigest),
    ("timeout", (a.timeout.map toJson).getD .null), ("do_not_cache", toJson a.doNotCache)]
  ofJson? j := do
    let [command, root, timeout, doNotCache] ← Message.fields?
      ["command_digest", "input_root_digest", "timeout", "do_not_cache"] j | none
    return ⟨← Message.required? command, ← Message.required? root, ← Message.optional? timeout,
      ← Message.withDefault? false doNotCache⟩

instance : Message Command where
  toJson c := .record [("arguments", toJson c.arguments),
    ("environment_variables", toJson c.environmentVariables),
    ("output_files", toJson c.outputFiles), ("output_directories", toJson c.outputDirectories),
    ("platform", toJson c.platform), ("working_directory", toJson c.workingDirectory)]
  ofJson? j := do
    let [arguments, environment, files, directories, platform, workingDirectory] ← Message.fields?
      ["arguments", "environment_variables", "output_files", "output_directories", "platform",
        "working_directory"] j | none
    return ⟨← Message.required? arguments, ← Message.withDefault? [] environment,
      ← Message.withDefault? [] files, ← Message.withDefault? [] directories,
      ← Message.withDefault? {} platform, ← Message.withDefault? "" workingDirectory⟩

instance : Message QueuedOperation where
  toJson q := .record [("action", toJson q.action), ("command", toJson q.command),
    ("tree", toJson q.tree)]
  ofJson? j := do
    let [action, command, tree] ← Message.fields? ["action", "command", "tree"] j | none
    return ⟨← Message.required? action, ← Message.required? command, ← Message.required? tree⟩

end BuildWorker
