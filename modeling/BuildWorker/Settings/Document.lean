import BuildWorker.Settings.Basic
import BuildWorker.Yaml.Reading

/-!
# Settings in a document

Settings are written as a YAML document with a mapping for each domain. Everything has a default,
so the empty document is the standard settings.
-/

namespace BuildWorker

open Yaml (Document Node)

namespace Settings

variable (d : Document)

/-- A platform property. -/
def property? (n : Node) : Option Property := do
  let [name, value] ← d.fields? ["name", "value"] n | none
  return ⟨← name.bind d.text?, ← value.bind d.text?⟩

/-- A platform. -/
def platform? (n : Node) : Option Platform := do
  let [properties] ← d.fields? ["properties"] n | none
  return ⟨← Document.withDefault? [] (d.list? (property? d)) properties⟩

/-- A wrapper. -/
def wrapper? (n : Node) : Option Wrapper := do
  let [path, arguments] ← d.fields? ["path", "arguments"] n | none
  return ⟨← path.bind d.text?, ← Document.withDefault? [] (d.list? d.text?) arguments⟩

/-- An execution policy. -/
def policy? (n : Node) : Option ExecutionPolicy := do
  let [name, wrapper] ← d.fields? ["name", "wrapper"] n | none
  return ⟨← name.bind d.text?, ← d.optional? (wrapper? d) wrapper⟩

/-- The worker's domain. -/
def worker? (standard : WorkerSettings) (n : Node) : Option WorkerSettings := do
  let [name, platform, policies, period, timeout, content, std, fetch, execute, default, maximum,
      deadline] ← d.fields? ["name", "platform", "execution_policies", "operation_poll_period",
      "poll_timeout", "inline_content_limit", "inline_std_output_limit",
      "input_fetch_stage_width", "execute_stage_width", "default_action_timeout",
      "maximum_action_timeout", "write_deadline"] n | none
  let number (default : UInt64) := Document.withDefault? default d.uint64?
  return {
    name := ← Document.withDefault? standard.name d.text? name
    platform := ← Document.withDefault? standard.platform (platform? d) platform
    executionPolicies :=
      ← Document.withDefault? standard.executionPolicies (d.list? (policy? d)) policies
    pollPeriodMs := ← number standard.pollPeriodMs period
    pollTimeoutSeconds := ← number standard.pollTimeoutSeconds timeout
    inlineContentLimit := ← number standard.inlineContentLimit content
    inlineStdOutputLimit := ← number standard.inlineStdOutputLimit std
    inputFetchStageWidth := ← number standard.inputFetchStageWidth fetch
    executeStageWidth := ← number standard.executeStageWidth execute
    defaultActionTimeoutSeconds := ← number standard.defaultActionTimeoutSeconds default
    maximumActionTimeoutSeconds := ← number standard.maximumActionTimeoutSeconds maximum
    writeDeadlineSeconds := ← number standard.writeDeadlineSeconds deadline }

/-- The settings of retried calls. -/
def retrySection? (n : Node) : Option RetrySettings := do
  let [initial, greatest, multiplier, jitter, attempts] ← d.fields? ["initial_delay_ms",
    "max_delay_ms", "multiplier", "jitter", "max_attempts"] n | none
  let standard : RetrySettings := {}
  return {
    initialDelayMs := ← Document.withDefault? standard.initialDelayMs d.uint64? initial
    maxDelayMs := ← Document.withDefault? standard.maxDelayMs d.uint64? greatest
    multiplier := ← Document.withDefault? standard.multiplier d.float? multiplier
    jitter := ← Document.withDefault? standard.jitter d.float? jitter
    maxAttempts := ← Document.withDefault? standard.maxAttempts d.uint32? attempts }

/-- The backplane's domain. -/
def backplane? (n : Node) : Option RetrySettings := do
  let [retry] ← d.fields? ["retry"] n | none
  Document.withDefault? {} (retrySection? d) retry

/-- The store's domain. -/
def store? (standard : UInt64) (n : Node) : Option UInt64 := do
  let [size] ← d.fields? ["max_entry_size_bytes"] n | none
  Document.withDefault? standard d.uint64? size

/-- The domain of logging. -/
def logging? (n : Node) : Option LogSettings := do
  let [level, format, location, threads] ←
    d.fields? ["level", "format", "include_location", "thread_ids"] n | none
  return {
    level := ← Document.withDefault? .info (fun n => d.word? n >>= LogLevel.ofWord?) level
    format := ← Document.withDefault? .text (fun n => d.word? n >>= LogFormat.ofWord?) format
    includeLocation := ← Document.withDefault? false d.bool? location
    threadIds := ← Document.withDefault? false d.bool? threads }

/-- All settings of a document, with defaults for the rest. -/
def ofDocument? (standard : Settings) : Option Settings := do
  match d.root with
  | none => return standard
  | some root =>
    let [worker, backplane, store, logging] ←
      d.fields? ["worker", "backplane", "cas", "logging"] root | none
    return {
      worker := ← Document.withDefault? standard.worker (worker? d standard.worker) worker
      retry := ← Document.withDefault? standard.retry (backplane? d) backplane
      maxEntrySize :=
        ← Document.withDefault? standard.maxEntrySize (store? d standard.maxEntrySize) store
      logging := ← Document.withDefault? standard.logging (logging? d) logging }

end Settings

end BuildWorker
