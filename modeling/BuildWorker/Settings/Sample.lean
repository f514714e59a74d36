import BuildWorker.Decimal.Text
import BuildWorker.Settings.Basic

/-!
# A sample of settings

The standard settings as the lines of a document, for users to start from. Texts and lists are
written in the plain forms that the standard settings need.
-/

namespace BuildWorker.Settings

/-- Indent lines by one step. -/
def indented (lines : List String) : List String := lines.map fun line => "  " ++ line

/-- A key with its scalar. -/
def entry (key value : String) : String := key ++ ": " ++ value

/-- A key with the lines below it. -/
def block (key : String) (lines : List String) : List String := (key ++ ":") :: indented lines

/-- The lines of the sample, with the widths of the stages as given. -/
def sample (s : Settings) (width : String) : List String :=
  block "worker" (
    [entry "name" s.worker.name] ++
    block "platform" [entry "properties" "[]"] ++
    [entry "execution_policies" "[]",
      entry "operation_poll_period" (toString s.worker.pollPeriodMs),
      entry "poll_timeout" (toString s.worker.pollTimeoutSeconds),
      entry "inline_content_limit" (toString s.worker.inlineContentLimit),
      entry "inline_std_output_limit" (toString s.worker.inlineStdOutputLimit),
      entry "input_fetch_stage_width" width,
      entry "execute_stage_width" width,
      entry "default_action_timeout" (toString s.worker.defaultActionTimeoutSeconds),
      entry "maximum_action_timeout" (toString s.worker.maximumActionTimeoutSeconds),
      entry "write_deadline" (toString s.worker.writeDeadlineSeconds)]) ++
  block "backplane" (block "retry" [
    entry "initial_delay_ms" (toString s.retry.initialDelayMs),
    entry "max_delay_ms" (toString s.retry.maxDelayMs),
    entry "multiplier" (Decimal.tagged s.retry.multiplier),
    entry "jitter" (Decimal.tagged s.retry.jitter),
    entry "max_attempts" (toString s.retry.maxAttempts)]) ++
  block "cas" [entry "max_entry_size_bytes" (toString s.maxEntrySize)] ++
  block "logging" [
    entry "level" s.logging.level.word,
    entry "format" s.logging.format.word,
    entry "include_location" (if s.logging.includeLocation then "true" else "false"),
    entry "thread_ids" (if s.logging.threadIds then "true" else "false")]

end BuildWorker.Settings
