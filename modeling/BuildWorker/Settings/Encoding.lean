import BuildWorker.Settings.Basic

/-!
# Settings as JSON

The form in which settings are shown to programs. How a floating-point number is written is left
to whoever asks.
-/

namespace BuildWorker

/-- The worker's domain; the widths of stages are left out on request. -/
def WorkerSettings.toJson (w : WorkerSettings) (widths : Bool) : Json :=
  .record (
    [("name", .text w.name), ("platform", Message.toJson w.platform),
      ("execution_policies", Message.toJson w.executionPolicies),
      ("operation_poll_period", Message.toJson w.pollPeriodMs),
      ("poll_timeout", Message.toJson w.pollTimeoutSeconds),
      ("inline_content_limit", Message.toJson w.inlineContentLimit),
      ("inline_std_output_limit", Message.toJson w.inlineStdOutputLimit)] ++
    (if widths then
      [("input_fetch_stage_width", Message.toJson w.inputFetchStageWidth),
        ("execute_stage_width", Message.toJson w.executeStageWidth)]
    else []) ++
    [("default_action_timeout", Message.toJson w.defaultActionTimeoutSeconds),
      ("maximum_action_timeout", Message.toJson w.maximumActionTimeoutSeconds),
      ("write_deadline", Message.toJson w.writeDeadlineSeconds)])

/-- The settings of retried calls. -/
def RetrySettings.toJson (r : RetrySettings) (number : Float → Json) : Json :=
  .record [("initial_delay_ms", Message.toJson r.initialDelayMs),
    ("max_delay_ms", Message.toJson r.maxDelayMs), ("multiplier", number r.multiplier),
    ("jitter", number r.jitter), ("max_attempts", Message.toJson r.maxAttempts)]

/-- The domain of logging. -/
def LogSettings.toJson (l : LogSettings) : Json :=
  .record [("level", .text l.level.word), ("format", .text l.format.word),
    ("include_location", .bool l.includeLocation), ("thread_ids", .bool l.threadIds)]

/-- All settings. -/
def Settings.toJson (s : Settings) (widths : Bool) (number : Float → Json) : Json :=
  .record [("worker", s.worker.toJson widths),
    ("backplane", .record [("retry", s.retry.toJson number)]),
    ("cas", .record [("max_entry_size_bytes", Message.toJson s.maxEntrySize)]),
    ("logging", s.logging.toJson)]

end BuildWorker
