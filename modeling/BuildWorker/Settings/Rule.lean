import BuildWorker.Decimal.Text
import BuildWorker.Settings.Basic

/-!
# Rules for settings

What settings have to satisfy, and what is said about the first one that does not. Each rule
belongs to a domain; the domains are checked in the order worker, backplane, store, logging, and
the last two have no rules.
-/

namespace BuildWorker

/-- What is wrong with a setting. -/
inductive SettingFault
  /-- A text is empty. -/
  | empty (field : String)
  /-- A number is not above zero. -/
  | notPositive (field : String) (value : String)
  /-- A number does not lie in `[0, 1)`. -/
  | notFraction (field : String) (value : Float)
  /-- A name stands twice. -/
  | duplicate (field : String) (name : String)
  /-- The default timeout is longer than the maximum. -/
  | timeouts (default maximum : UInt64)
  /-- The greatest delay is shorter than the first one. -/
  | delays (greatest initial : UInt64)
  /-- Delays would shrink. -/
  | multiplier (value : Float)

/-- A setting that breaks a rule of its domain. -/
structure RuleError where
  domain : String
  /-- What is wrong. -/
  fault : SettingFault

/-- What is wrong, in words. -/
def SettingFault.message : SettingFault → String
  | .empty field => field ++ " cannot be empty"
  | .notPositive field value => field ++ " must be greater than 0, got " ++ value
  | .notFraction field value => field ++ " must be in [0, 1), got " ++ Decimal.plain value
  | .duplicate field name => "duplicate " ++ field ++ " '" ++ name ++ "'"
  | .timeouts default maximum =>
    s!"default_action_timeout ({default}s) exceeds maximum_action_timeout ({maximum}s)"
  | .delays greatest initial =>
    s!"max_delay_ms ({greatest}) must be at least initial_delay_ms ({initial})"
  | .multiplier value => "multiplier must be at least 1.0, got " ++ Decimal.plain value

/-- The form shown to users. -/
def RuleError.display (e : RuleError) : String :=
  "Domain configuration error in " ++ e.domain ++ ": " ++ e.fault.message

namespace Rule

/-- A text must not be empty. -/
def required (value field : String) : Except SettingFault Unit :=
  if value.isEmpty then .error (.empty field) else .ok ()

/-- An integer must be above zero. -/
def positive (value : Int) (field : String) : Except SettingFault Unit :=
  if value ≤ 0 then .error (.notPositive field (toString value)) else .ok ()

/-- A floating-point number must be above zero, unless it is no number at all. -/
def positiveFloat (value : Float) (field : String) : Except SettingFault Unit :=
  if value ≤ 0 then .error (.notPositive field (Decimal.plain value)) else .ok ()

/-- A number must lie in `[0, 1)`. -/
def fraction (value : Float) (field : String) : Except SettingFault Unit :=
  if 0 ≤ value && value < 1 then .ok () else .error (.notFraction field value)

/-- The first name that stands a second time. -/
def firstDuplicate? : List String → List String → Option String
  | _, [] => none
  | seen, name :: names =>
    if name ∈ seen then some name else firstDuplicate? (name :: seen) names

/-- No name may stand twice. -/
def unique (names : List String) (field : String) : Except SettingFault Unit :=
  match firstDuplicate? [] names with
  | some name => .error (.duplicate field name)
  | none => .ok ()

/-- A rule holds of each of some values, the first ones first. -/
def each {α : Type} (rule : α → Except SettingFault Unit) : List α → Except SettingFault Unit
  | [] => .ok ()
  | a :: as => do
    rule a
    each rule as

end Rule

/-- The rules of the worker's domain. -/
def WorkerSettings.check (w : WorkerSettings) : Except SettingFault Unit := do
  Rule.required w.name "name"
  Rule.positive w.pollPeriodMs.toNat "operation_poll_period"
  Rule.positive w.pollTimeoutSeconds.toNat "poll_timeout"
  Rule.positive w.writeDeadlineSeconds.toNat "write_deadline"
  Rule.positive w.inputFetchStageWidth.toNat "input_fetch_stage_width"
  Rule.positive w.executeStageWidth.toNat "execute_stage_width"
  Rule.each (fun p : Property => Rule.required p.name "platform property name")
    w.platform.properties
  Rule.each (fun p : ExecutionPolicy => Rule.required p.name "execution policy name")
    w.executionPolicies
  Rule.unique (w.executionPolicies.map ExecutionPolicy.name) "execution policy"
  if w.defaultActionTimeoutSeconds ≠ 0 ∧ w.maximumActionTimeoutSeconds ≠ 0 ∧
      w.maximumActionTimeoutSeconds < w.defaultActionTimeoutSeconds then
    throw (.timeouts w.defaultActionTimeoutSeconds w.maximumActionTimeoutSeconds)

/-- The rules of retried calls. -/
def RetrySettings.check (r : RetrySettings) : Except SettingFault Unit := do
  Rule.positive r.initialDelayMs.toNat "initial_delay_ms"
  Rule.positive r.maxAttempts.toNat "max_attempts"
  Rule.fraction r.jitter "jitter"
  if r.maxDelayMs < r.initialDelayMs then throw (.delays r.maxDelayMs r.initialDelayMs)
  if r.multiplier < 1 then throw (.multiplier r.multiplier)

/-- Place a rule in its domain. -/
def inDomain (domain : String) (rule : Except SettingFault Unit) : Except RuleError Unit :=
  rule.mapError (RuleError.mk domain)

/-- All rules. -/
def Settings.check (s : Settings) : Except RuleError Unit := do
  inDomain "worker" s.worker.check
  inDomain "backplane.retry" s.retry.check

/-- The domains of settings. -/
def Settings.domains : List String := ["worker", "backplane", "backplane.retry", "cas", "logging"]

end BuildWorker
