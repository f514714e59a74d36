import BuildWorker.Operation
import BuildWorker.Platform
import BuildWorker.Retry.Policy

/-!
# Settings

What can be set about a worker, in four domains: the worker itself, the backplane, the content
store and logging. Lengths of time are kept in the unit in which they are set.
-/

namespace BuildWorker

/-- Settings of the worker itself. -/
structure WorkerSettings where
  /-- The name that the backplane knows. -/
  name : String := "kiln-worker"
  /-- What the worker offers. -/
  platform : Platform := {}
  /-- The execution policies that the worker applies. -/
  executionPolicies : List ExecutionPolicy := []
  /-- Milliseconds from one lease renewal to the next. -/
  pollPeriodMs : UInt64 := 1000
  /-- Seconds that a lease renewal may take, and by which it extends the lease. -/
  pollTimeoutSeconds : UInt64 := 30
  /-- The largest content put into a result. -/
  inlineContentLimit : UInt64 := 1048576
  /-- The largest standard output kept in a result. -/
  inlineStdOutputLimit : UInt64 := 0
  /-- Units of work that fetch inputs at the same time. -/
  inputFetchStageWidth : UInt64
  /-- Units of work that execute at the same time. -/
  executeStageWidth : UInt64
  /-- Seconds for an action that does not say; zero means unset. -/
  defaultActionTimeoutSeconds : UInt64 := 0
  /-- Seconds for any action; zero means unset. -/
  maximumActionTimeoutSeconds : UInt64 := 0
  /-- Seconds to wait for a byte sink of the store. -/
  writeDeadlineSeconds : UInt64 := 60
  deriving DecidableEq

/-- Settings of retried backplane calls. -/
structure RetrySettings where
  /-- Milliseconds after the first failed attempt. -/
  initialDelayMs : UInt64 := 100
  /-- The most milliseconds between attempts. -/
  maxDelayMs : UInt64 := 5000
  /-- Growth from one delay to the next. -/
  multiplier : Float := 2.0
  /-- Fraction by which delays are spread. -/
  jitter : Float := 0.1
  /-- The most attempts. -/
  maxAttempts : UInt32 := 5

/-- How much is logged. -/
inductive LogLevel
  | error
  | warn
  | info
  | debug
  | trace
  deriving DecidableEq, Repr

/-- How logged events look. -/
inductive LogFormat
  | json
  | text
  | compact
  | pretty
  deriving DecidableEq, Repr

/-- Settings of logging. -/
structure LogSettings where
  /-- How much is logged. -/
  level : LogLevel := .info
  /-- How events look. -/
  format : LogFormat := .text
  /-- Whether events tell where in the source they arise. -/
  includeLocation : Bool := false
  /-- Whether events tell their thread. -/
  threadIds : Bool := false
  deriving DecidableEq, Repr

/-- All settings. -/
structure Settings where
  /-- The worker itself. -/
  worker : WorkerSettings
  /-- Retried backplane calls. -/
  retry : RetrySettings := {}
  /-- The largest content that the store accepts; zero means any. -/
  maxEntrySize : UInt64 := 2147483648
  logging : LogSettings := {}

namespace WorkerSettings

/-- Settings on a machine with the given number of processors, one for each stage's slot. -/
def standard (processors : UInt64) : WorkerSettings :=
  { inputFetchStageWidth := processors, executeStageWidth := processors }

/-- The platform that the worker advertises, with its execution policies. -/
def advertisedPlatform (w : WorkerSettings) : Platform := w.platform.advertise w.executionPolicies

/-- The configured policy of a name. -/
def policy? (w : WorkerSettings) (name : String) : Option ExecutionPolicy :=
  w.executionPolicies.find? (·.name == name)

end WorkerSettings

/-- Settings on a machine with the given number of processors. -/
def Settings.standard (processors : UInt64) : Settings := { worker := .standard processors }

/-- The policy for calls that change the backplane. -/
def RetrySettings.policy (r : RetrySettings) : RetryPolicy where
  maxAttempts := r.maxAttempts
  initialDelay := .ofMillis r.initialDelayMs
  maxDelay := .ofMillis r.maxDelayMs
  multiplier := r.multiplier
  jitter := r.jitter

/-- When content that an action produced is stored. -/
inductive InsertionPolicy
  /-- Whatever its size. -/
  | always
  /-- Only when it is larger than may stay in the result. -/
  | aboveLimit
  deriving DecidableEq, Repr

/-- How standard output and error are stored. -/
def WorkerSettings.stdOutputPolicy (w : WorkerSettings) : InsertionPolicy :=
  if 0 < w.inlineStdOutputLimit then .aboveLimit else .always

namespace LogLevel

/-- Every level, from the least to the most. -/
def all : List LogLevel := [.error, .warn, .info, .debug, .trace]

/-- The word for a level. -/
def word : LogLevel → String
  | .error => "error"
  | .warn => "warn"
  | .info => "info"
  | .debug => "debug"
  | .trace => "trace"

/-- The level of exactly a word. -/
def ofWord? (s : String) : Option LogLevel := all.find? (·.word == s)

/-- The level that a user names, in either case; `warning` means `warn`. No letter outside ASCII
has a lowercase form that occurs in these words. -/
def parse? (s : String) : Option LogLevel :=
  let s := s.map Char.toLower
  if s = "warning" then some .warn else ofWord? s

/-- What a user is told who names no level. -/
def refusal (s : String) : String := "Invalid log level: " ++ s

end LogLevel

namespace LogFormat

/-- Every format. -/
def all : List LogFormat := [.json, .text, .compact, .pretty]

/-- The word for a format. -/
def word : LogFormat → String
  | .json => "json"
  | .text => "text"
  | .compact => "compact"
  | .pretty => "pretty"

/-- The format of exactly a word. -/
def ofWord? (s : String) : Option LogFormat := all.find? (·.word == s)

/-- The format that a user names, in either case. -/
def parse? (s : String) : Option LogFormat := ofWord? (s.map Char.toLower)

/-- What a user is told who names no format. -/
def refusal (s : String) : String := "Invalid log format: " ++ s

end LogFormat

end BuildWorker
