import BuildWorker.Settings.Document
import BuildWorker.Settings.Rule
import BuildWorker.Text.Number

/-!
# Loading settings

Settings come from a file, if there is one, and then from environment variables, whose names start
with the loader's own first part. What is loaded has been checked against all rules.
-/

namespace BuildWorker

/-- Why settings cannot be loaded. -/
inductive LoadError
  /-- The file cannot be read as text. -/
  | unreadable
  /-- The text is no document of settings. -/
  | malformed
  /-- An environment variable does not hold what its name asks for. -/
  | variable (name reason : String)
  /-- A rule is broken. -/
  | rule (error : RuleError)

/-- The form shown to users, where it is fixed. -/
def LoadError.display? : LoadError → Option String
  | .unreadable | .malformed => none
  | .variable name reason => some ("Environment variable error: Invalid " ++ name ++ ": " ++ reason)
  | .rule e => some e.display

namespace Settings

/-- Where a file of settings comes from. -/
inductive Source
  /-- There is no file to read. -/
  | none
  /-- A file is named that is not there. -/
  | missing
  | file (content : ByteArray)

/-- The settings of a file. -/
def ofSource (standard : Settings) : Source → Except LoadError Settings
  | .none => .ok standard
  | .missing => .error .unreadable
  | .file content =>
    match String.fromUTF8? content with
    | Option.none => .error .unreadable
    | some text =>
      match Yaml.Document.read text with
      | .error _ => .error .malformed
      | .ok d =>
        match ofDocument? d standard with
        | Option.none => .error .malformed
        | some s => .ok s

/-- An environment: the values of variables. One that is no text counts as unset. -/
abbrev Environment := List (String × ByteArray)

/-- The text of a variable. -/
def Environment.text? (e : Environment) (name : String) : Option String :=
  (e.lookup name).bind String.fromUTF8?

/-- Apply a variable, if it is set. -/
def override {α : Type} (e : Environment) (start name : String)
    (read : String → Except String α) (set : α → Settings → Settings) (s : Settings) :
    Except LoadError Settings :=
  match e.text? (start ++ "_" ++ name) with
  | Option.none => .ok s
  | some text =>
    match read text with
    | .ok a => .ok (set a s)
    | .error reason => .error (.variable name reason)

/-- Read a number of 64 bits. -/
def readUInt64 (s : String) : Except String UInt64 :=
  (Text.readUInt64 s).mapError Text.NumeralError.message

/-- Read a number of 32 bits. -/
def readUInt32 (s : String) : Except String UInt32 :=
  (Text.readUInt32 s).mapError Text.NumeralError.message

/-- Read one of some words; a text that is none of them is its own reason. -/
def readWord {α : Type} (parse? : String → Option α) (s : String) : Except String α :=
  match parse? s with
  | some a => .ok a
  | Option.none => .error s

/-- Apply the environment variables in a fixed order. -/
def applyEnvironment (e : Environment) (start : String) (s : Settings) :
    Except LoadError Settings := do
  let s ← override e start "WORKER_NAME" .ok
    (fun v s => { s with worker := { s.worker with name := v } }) s
  let s ← override e start "POLL_PERIOD_MS" readUInt64
    (fun v s => { s with worker := { s.worker with pollPeriodMs := v } }) s
  let s ← override e start "POLL_TIMEOUT_SECONDS" readUInt64
    (fun v s => { s with worker := { s.worker with pollTimeoutSeconds := v } }) s
  let s ← override e start "MAX_ENTRY_SIZE" readUInt64 (fun v s => { s with maxEntrySize := v }) s
  let s ← override e start "RETRY_MAX_ATTEMPTS" readUInt32
    (fun v s => { s with retry := { s.retry with maxAttempts := v } }) s
  let s ← override e start "LOG_LEVEL" (readWord LogLevel.parse?)
    (fun v s => { s with logging := { s.logging with level := v } }) s
  override e start "LOG_FORMAT" (readWord LogFormat.parse?)
    (fun v s => { s with logging := { s.logging with format := v } }) s

/-- The start of variable names that a loader has by itself. -/
def defaultStart : String := "KILN"

/-- Load settings. -/
def load (standard : Settings) (source : Source) (e : Environment) (start : String) :
    Except LoadError Settings := do
  let s ← ofSource standard source
  let s ← applyEnvironment e start s
  s.check.mapError .rule
  return s

end Settings

end BuildWorker
