import BuildWorker.Violation

/-!
# What can go wrong

The failures of the parts of a worker, each with its wording: the backplane, the content store,
input and output, and the execution as a whole, which wraps the others. A store failure can travel
through a byte sink as an input/output failure; `IoError.ofStore` says what it looks like there.
-/

namespace BuildWorker

/-! ### The backplane -/

/-- How a backplane call failed. -/
inductive BackplaneErrorKind
  | unavailable
  | connectionReset
  | deadlineExceeded
  | notFound
  | invalidArgument
  | internal
  deriving DecidableEq, Repr

namespace BackplaneErrorKind

/-- Every kind. -/
def all : List BackplaneErrorKind :=
  [.unavailable, .connectionReset, .deadlineExceeded, .notFound, .invalidArgument, .internal]

/-- The words for a kind. -/
def words : BackplaneErrorKind → String
  | .unavailable => "unavailable"
  | .connectionReset => "connection reset"
  | .deadlineExceeded => "deadline exceeded"
  | .notFound => "not found"
  | .invalidArgument => "invalid argument"
  | .internal => "internal"

/-- The kind that some words name. -/
def ofWords? (s : String) : Option BackplaneErrorKind := all.find? (·.words == s)

end BackplaneErrorKind

/-- A failed backplane call. -/
structure BackplaneError where
  /-- How it failed. -/
  kind : BackplaneErrorKind
  /-- What the backplane said. -/
  message : String
  deriving DecidableEq, Repr

namespace BackplaneError

/-- The form shown to users. -/
def display (e : BackplaneError) : String := "backplane " ++ e.kind.words ++ ": " ++ e.message

/-- Whether the backplane could not be reached at all. -/
def isUnavailable (e : BackplaneError) : Bool := e.kind == .unavailable

/-- Whether the same call may succeed later. -/
def isRetryable (e : BackplaneError) : Bool :=
  match e.kind with
  | .unavailable | .connectionReset | .deadlineExceeded => true
  | .notFound | .invalidArgument | .internal => false

end BackplaneError

/-! ### Input and output -/

/-- The kind of an input/output failure. -/
inductive IoKind
  | notFound
  | permissionDenied
  | connectionRefused
  | connectionReset
  | connectionAborted
  | notConnected
  | brokenPipe
  | alreadyExists
  | wouldBlock
  | invalidInput
  | invalidData
  | timedOut
  | writeZero
  | interrupted
  | unsupported
  | unexpectedEof
  | outOfMemory
  | other
  deriving DecidableEq, Repr

namespace IoKind

/-- Every kind. -/
def all : List IoKind :=
  [.notFound, .permissionDenied, .connectionRefused, .connectionReset, .connectionAborted,
    .notConnected, .brokenPipe, .alreadyExists, .wouldBlock, .invalidInput, .invalidData, .timedOut,
    .writeZero, .interrupted, .unsupported, .unexpectedEof, .outOfMemory, .other]

/-- The word for a kind. -/
def word : IoKind → String
  | .notFound => "NotFound"
  | .permissionDenied => "PermissionDenied"
  | .connectionRefused => "ConnectionRefused"
  | .connectionReset => "ConnectionReset"
  | .connectionAborted => "ConnectionAborted"
  | .notConnected => "NotConnected"
  | .brokenPipe => "BrokenPipe"
  | .alreadyExists => "AlreadyExists"
  | .wouldBlock => "WouldBlock"
  | .invalidInput => "InvalidInput"
  | .invalidData => "InvalidData"
  | .timedOut => "TimedOut"
  | .writeZero => "WriteZero"
  | .interrupted => "Interrupted"
  | .unsupported => "Unsupported"
  | .unexpectedEof => "UnexpectedEof"
  | .outOfMemory => "OutOfMemory"
  | .other => "Other"

/-- The kind of a word; an unknown word means another kind. -/
def ofWord (s : String) : IoKind := (all.find? (·.word == s)).getD .other

end IoKind

/-! ### The content store -/

/-- A failed store call. -/
inductive StoreError
  /-- The content is larger than the store accepts. -/
  | entryLimit (digest : Digest)
  /-- The content is not there. -/
  | notFound (digest : Digest)
  /-- The bytes written are not those that the digest names. -/
  | digestMismatch (expected actual : Digest)
  /-- A sink did not become ready in time. -/
  | deadlineExceeded (digest : Digest)
  /-- The write was given up. -/
  | cancelled
  /-- Input or output failed below the store. -/
  | io (kind : IoKind) (message : String)
  deriving DecidableEq

/-- The form shown to users. -/
def StoreError.display : StoreError → String
  | .entryLimit d => "entry " ++ d.display ++ " exceeds the maximum entry size"
  | .notFound d => "blob " ++ d.display ++ " not found"
  | .digestMismatch expected actual =>
    "content does not match digest " ++ expected.display ++ ": got " ++ actual.display
  | .deadlineExceeded d => "deadline exceeded waiting for write " ++ d.display
  | .cancelled => "write cancelled"
  | .io _ message => "I/O error: " ++ message

/-- The word for what failed. -/
def StoreError.word : StoreError → String
  | .entryLimit _ => "EntryLimit"
  | .notFound _ => "NotFound"
  | .digestMismatch _ _ => "DigestMismatch"
  | .deadlineExceeded _ => "DeadlineExceeded"
  | .cancelled => "Cancelled"
  | .io _ _ => "Io"

/-- A failed read or write of bytes. -/
inductive IoError
  /-- A failure with its own message. -/
  | plain (kind : IoKind) (message : String)
  /-- A failure reported by the operating system, in its own words. -/
  | system (kind : IoKind)
  /-- A store failure that came through a byte sink. -/
  | store (error : StoreError)
  deriving DecidableEq

namespace IoError

/-- What a store failure looks like to the writer of bytes. -/
def ofStore : StoreError → IoError
  | .io kind message => .plain kind message
  | e => .store e

/-- The kind of the failure. -/
def kind : IoError → IoKind
  | .plain kind _ => kind
  | .system kind => kind
  | .store (.deadlineExceeded _) => .timedOut
  | .store .cancelled => .interrupted
  | .store (.io kind _) => kind
  | .store _ => .other

/-- The message; the operating system's own words are not fixed here. -/
def message : IoError → String
  | .plain _ message => message
  | .system _ => ""
  | .store e => e.display

/-- The store failure inside, if there is one. -/
def store? : IoError → Option StoreError
  | .store e => some e
  | _ => none

end IoError

/-! ### Execution -/

/-- A failure in computing or reading digests and messages. -/
inductive ContentError
  /-- Content could not be read. -/
  | io (error : IoError)
  | invalidDigest (text : String)
  deriving DecidableEq

/-- The form shown to users. -/
def ContentError.display : ContentError → String
  | .io e => "I/O error: " ++ e.message
  | .invalidDigest s => "Invalid digest: " ++ s

/-- A failure of the execution of a unit of work. -/
inductive ExecutionError
  /-- A backplane call failed. -/
  | backplane (error : BackplaneError)
  /-- A store call failed. -/
  | store (error : StoreError)
  /-- Content could not be digested. -/
  | content (error : ContentError)
  /-- Reading or writing bytes failed. -/
  | io (error : IoError)
  /-- Outputs could not be captured as declared. -/
  | precondition (action : Digest) (failure : PreconditionFailure)
  /-- The worker was interrupted. -/
  | interrupted
  deriving DecidableEq

namespace ExecutionError

/-- The form shown to users. -/
def display : ExecutionError → String
  | .backplane e => "Backplane error: " ++ e.display
  | .store e => "CAS error: " ++ e.display
  | .content e => "Core error: " ++ e.display
  | .io e => "I/O error: " ++ e.message
  | .precondition action failure =>
    "Precondition failure for action " ++ action.display ++ ": " ++ failure.display
  | .interrupted => "Interrupted"

/-- The word for the part that failed. -/
def word : ExecutionError → String
  | .backplane _ => "Backplane"
  | .store _ => "Cas"
  | .content _ => "Core"
  | .io _ => "Io"
  | .precondition _ _ => "PreconditionFailure"
  | .interrupted => "Interrupted"

/-- The violations, if these are what went wrong. -/
def violations? : ExecutionError → Option (List Violation)
  | .precondition _ failure => some failure.violations
  | _ => none

end ExecutionError

end BuildWorker
