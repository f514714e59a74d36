import BuildWorker.Digest

/-!
# Violations

While outputs are captured, what is wrong with them is collected and reported as one batch. A
violation is *invalid* when a declared output has the wrong shape, and *missing* when content
could not be made available; its subject is then the content's digest.
-/

namespace BuildWorker

/-- The kind of a violation. -/
inductive ViolationKind
  /-- A declared output has the wrong shape. -/
  | invalid
  /-- Content could not be made available. -/
  | missing
  deriving DecidableEq, Repr

namespace ViolationKind

/-- The word for a kind. -/
def word : ViolationKind → String
  | .invalid => "invalid"
  | .missing => "missing"

/-- The kind of a word. -/
def ofWord? (s : String) : Option ViolationKind := [invalid, missing].find? (·.word == s)

end ViolationKind

/-- Something wrong with an output. -/
structure Violation where
  /-- What kind of thing is wrong. -/
  kind : ViolationKind
  /-- A declared path, or `blobs/` and a digest. -/
  subject : String
  /-- An explanation for people. -/
  description : String
  deriving DecidableEq, Repr

namespace Violation

/-- Content that is larger than the store accepts. -/
def oversized (digest : Digest) : Violation where
  kind := .missing
  subject := "blobs/" ++ digest.display
  description :=
    "An output could not be uploaded because it exceeded the maximum size of an entry"

/-- A file was declared where there is a directory. -/
def fileWasDirectory (path : String) : Violation :=
  ⟨.invalid, path, "An output file was a directory"⟩

/-- A directory was declared where there is something else. -/
def directoryWasFile (path : String) : Violation :=
  ⟨.invalid, path, "An output directory was not a directory"⟩

/-- The form shown to users. -/
def display (v : Violation) : String := v.kind.word ++ " " ++ v.subject ++ ": " ++ v.description

end Violation

/-- Violations in the order in which they were found. -/
structure PreconditionFailure where
  violations : List Violation := []
  deriving DecidableEq, Repr

/-- The form shown to users. -/
def PreconditionFailure.display (f : PreconditionFailure) : String :=
  "; ".intercalate (f.violations.map Violation.display)

instance : Message ViolationKind where
  toJson k := .text k.word
  ofJson? j := do ViolationKind.ofWord? (← Message.word? j)

instance : Message Violation where
  toJson v := .record [("type", toJson v.kind), ("subject", toJson v.subject),
    ("description", toJson v.description)]
  ofJson? j := do
    let [kind, subject, description] ← Message.fields? ["type", "subject", "description"] j | none
    return ⟨← Message.required? kind, ← Message.required? subject, ← Message.required? description⟩

instance : Message PreconditionFailure where
  toJson f := .record [("violations", toJson f.violations)]
  ofJson? j := do
    let [violations] ← Message.fields? ["violations"] j | none
    return ⟨← Message.required? violations⟩

end BuildWorker
