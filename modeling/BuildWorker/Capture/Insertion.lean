import BuildWorker.Capture.Depot

/-!
# Storing one file

A file's content is streamed into the store through a write session of its own. Content that is
there already is not written, and empty content needs no place. What goes wrong after the session
is complete does not matter.
-/

namespace BuildWorker

/-- What a failed write means to an execution. A refusal for size is kept apart. -/
def ExecutionError.ofWrite (e : IoError) : ExecutionError :=
  match e.store? with
  | some (.entryLimit digest) => .store (.entryLimit digest)
  | _ => .io e

/-- How many bytes are read from a file at a time. -/
def pieceSize : Nat := 8192

/-- Content in pieces, from a position on. -/
def piecesFrom (content : ByteArray) (start : Nat) : List ByteArray :=
  if start < content.size then
    content.extract start (start + pieceSize) :: piecesFrom content (start + pieceSize)
  else []
termination_by content.size - start
decreasing_by simp only [pieceSize]; omega

namespace Depot

/-- Stream content into a session. -/
def stream (d : Depot) (deadline : Nat) (w : Session) (content : ByteArray) :
    Option ExecutionError × Session × Depot :=
  match Sink.openFor w deadline d with
  | (.error e, d) => (some (.store e), w, d)
  | (.ok k, d) =>
    if d.interrupted then (some .interrupted, w, d)
    else
      match k.writePieces d (piecesFrom content 0) with
      | (.hung, k, d) => (some .interrupted, k.session, d)
      | (.failed e, k, d) => (some (.ofWrite e), k.session, d)
      | (.written, k, d) =>
        let (error, d) := k.shutdown d
        (error.map .ofWrite, k.session, d)

/-- Write content to a session that is held, unless it is complete. -/
def fill (d : Depot) (deadline : Nat) (w : Session) (content : ByteArray) :
    Except ExecutionError Unit × Depot :=
  if w.complete then (.ok (), d)
  else
    match d.stream deadline w content with
    | (none, _, d) => (.ok (), d)
    | (some e, w, d) =>
      if w.complete then (.ok (), d) else (.error e, d.record (.reset w.committed))

/-- Store content under its digest. -/
def insert (d : Depot) (deadline : Nat) (digest : Digest) (content : ByteArray) :
    Except ExecutionError Unit × Depot :=
  if digest.isEmpty then (.ok (), d)
  else
    match d.openSession digest with
    | (.error e, d) => (.error (.store e), d)
    | (.ok w, d) =>
      let (answer, d) := d.fill deadline w content
      (answer, d.letGo)

end Depot

end BuildWorker
