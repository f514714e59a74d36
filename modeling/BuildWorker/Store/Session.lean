import BuildWorker.Store.Basic

/-!
# Write sessions

A session writes one content piece by piece. The bytes gather in the session's buffer; when they
reach the declared size and hash to the digest, they are committed to the store and the session is
complete. A session for content that is empty or already there is complete from the start.

A complete session accepts any bytes and ignores them. Bytes that would exceed the declared size
are refused and change nothing; bytes that fill it with other content are refused and lost.
-/

namespace BuildWorker

/-- The progress of writing one content. -/
structure Session where
  /-- What is to be written. -/
  digest : Digest
  /-- The bytes gathered so far. -/
  buffer : ByteArray := .empty
  /-- Whether the content is in the store. -/
  complete : Bool
  deriving DecidableEq

namespace Session

/-- A new session on a store. -/
def start (s : Store) (d : Digest) : Session :=
  { digest := d, complete := d.isEmpty || s.contains d }

/-- How many bytes have been accepted. -/
def committed (w : Session) : Nat :=
  if w.complete then w.digest.size.toNat else w.buffer.size

/-- Ask for a byte sink, which is refused for content above the limit. -/
def openSink (w : Session) (s : Store) : Except StoreError Unit × Store :=
  if s.exceedsLimit w.digest then (.error (.entryLimit w.digest), s.record .rejected)
  else (.ok (), s)

/-- The refusal of bytes beyond the declared size. -/
def overflowError (w : Session) (data : ByteArray) : IoError :=
  .plain .invalidData
    ("write for " ++ w.digest.display ++ " would exceed declared size (" ++
      toString w.buffer.size ++ " + " ++ toString data.size ++ ")")

/-- Write bytes to a sink. -/
def append (w : Session) (s : Store) (data : ByteArray) : Except IoError Nat × Session × Store :=
  if w.complete then (.ok data.size, w, s)
  else if w.digest.size.toNat < w.buffer.size + data.size then (.error (w.overflowError data), w, s)
  else
    let content := w.buffer ++ data
    if content.size = w.digest.size.toNat then
      let actual := Digest.ofBytes content
      if actual = w.digest then
        (.ok data.size, { w with buffer := .empty, complete := true }, s.commit w.digest content)
      else
        (.error (.ofStore (.digestMismatch w.digest actual)), { w with buffer := .empty }, s)
    else (.ok data.size, { w with buffer := content }, s)

/-- Forget the bytes gathered so far; a complete session stays complete. -/
def reset (w : Session) : Session :=
  if w.complete then w else { w with buffer := .empty }

@[simp] theorem digest_append (w : Session) (s : Store) (data : ByteArray) :
    (w.append s data).2.1.digest = w.digest := by
  unfold append
  split
  · rfl
  · split
    · rfl
    · dsimp only
      split
      · split <;> rfl
      · rfl

@[simp] theorem digest_reset (w : Session) : w.reset.digest = w.digest := by
  unfold reset
  split <;> rfl

end Session

end BuildWorker
