import BuildWorker.Store.Session

/-!
# The writing desk

Many writers share a store. Sessions are identified by the digest and a session number; whoever
opens the same pair while a session is open joins it. Writers hold sessions by handles and write
to them by sinks, both of which have names here.

The desk remembers an open session only as long as some handle holds it and it is not complete.
A sink keeps a session's bytes, so writing to it goes on when all handles are gone, but the next
writer who opens the pair starts anew.
-/

namespace BuildWorker

/-- What identifies a session to writers. -/
structure SessionKey where
  /-- The content to write. -/
  digest : Digest
  /-- The writer's own number. -/
  number : Nat
  deriving DecidableEq

/-- A store with the sessions on it. -/
structure Desk where
  store : Store
  /-- Every session opened so far, at its position. -/
  sessions : List Session := []
  /-- Sessions that can be joined. -/
  joinable : List (SessionKey × Nat) := []
  /-- Which session a handle holds. -/
  handles : List (String × Nat) := []
  /-- Which session a sink writes to. -/
  sinks : List (String × Nat) := []

namespace Desk

/-- A desk on a new store. -/
def ofLimit (limit : UInt64) : Desk := { store := .ofLimit limit }

/-- Set the value under a name. -/
def assign {α : Type} (name : String) (a : α) (table : List (String × α)) : List (String × α) :=
  (name, a) :: table.filter (·.1 != name)

/-- Drop the value under a name. -/
def unassign {α : Type} (name : String) (table : List (String × α)) : List (String × α) :=
  table.filter (·.1 != name)

/-- The session at a position. -/
def session? (d : Desk) (i : Nat) : Option Session := d.sessions[i]?

/-- The session that a handle holds. -/
def held? (d : Desk) (handle : String) : Option (Nat × Session) := do
  let i ← d.handles.lookup handle
  return (i, ← d.session? i)

/-- Whether a session can still be joined. -/
def isOpen (d : Desk) (i : Nat) : Bool :=
  d.handles.any (·.2 == i) && (d.session? i).any fun w => !w.complete

/-- Forget the sessions that cannot be joined any more. -/
def prune (d : Desk) : Desk :=
  { d with joinable := d.joinable.filter fun (_, i) => d.isOpen i }

/-- Open a session and hold it by a handle, which lets go of what it held. -/
def openSession (d : Desk) (handle : String) (key : SessionKey) : Desk :=
  let d := d.prune
  match d.joinable.lookup key with
  | some i => { d with handles := assign handle i d.handles }
  | none =>
    let w := Session.start d.store key.digest
    let i := d.sessions.length
    { d with
      sessions := d.sessions ++ [w]
      joinable := if w.complete then d.joinable else (key, i) :: d.joinable
      handles := assign handle i d.handles }

/-- Ask for a sink of a handle's session; a refusal leaves the named sink as it was. -/
def openSink (d : Desk) (sink handle : String) : Option (Except StoreError Unit) × Desk :=
  match d.held? handle with
  | none => (none, d)
  | some (i, w) =>
    let (answer, store) := w.openSink d.store
    match answer with
    | .ok () => (some answer, { d with store, sinks := assign sink i d.sinks })
    | .error _ => (some answer, { d with store })

/-- Write bytes to a sink. -/
def write (d : Desk) (sink : String) (data : ByteArray) : Option (Except IoError Nat) × Desk :=
  match d.sinks.lookup sink with
  | none => (none, d)
  | some i =>
    match d.session? i with
    | none => (none, d)
    | some w =>
      let (answer, w, store) := w.append d.store data
      (some answer, { d with store, sessions := d.sessions.set i w })

/-- Forget the bytes of a handle's session. -/
def reset (d : Desk) (handle : String) : Desk :=
  match d.held? handle with
  | none => d
  | some (i, w) => { d with sessions := d.sessions.set i w.reset }

/-- Let go of a handle. -/
def dropHandle (d : Desk) (handle : String) : Bool × Desk :=
  ((d.handles.lookup handle).isSome, { d with handles := unassign handle d.handles })

/-- Let go of a sink. -/
def dropSink (d : Desk) (sink : String) : Bool × Desk :=
  ((d.sinks.lookup sink).isSome, { d with sinks := unassign sink d.sinks })

/-- How many sessions can be joined. -/
def activeWrites (d : Desk) : Nat × Desk :=
  let d := d.prune
  (d.joinable.length, d)

/-- Store a blob. -/
def put (d : Desk) (b : Blob) : Except StoreError Unit × Desk :=
  let (answer, store) := d.store.put b
  (answer, { d with store })

/-- Request the content under a digest. -/
def get (d : Desk) (digest : Digest) : Option Blob × Desk :=
  let (answer, store) := d.store.get digest
  (answer, { d with store })

end Desk

end BuildWorker
