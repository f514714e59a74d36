import BuildWorker.Store.Session

/-!
# The store as a capture sees it

A depot is a store whose calls are recorded and can be made to fail. A failure is scripted for the
n-th call of its kind, and one of a byte sink for the n-th sink; either may interrupt the worker.
A depot without scripted failures does what its store does.
-/

namespace BuildWorker

/-- A call of a store, or of a write session on it. -/
inductive StoreCall
  /-- Open a write session. -/
  | getWrite (digest : Digest)
  /-- Ask a session for a byte sink, waiting for some seconds at most. -/
  | getOutput (deadline : Nat)
  /-- Close a byte sink. -/
  | shutdown
  /-- Give up a session after so many bytes. -/
  | reset (committed : Nat)
  /-- Store a blob. -/
  | put (digest : Digest)
  /-- Request content. -/
  | get (digest : Digest)
  deriving DecidableEq

/-- The kinds of calls that can be made to fail. -/
inductive StoreCallKind
  | getWrite
  | getOutput
  | put
  | get
  deriving DecidableEq, Repr

namespace StoreCall

/-- The kind of a call, if it can be made to fail. -/
def kind? : StoreCall → Option StoreCallKind
  | .getWrite _ => some .getWrite
  | .getOutput _ => some .getOutput
  | .put _ => some .put
  | .get _ => some .get
  | .shutdown | .reset _ => none

/-- The form shown to users. -/
def display : StoreCall → String
  | .getWrite d => "get_write " ++ d.display
  | .getOutput deadline => "get_output " ++ toString deadline ++ "s"
  | .shutdown => "shutdown"
  | .reset committed => "reset at " ++ toString committed
  | .put d => "put " ++ d.display
  | .get d => "get " ++ d.display

end StoreCall

/-- A scripted failure of a call. -/
structure CallFault where
  kind : StoreCallKind
  /-- Its number among the calls of the kind, from one. -/
  number : Nat
  /-- What the call fails with; otherwise it goes on. -/
  error : Option StoreError := none
  /-- Whether the worker is interrupted. -/
  interrupts : Bool := false
  deriving DecidableEq

/-- When a byte sink fails. -/
inductive SinkMoment
  /-- At the first write, with no byte stored. -/
  | before
  /-- At the first write, with half of its bytes stored. -/
  | half
  /-- At the first write, with all of its bytes stored. -/
  | after
  /-- When it is closed. -/
  | shutdown
  /-- Never: its first write interrupts the worker and does not end. -/
  | hang
  deriving DecidableEq, Repr

/-- A scripted failure of a byte sink. -/
structure SinkFault where
  /-- The number of the sink, from one. -/
  number : Nat
  /-- When it fails. -/
  moment : SinkMoment
  /-- What it fails with. -/
  error : StoreError
  deriving DecidableEq

/-- A store with scripted failures and a record of calls. -/
structure Depot where
  store : Store
  /-- Whether the worker is interrupted. -/
  interrupted : Bool := false
  /-- Failures to come of calls. -/
  callFaults : List CallFault := []
  /-- Failures to come of sinks. -/
  sinkFaults : List SinkFault := []
  calls : List StoreCall := []
  /-- The sinks handed out so far. -/
  sinks : Nat := 0
  /-- How many write sessions are held. -/
  writers : Nat := 0

namespace Depot

/-- A depot on a store. -/
def ofStore (store : Store) : Depot := { store }

/-- How many calls of a kind there were. -/
def count (d : Depot) (kind : StoreCallKind) : Nat := d.calls.countP (·.kind? == some kind)

/-- Record a call. -/
def record (d : Depot) (c : StoreCall) : Depot := { d with calls := d.calls ++ [c] }

/-- Interrupt the worker. -/
def interrupt (d : Depot) : Depot := { d with interrupted := true }

/-- Make a call as far as its scripted failure goes. -/
def begin (d : Depot) (c : StoreCall) : Option StoreError × Depot :=
  let d := d.record c
  match d.callFaults.find? fun f => some f.kind == c.kind? && f.number == d.count f.kind with
  | none => (none, d)
  | some f => (f.error, if f.interrupts then d.interrupt else d)

/-- Store a blob. -/
def put (d : Depot) (b : Blob) : Except StoreError Unit × Depot :=
  match d.begin (.put b.digest) with
  | (some e, d) => (.error e, d)
  | (none, d) =>
    let (answer, store) := d.store.put b
    (answer, { d with store })

/-- Request the content under a digest. -/
def get (d : Depot) (digest : Digest) : Except StoreError (Option Blob) × Depot :=
  match d.begin (.get digest) with
  | (some e, d) => (.error e, d)
  | (none, d) =>
    let (found, store) := d.store.get digest
    (.ok found, { d with store })

/-- Hold one more write session. -/
def hold (d : Depot) : Depot := { d with writers := d.writers + 1 }

/-- Let go of a write session. -/
def letGo (d : Depot) : Depot := { d with writers := d.writers - 1 }

/-- Open a write session of one's own, and hold it. -/
def openSession (d : Depot) (digest : Digest) : Except StoreError Session × Depot :=
  match d.begin (.getWrite digest) with
  | (some e, d) => (.error e, d)
  | (none, d) => (.ok (.start d.store digest), d.hold)

end Depot

/-- A byte sink of a session, with a failure to come. -/
structure Sink where
  /-- The session that the bytes go to. -/
  session : Session
  /-- The failure to come. -/
  fault : Option SinkFault := none

/-- How a write ends. -/
inductive WriteEnd
  /-- All bytes are taken. -/
  | written
  /-- The write failed. -/
  | failed (error : IoError)
  /-- The write does not end. -/
  | hung
  deriving DecidableEq

namespace Sink

/-- Ask a session for a sink. -/
def openFor (w : Session) (deadline : Nat) (d : Depot) : Except StoreError Sink × Depot :=
  match d.begin (.getOutput deadline) with
  | (some e, d) => (.error e, d)
  | (none, d) =>
    let (answer, store) := w.openSink d.store
    let d := { d with store }
    match answer with
    | .error e => (.error e, d)
    | .ok () =>
      let number := d.sinks + 1
      (.ok { session := w, fault := d.sinkFaults.find? (·.number == number) },
        { d with sinks := number })

/-- Write bytes that do not fail by script. -/
def append (k : Sink) (d : Depot) (data : ByteArray) : WriteEnd × Sink × Depot :=
  let (answer, session, store) := k.session.append d.store data
  (match answer with
    | .ok _ => .written
    | .error e => .failed e, { k with session }, { d with store })

/-- Write the first bytes and then fail. -/
def appendThenFail (k : Sink) (d : Depot) (data : ByteArray) (n : Nat) (error : StoreError) :
    WriteEnd × Sink × Depot :=
  match k.append d (data.extract 0 n) with
  | (.written, k, d) => (.failed (.ofStore error), k, d)
  | other => other

/-- Write bytes. -/
def write (k : Sink) (d : Depot) (data : ByteArray) : WriteEnd × Sink × Depot :=
  match k.fault with
  | none => k.append d data
  | some f =>
    let spent := { k with fault := none }
    match f.moment with
    | .before => (.failed (.ofStore f.error), spent, d)
    | .half => spent.appendThenFail d data (data.size / 2) f.error
    | .after => spent.appendThenFail d data data.size f.error
    | .hang => (.hung, spent, d.interrupt)
    | .shutdown => k.append d data

/-- Write bytes, once more if the first attempt is interrupted by a signal. -/
def writeAgain (k : Sink) (d : Depot) (data : ByteArray) : WriteEnd × Sink × Depot :=
  match k.write d data with
  | (.failed e, k, d) => if e.kind = .interrupted then k.write d data else (.failed e, k, d)
  | other => other

/-- Write pieces up to the first that fails. -/
def writePieces (k : Sink) (d : Depot) : List ByteArray → WriteEnd × Sink × Depot
  | [] => (.written, k, d)
  | piece :: rest =>
    match k.writeAgain d piece with
    | (.written, k, d) => writePieces k d rest
    | other => other

/-- Close the sink. -/
def shutdown (k : Sink) (d : Depot) : Option IoError × Depot :=
  let error := match k.fault with
    | some f => if f.moment = .shutdown then some (.ofStore f.error) else none
    | none => none
  (error, d.record .shutdown)

end Sink

end BuildWorker
