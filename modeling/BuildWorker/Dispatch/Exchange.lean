import BuildWorker.Dispatch.Backplane
import BuildWorker.Dispatch.Registry
import BuildWorker.Lease.Roster

/-!
# The exchange

Where a worker gets its units of work and gives them back: the backplane, the registry of what is
claimed, and the roster of the arms that renew leases. Whenever the worker waits, the roster's
time passes and leases are renewed meanwhile. An alarm may be set that interrupts everything at a
given time.
-/

namespace BuildWorker

/-- What a lease arm asks the backplane for. -/
structure LeaseErrand where
  /-- The unit of work. -/
  entry : QueueEntry
  /-- The stage that the unit is in. -/
  stage : ExecutionStage
  /-- How long an answer may take, and by how much the lease is to be extended. -/
  timeout : Nat

/-- What an answer means to the arm that waits for it no longer than a timeout. -/
def PollAnswer.attempt (a : PollAnswer) (timeout : Nat) : Attempt :=
  if timeout < a.latency then ⟨.unreachable, timeout⟩
  else match a.result with
    | .ok true => ⟨.renewed, a.latency⟩
    | .ok false => ⟨.lost, a.latency⟩
    | .error _ => ⟨.unreachable, a.latency⟩

/-- Ask the backplane. -/
def LeaseErrand.ask : Asking LeaseErrand Backplane := fun now errand b =>
  let (answer, b) := b.poll errand.entry errand.stage errand.timeout now
  (answer.attempt errand.timeout, errand, b)

/-- A worker's dealings with units of work. -/
structure Exchange where
  /-- The lease arms and the clock. -/
  roster : Roster LeaseErrand := {}
  /-- Where units come from. -/
  backplane : Backplane := {}
  /-- The units that are claimed. -/
  registry : Registry := {}
  /-- When an interrupt will come. -/
  alarm : Option Nat := none

namespace Exchange

/-- The time. -/
def now (x : Exchange) : Nat := x.roster.now

/-- Whether the worker is interrupted. -/
def interrupted (x : Exchange) : Bool := x.roster.interrupted

/-- Interrupt the worker. -/
def interrupt (x : Exchange) : Exchange := { x with roster := x.roster.interrupt, alarm := none }

/-- Let time pass up to an instant while nothing but renewals happens. -/
def advanceTo (x : Exchange) (target : Nat) : Exchange :=
  let (roster, backplane) := x.roster.advanceTo LeaseErrand.ask Roster.inTurn target x.backplane
  { x with roster, backplane }

/-- Wait for an instant, or for the alarm if that comes first. -/
def waitUntil (x : Exchange) (target : Nat) : Exchange :=
  match x.alarm with
  | none => x.advanceTo target
  | some alarm => if alarm ≤ target then (x.advanceTo alarm).interrupt else x.advanceTo target

/-- Let some time pass. -/
def pass (x : Exchange) (ms : Nat) : Exchange :=
  let target := x.now + ms
  (x.waitUntil target).advanceTo target

/-- Give a claimed unit back early: the backplane is told that it is queued again. If the
backplane does not answer, the lease will run out some time. -/
def requeue (x : Exchange) (name : String) : Exchange :=
  match x.registry.get? name with
  | none => x
  | some e =>
    let (answer, backplane) := x.backplane.poll e .queued 0 x.now
    { x with registry := x.registry.erase name, backplane }.pass answer.latency

/-- Forget a claimed unit. -/
def deactivate (x : Exchange) (name : String) : Exchange :=
  { x with registry := x.registry.erase name }

/-! ### What waiting leaves alone -/

@[simp] theorem queue_poll (b : Backplane) (e : QueueEntry) (stage : ExecutionStage)
    (extendBy now : Nat) : (b.poll e stage extendBy now).2.queue = b.queue := by
  rw [Backplane.poll_eq]

@[simp] theorem queue_advanceTo (x : Exchange) (target : Nat) :
    (x.advanceTo target).backplane.queue = x.backplane.queue :=
  Roster.advanceTo_induction (motive := fun b : Backplane => b.queue = x.backplane.queue) _ _ _
    (fun now errand b h => by simpa [LeaseErrand.ask] using h) _ _ rfl

@[simp] theorem queue_waitUntil (x : Exchange) (target : Nat) :
    (x.waitUntil target).backplane.queue = x.backplane.queue := by
  unfold waitUntil
  split
  · simp
  · split <;> simp [interrupt]

@[simp] theorem queue_pass (x : Exchange) (ms : Nat) :
    (x.pass ms).backplane.queue = x.backplane.queue := by
  simp [pass]

@[simp] theorem queue_requeue (x : Exchange) (name : String) :
    (x.requeue name).backplane.queue = x.backplane.queue := by
  unfold requeue
  split <;> simp

end Exchange

end BuildWorker
