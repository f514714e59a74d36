import BuildWorker.Capture.Outputs
import BuildWorker.Dispatch.Match
import BuildWorker.Retry.Policy
import BuildWorker.Settings.Basic

/-!
# The worker

What the stages of a worker run against: claim units of work, keep their leases alive, give them
back, capture outputs and publish results. All of it shares one clock and one interrupt. Calls
that change the backplane are retried; while they wait, leases are renewed.
-/

namespace BuildWorker

/-- A worker with its surroundings. -/
structure Worker where
  /-- What is set about it. -/
  settings : WorkerSettings
  /-- How backplane calls are retried. -/
  retry : RetryPolicy
  /-- Where units of work come from. -/
  exchange : Exchange := {}
  /-- Where content is stored. -/
  depot : Depot
  /-- The lease holders that there are. -/
  pollers : List String := []

namespace Worker

/-- The platform that units are matched against. -/
def platform (w : Worker) : Platform := w.settings.advertisedPlatform

/-- The time. -/
def now (w : Worker) : Nat := w.exchange.now

/-- Let some time pass. -/
def pass (w : Worker) (ms : Nat) : Worker := { w with exchange := w.exchange.pass ms }

/-- Interrupt the worker: matching ends, leases fail and no more outputs are captured. -/
def interrupt (w : Worker) : Worker := { w with exchange := w.exchange.interrupt }

/-! ### Units of work -/

/-- Match units of work to the worker. The given state says who listens and how the backplane
behaves. -/
def claim (w : Worker) (m : Match) : Except ExecutionError Unit × Match × Worker :=
  let (outcome, m) := Match.run { m with platform := w.platform, exchange := w.exchange }
  (outcome, m, { w with exchange := m.exchange })

/-- Give a claimed unit back early. -/
def requeue (w : Worker) (name : String) : Worker :=
  { w with exchange := w.exchange.requeue name }

/-- Forget a claimed unit. -/
def deactivate (w : Worker) (name : String) : Worker :=
  { w with exchange := w.exchange.deactivate name }

/-- The resolved operation of a unit. One that does not decode counts as absent. -/
def queuedOperation (w : Worker) (e : QueueEntry) :
    Except ExecutionError (Option QueuedOperation) × Worker :=
  let (answer, depot) := w.depot.get e.queuedOperationDigest
  (match answer with
    | .ok blob => .ok (blob.bind fun b => Message.decode? b.data)
    | .error e => .error (.store e), { w with depot })

/-! ### Leases -/

/-- The deadline of a lease holder that is given none: ten days, in milliseconds. -/
def initialDeadline : Nat := 10 * 24 * 60 * 60 * 1000

/-- Start to renew the lease on a unit, with a deadline from now, in place of what the holder did
before. -/
def resumePoller (w : Worker) (holder : String) (e : QueueEntry) (stage : ExecutionStage)
    (deadline : Nat) (watched : Bool) : Worker :=
  let errand : LeaseErrand := ⟨e, stage, 1000 * w.settings.pollTimeoutSeconds.toNat⟩
  let roster := w.exchange.roster.resume holder w.settings.pollPeriodMs.toNat (w.now + deadline)
    watched errand
  { w with
    exchange := { w.exchange with roster }
    pollers := if holder ∈ w.pollers then w.pollers else w.pollers ++ [holder] }

/-- Make a lease holder that nobody watches. -/
def createPoller (w : Worker) (holder : String) (e : QueueEntry) (stage : ExecutionStage) :
    Worker :=
  w.resumePoller holder e stage initialDeadline false

/-- Call off what a lease holder does. -/
def pausePoller (w : Worker) (holder : String) : Worker :=
  { w with exchange := { w.exchange with roster := w.exchange.roster.pause holder } }

/-- Do without a lease holder. -/
def dropPoller (w : Worker) (holder : String) : Worker :=
  { w.pausePoller holder with pollers := w.pollers.filter (· != holder) }

/-! ### Publication -/

/-- Make a call of the backplane until it succeeds, fails for good or the attempts are used up.
`position` draws where in its range each delay lies. -/
def publish {α : Type} (w : Worker) (position : Nat → Float)
    (call : Backplane → Except BackplaneError α × Backplane) :
    Except ExecutionError α × Worker :=
  let attempt (x : Exchange) : Except BackplaneError α × Exchange :=
    let (answer, backplane) := call x.backplane
    (answer, { x with backplane })
  let (answer, exchange) := w.retry.execute position attempt
    (fun delay x => x.pass delay.ceilMillis) w.exchange
  (answer.mapError RetryError.surfaced, { w with exchange })

/-- Publish an operation. Unless draws are given, delays lie in the middle of their ranges. -/
def putOperation (w : Worker) (o : Operation) (position : Nat → Float := fun _ => 0.5) :
    Except ExecutionError Bool × Worker :=
  w.publish position (·.putOperation o)

/-- Publish the result of an action. -/
def putActionResult (w : Worker) (key : ActionKey) (r : ActionResult)
    (position : Nat → Float := fun _ => 0.5) : Except ExecutionError Unit × Worker :=
  w.publish position (·.putActionResult key r)

/-- Forbid that an action runs again. -/
def blacklist (w : Worker) (action : String) (position : Nat → Float := fun _ => 0.5) :
    Except ExecutionError Unit × Worker :=
  w.publish position (·.blacklist action)

/-! ### Outputs -/

/-- How the worker captures outputs. -/
def captureSettings (w : Worker) : CaptureSettings where
  writeDeadline := w.settings.writeDeadlineSeconds.toNat
  inlineLimit := w.settings.inlineStdOutputLimit.toNat

/-- Capture the declared outputs of an action. -/
def captureOutputs (w : Worker) (top : FileTree) (root : FileTree.Place) (action : Digest)
    (result : ActionResult) (files directories : List String) :
    Except ExecutionError Unit × ActionResult × Worker :=
  let d := { w.depot with interrupted := w.exchange.interrupted }
  let (outcome, result, depot) :=
    d.captureOutputs w.captureSettings top root action result files directories
  let w := { w with depot }
  (outcome, result,
    if depot.interrupted && !w.exchange.interrupted then w.interrupt else w)

end Worker

end BuildWorker
