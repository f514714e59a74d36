import BuildWorker.Action
import BuildWorker.Failure
import BuildWorker.Operation

/-!
# The backplane

The backplane hands out units of work, takes them back, renews leases on them and keeps what
workers publish. This one is held in memory: it serves a queue in order, can be told to fail, and
records what it is asked. A rejected unit is recorded and not queued again, so nobody sees it
twice.
-/

namespace BuildWorker

/-- A lease renewal that was asked for. -/
structure LeasePoll where
  /-- The unit of work. -/
  name : String
  /-- The stage in which the unit is said to be. -/
  stage : ExecutionStage
  /-- By how many milliseconds the lease is to be extended. -/
  extendBy : Nat
  /-- When it was asked for. -/
  time : Nat
  deriving DecidableEq, Repr

/-- What the backplane will say to a lease renewal. -/
structure PollAnswer where
  /-- Whether the lease is renewed. -/
  result : Except BackplaneError Bool := .ok true
  /-- How many milliseconds the answer takes. -/
  latency : Nat := 0

/-- A backplane in memory. -/
structure Backplane where
  /-- Units of work that wait, the next one first. -/
  queue : List QueueEntry := []
  /-- What the next requests for work fail with. -/
  dispatchFailures : List BackplaneError := []
  /-- What the next rejections fail with. -/
  rejectFailures : List BackplaneError := []
  /-- What the next renewals are answered. -/
  pollAnswers : List PollAnswer := []
  /-- What the next publications fail with. -/
  mutationFailures : List BackplaneError := []
  /-- The units that workers wanted to give back. -/
  rejectCalls : List String := []
  /-- The units given back. -/
  rejected : List QueueEntry := []
  /-- The renewals asked for. -/
  polls : List LeasePoll := []
  /-- Published operations by name. -/
  operations : List (String × Operation) := []
  actionResults : List (ActionKey × ActionResult) := []
  /-- Actions that must not run again. -/
  blacklisted : List String := []
  /-- How many publications were attempted. -/
  mutationCalls : Nat := 0

namespace Backplane

/-- Queue a unit of work. -/
def enqueue (b : Backplane) (e : QueueEntry) : Backplane := { b with queue := b.queue ++ [e] }

/-- Hand out the next unit of work, if one waits. -/
def dispatch (b : Backplane) : Except BackplaneError (Option QueueEntry) × Backplane :=
  match b.dispatchFailures, b.queue with
  | e :: rest, _ => (.error e, { b with dispatchFailures := rest })
  | [], [] => (.ok none, b)
  | [], e :: rest => (.ok (some e), { b with queue := rest })

/-- Take a unit of work back. -/
def reject (b : Backplane) (e : QueueEntry) : Except BackplaneError Unit × Backplane :=
  let b := { b with rejectCalls := b.rejectCalls ++ [e.name] }
  match b.rejectFailures with
  | failure :: rest => (.error failure, { b with rejectFailures := rest })
  | [] => (.ok (), { b with rejected := b.rejected ++ [e] })

/-- Renew the lease on a unit of work. The request is recorded before it is answered. -/
def poll (b : Backplane) (e : QueueEntry) (stage : ExecutionStage) (extendBy now : Nat) :
    PollAnswer × Backplane :=
  let b := { b with polls := b.polls ++ [LeasePoll.mk e.name stage extendBy now] }
  match b.pollAnswers with
  | answer :: rest => (answer, { b with pollAnswers := rest })
  | [] => ({}, b)

/-- A renewal is recorded and takes the next answer. -/
theorem poll_eq (b : Backplane) (e : QueueEntry) (stage : ExecutionStage) (extendBy now : Nat) :
    b.poll e stage extendBy now = (b.pollAnswers.headD {},
      { b with
        polls := b.polls ++ [⟨e.name, stage, extendBy, now⟩]
        pollAnswers := b.pollAnswers.drop 1 }) := by
  unfold poll
  dsimp only
  split
  next answers => rw [answers, List.headD_cons, List.drop_one, List.tail_cons]
  next answers => rw [answers, List.headD_nil, List.drop_nil]

/-- Set the value under a key. -/
def assign {κ α : Type} [DecidableEq κ] (key : κ) (a : α) : List (κ × α) → List (κ × α)
  | [] => [(key, a)]
  | (k, b) :: rest => if k = key then (key, a) :: rest else (k, b) :: assign key a rest

/-- Make a publication, which may have to fail first. -/
def publish {α : Type} (b : Backplane) (result : α) (change : Backplane → Backplane) :
    Except BackplaneError α × Backplane :=
  let b := { b with mutationCalls := b.mutationCalls + 1 }
  match b.mutationFailures with
  | e :: rest => (.error e, { b with mutationFailures := rest })
  | [] => (.ok result, change b)

/-- Publish an operation. -/
def putOperation (b : Backplane) (o : Operation) : Except BackplaneError Bool × Backplane :=
  b.publish true fun b => { b with operations := assign o.name o b.operations }

/-- Publish the result of an action. -/
def putActionResult (b : Backplane) (key : ActionKey) (r : ActionResult) :
    Except BackplaneError Unit × Backplane :=
  b.publish () fun b => { b with actionResults := assign key r b.actionResults }

/-- Forbid that an action runs again. -/
def blacklist (b : Backplane) (action : String) : Except BackplaneError Unit × Backplane :=
  b.publish () fun b => { b with blacklisted := b.blacklisted ++ [action] }

end Backplane

end BuildWorker
