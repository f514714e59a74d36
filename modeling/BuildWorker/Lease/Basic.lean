/-!
# Leases

A lease is kept by renewing it again and again. One *arm* of a lease holder does this: it rests
for a period, asks for renewal, rests again. An arm ends when a renewal is refused, when its
deadline comes or when it is interrupted, and then it reports a failure; or it ends silently
because it was called off.

Times are in milliseconds.
-/

namespace BuildWorker

/-- What an attempt at renewal comes to. -/
inductive LeaseStatus
  /-- The lease is extended. -/
  | renewed
  /-- The lease is refused or has gone to another worker. -/
  | lost
  /-- There was no answer. -/
  | unreachable
  deriving DecidableEq, Repr

/-- An attempt at renewal: what it comes to, and how long that takes. -/
structure Attempt where
  /-- What it comes to. -/
  status : LeaseStatus
  /-- How long it takes. -/
  delay : Nat := 0
  deriving DecidableEq, Repr

/-- How attempts are made, on some errand and in some surroundings, both of which may change. -/
abbrev Asking (ε σ : Type) := Nat → ε → σ → Attempt × ε × σ

/-- What an arm is doing. -/
inductive Phase
  | resting (since : Nat)
  /-- It waits for an answer, which is known here already and arrives at a time. -/
  | asking (since arrival : Nat) (status : LeaseStatus)
  | ended
  deriving DecidableEq, Repr

/-- Since when a phase lasts. -/
def Phase.since : Phase → Nat
  | .resting since | .asking since _ _ => since
  | .ended => 0

/-- One arm of a lease holder. -/
structure Arm (ε : Type) where
  /-- Who holds the lease. -/
  holder : String
  /-- The time between an answer and the next attempt. -/
  period : Nat
  /-- When the arm fails at the latest. -/
  deadline : Nat
  /-- Whether somebody wants to know of its failure. -/
  watched : Bool := true
  /-- What renewal is asked for. -/
  errand : ε
  /-- What the arm is doing. -/
  phase : Phase
  /-- When attempts began, the earliest first. -/
  attempts : List Nat := []

namespace Arm

variable {ε : Type}

/-- Whether the arm has not ended. -/
def isLive (a : Arm ε) : Bool := a.phase != .ended

/-- The length of a rest. A rest takes time. -/
def rest (a : Arm ε) : Nat := max 1 a.period

/-- When the arm wants a turn for its renewal. -/
def renewalDue? (a : Arm ε) : Option Nat :=
  match a.phase with
  | .resting since => some (since + a.rest)
  | .asking _ arrival _ => some arrival
  | .ended => none

/-- When the arm wants a turn of any kind. -/
def due? (a : Arm ε) : Option Nat := a.renewalDue?.map (min a.deadline)

end Arm

end BuildWorker
