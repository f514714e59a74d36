import BuildWorker.Lease.Basic

/-!
# The roster of arms

All arms that were ever started, with the clock they share. Time passes in steps from one due
instant to the next; at each, arms take turns. An arm has two tasks that want turns, its renewal
and its expiry, and a task that finds nothing to do passes. The order of turns at one instant is
a parameter, since nothing should depend on it; `Roster.inTurn` is the usual one.

An interrupt fails every live arm and also every arm that is started later.
-/

namespace BuildWorker

/-- A task of an arm. -/
inductive ArmTask
  /-- Ask for renewal, or take the answer. -/
  | renewal
  /-- Look at the deadline. -/
  | expiry
  deriving DecidableEq, Repr

/-- The turn of a task of the arm at a position. -/
structure Turn where
  /-- The position of the arm. -/
  position : Nat
  task : ArmTask
  deriving DecidableEq, Repr

/-- The arms and their clock. -/
structure Roster (ε : Type) where
  /-- The time. -/
  now : Nat := 0
  /-- Whether everything was interrupted. -/
  interrupted : Bool := false
  /-- Every arm ever started, the earliest first. -/
  arms : List (Arm ε) := []
  /-- The failures reported: the position of the arm and the time. -/
  reports : List (Nat × Nat) := []

namespace Roster

variable {ε σ : Type}

/-- Let the arm at a position, if it is live, end with a failure. -/
def fail (r : Roster ε) (i : Nat) : Roster ε :=
  match r.arms[i]? with
  | none => r
  | some a =>
    if a.isLive then
      { r with
        arms := r.arms.set i { a with phase := .ended }
        reports := r.reports ++ [(i, r.now)] }
    else r

/-- Put an arm in its place once it has an answer. -/
def answer (r : Roster ε) (i : Nat) (a : Arm ε) (status : LeaseStatus) : Roster ε :=
  let r := { r with arms := r.arms.set i { a with phase := .resting r.now } }
  if status = .lost then r.fail i else r

/-- Give a task its turn. -/
def turn (ask : Asking ε σ) (t : Turn) (r : Roster ε) (s : σ) : Roster ε × σ :=
  match r.arms[t.position]? with
  | none => (r, s)
  | some a =>
    match t.task, a.phase with
    | _, .ended => (r, s)
    | .expiry, _ => (if a.deadline ≤ r.now then r.fail t.position else r, s)
    | .renewal, .resting since =>
      if r.now < since + a.rest then (r, s)
      else
        let (attempt, errand, s) := ask r.now a.errand s
        let a := { a with errand, attempts := a.attempts ++ [r.now] }
        if attempt.delay = 0 then (r.answer t.position a attempt.status, s)
        else
          let phase := Phase.asking r.now (r.now + attempt.delay) attempt.status
          ({ r with arms := r.arms.set t.position { a with phase } }, s)
    | .renewal, .asking _ arrival status =>
      (if r.now < arrival then r else r.answer t.position a status, s)

/-- Give turns in order. -/
def turns (ask : Asking ε σ) : List Turn → Roster ε → σ → Roster ε × σ
  | [], r, s => (r, s)
  | t :: rest, r, s =>
    let (r, s) := r.turn ask t s
    turns ask rest r s

/-- The usual order: arm by arm, renewal before expiry. -/
def inTurn (r : Roster ε) : List Turn :=
  (List.range r.arms.length).flatMap fun i => [⟨i, .renewal⟩, ⟨i, .expiry⟩]

/-- The next instant at which some arm wants a turn. -/
def nextDue? (r : Roster ε) : Option Nat := (r.arms.filterMap Arm.due?).min?

@[simp] theorem now_fail (r : Roster ε) (i : Nat) : (r.fail i).now = r.now := by
  unfold fail
  split
  · rfl
  · split <;> rfl

@[simp] theorem now_answer (r : Roster ε) (i : Nat) (a : Arm ε) (status : LeaseStatus) :
    (r.answer i a status).now = r.now := by
  unfold answer
  dsimp only
  split <;> simp

@[simp] theorem now_turn (ask : Asking ε σ) (t : Turn) (r : Roster ε) (s : σ) :
    (r.turn ask t s).1.now = r.now := by
  unfold turn
  split
  · rfl
  · split
    · rfl
    · dsimp only
      split <;> simp
    · split
      · rfl
      · dsimp only
        split <;> simp
    · dsimp only
      split <;> simp

@[simp] theorem now_turns (ask : Asking ε σ) (ts : List Turn) (r : Roster ε) (s : σ) :
    (r.turns ask ts s).1.now = r.now := by
  induction ts generalizing r s with
  | nil => rfl
  | cons t rest ih => simp [turns, ih]

/-- Let time pass up to an instant, with an order of turns for each instant on the way. -/
def advanceTo (ask : Asking ε σ) (order : Roster ε → List Turn) (target : Nat) (r : Roster ε)
    (s : σ) : Roster ε × σ :=
  let next := max (r.now + 1) (r.nextDue?.getD (target + 1))
  if h : next ≤ target then
    let r' := { r with now := next }
    let served := r'.turns ask (order r') s
    advanceTo ask order target served.1 served.2
  else ({ r with now := max r.now target }, s)
termination_by target - r.now
decreasing_by
  simp only [now_turns]
  omega

/-- What every turn keeps of the surroundings, the passing of time keeps. -/
theorem advanceTo_induction {motive : σ → Prop} (ask : Asking ε σ)
    (order : Roster ε → List Turn) (target : Nat)
    (step : ∀ now errand s, motive s → motive (ask now errand s).2.2) (r : Roster ε) (s : σ)
    (h : motive s) : motive (r.advanceTo ask order target s).2 := by
  have one (t : Turn) (r : Roster ε) (s : σ) (h : motive s) : motive (r.turn ask t s).2 := by
    unfold turn
    split
    · exact h
    · split
      · exact h
      · exact h
      · split
        · exact h
        · dsimp only
          split <;> exact step _ _ _ h
      · exact h
  have many (ts : List Turn) : ∀ (r : Roster ε) (s : σ), motive s →
      motive (r.turns ask ts s).2 := by
    induction ts with
    | nil => exact fun _ _ h => h
    | cons t rest ih => exact fun r s h => ih _ _ (one t r s h)
  fun_induction advanceTo ask order target r s with
  | case1 r s next hn r' served ih => exact ih (many _ _ _ h)
  | case2 => exact h

/-- Whether a holder has a live arm: its latest one. -/
def isActive (r : Roster ε) (holder : String) : Bool :=
  (r.arms.filter (·.holder == holder)).getLast?.any Arm.isLive

/-- Call off what a holder has. -/
def pause (r : Roster ε) (holder : String) : Roster ε :=
  { r with
    arms := r.arms.map fun a => if a.holder = holder then { a with phase := .ended } else a }

/-- Start an arm in place of what its holder has. -/
def start (r : Roster ε) (holder : String) (period deadline : Nat) (watched : Bool) (errand : ε) :
    Roster ε :=
  let r := r.pause holder
  let a : Arm ε := { holder, period, deadline, watched, errand, phase := .resting r.now }
  { r with arms := r.arms ++ [a] }

/-- Let the arm at a position see whether it must fail: under an interrupt, or when it is late. -/
def look (r : Roster ε) (i : Nat) : Roster ε :=
  match r.arms[i]? with
  | none => r
  | some a => if r.interrupted || a.deadline ≤ r.now then r.fail i else r

/-- Start an arm and let it look. It fails at once when it comes too late. -/
def resume (r : Roster ε) (holder : String) (period deadline : Nat) (watched : Bool) (errand : ε) :
    Roster ε :=
  (r.start holder period deadline watched errand).look r.arms.length

/-- Interrupt, before any arm has seen it. -/
def cut (r : Roster ε) : Roster ε := { r with interrupted := true }

/-- Fail every live arm, those that rested or waited longest first, and every later one. -/
def interrupt (r : Roster ε) : Roster ε :=
  let since (i : Nat) : Nat := (r.arms[i]?.map (·.phase.since)).getD 0
  let order := (List.range r.arms.length).mergeSort fun i j => since i ≤ since j
  order.foldl look r.cut

/-- The failures that somebody wants to know of, with their holders. -/
def watchedReports (r : Roster ε) : List (String × Nat) :=
  r.reports.filterMap fun (i, time) => do
    let a ← r.arms[i]?
    if a.watched then some (a.holder, time) else none

end Roster

end BuildWorker
