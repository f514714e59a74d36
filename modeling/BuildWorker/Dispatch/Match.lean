import BuildWorker.Dispatch.Exchange

/-!
# Matching units of work to a worker

A worker asks the backplane for units of work until a listener takes one, or is content to be
idle. A unit that requires what the worker's platform does not offer is given back; a unit of a
name that is claimed already is dropped. An interrupt ends the matching, and a unit that arrives
together with it is given back.

Each round uses up a unit of the queue or a refusal of the listener, so matching ends.
-/

namespace BuildWorker

/-- What a listener is told. -/
inductive Notice
  /-- The worker begins to wait for the backplane. -/
  | waitStart
  /-- The wait is over. -/
  | waitEnd
  /-- A claimed unit is offered, or none is there. -/
  | offer (unit : Option QueueEntry)
  deriving DecidableEq

/-- Whether something is offered. -/
def Notice.isOffer : Notice → Bool
  | .offer _ => true
  | _ => false

/-- Who receives units of work. -/
structure Listener where
  /-- Whether the next offers are taken; later ones are. -/
  answers : List Bool := []
  /-- The number of the notice of a wait at which the listener interrupts. -/
  interruptAtWait : Option Nat := none
  /-- The number of the offer at which the listener interrupts. -/
  interruptAtOffer : Option Nat := none
  /-- What the listener was told so far. -/
  heard : List Notice := []

namespace Listener

/-- Tell the listener something. -/
def hear (l : Listener) (n : Notice) : Listener := { l with heard := l.heard ++ [n] }

/-- Whether the listener interrupts at what it was told last. Offers and the beginnings and ends
of waits are numbered separately, from one. -/
def interrupts (l : Listener) : Bool :=
  match l.heard.getLast? with
  | none => false
  | some (.offer _) => l.interruptAtOffer == some (l.heard.countP Notice.isOffer)
  | some _ => l.interruptAtWait == some (l.heard.countP fun n => !n.isOffer)

end Listener

/-- The state of matching. -/
structure Match where
  /-- What the worker offers. -/
  platform : Platform
  /-- How long the backplane takes to hand out a unit. -/
  latency : Nat := 0
  /-- Whether an interrupt comes just before the next unit is handed out. -/
  interruptsDispatch : Bool := false
  /-- Who receives units. -/
  listener : Listener := {}
  /-- Where units come from. -/
  exchange : Exchange

namespace Match

/-- Refusals that the listener has left, and units that wait. -/
def budget (m : Match) : Nat :=
  m.listener.answers.count false + m.exchange.backplane.queue.length

/-- Interrupt the worker. -/
def interrupt (m : Match) : Match := { m with exchange := m.exchange.interrupt }

/-- Whether the worker is interrupted. -/
def interrupted (m : Match) : Bool := m.exchange.interrupted

/-- Tell the listener something. -/
def tell (m : Match) (n : Notice) : Match :=
  let listener := m.listener.hear n
  let m := { m with listener }
  if listener.interrupts then m.interrupt else m

/-- Offer a unit, or idleness, to the listener. -/
def ask (m : Match) (unit : Option QueueEntry) : Bool × Match :=
  let m := m.tell (.offer unit)
  (m.listener.answers.headD true,
    { m with listener := { m.listener with answers := m.listener.answers.drop 1 } })

/-- Wait for the backplane's answer. -/
def wait (m : Match) : Match :=
  if m.latency = 0 then m
  else { m with exchange := m.exchange.waitUntil (m.exchange.now + m.latency) }

/-- Take the backplane's answer. -/
def dispatch (m : Match) : Except BackplaneError (Option QueueEntry) × Match :=
  let m := if m.interruptsDispatch then { m.interrupt with interruptsDispatch := false } else m
  let (answer, backplane) := m.exchange.backplane.dispatch
  (answer, { m with exchange := { m.exchange with backplane } })

/-- Give a unit back. -/
def reject (m : Match) (e : QueueEntry) : Except BackplaneError Unit × Match :=
  let (answer, backplane) := m.exchange.backplane.reject e
  (answer, { m with exchange := { m.exchange with backplane } })

/-- Deal with what the backplane handed out. There is no result if matching goes on. -/
def place (m : Match) (candidate : Option QueueEntry) :
    Option (Except ExecutionError Unit) × Match :=
  match candidate with
  | none =>
    let (taken, m) := m.ask none
    (if taken then some (.ok ()) else none, m)
  | some e =>
    if !m.platform.satisfies e.platform then
      match m.reject e with
      | (.ok (), m) => (none, m)
      | (.error e, m) => (if e.isUnavailable then none else some (.error (.backplane e)), m)
    else
      match m.exchange.registry.insertNew? e with
      | none => (none, m)
      | some registry =>
        let m := { m with exchange := { m.exchange with registry } }
        let (taken, m) := m.ask (some e)
        (some (.ok ()),
          if taken then m else { m with exchange := m.exchange.requeue e.name })

/-- Take the backplane's answer to the listener. There is no result if matching goes on. -/
def receive (m : Match) (answer : Except BackplaneError (Option QueueEntry)) :
    Option (Except ExecutionError Unit) × Match :=
  match answer with
  | .error e =>
    if !e.isUnavailable then (some (.error (.backplane e)), m)
    else if m.interrupted then (some (.error .interrupted), m)
    else m.place none
  | .ok none => if m.interrupted then (some (.error .interrupted), m) else m.place none
  | .ok (some e) =>
    if m.interrupted then (some (.error .interrupted), (m.reject e).2) else m.place (some e)

/-- One round. There is no result if matching goes on. -/
def round (m : Match) : Option (Except ExecutionError Unit) × Match :=
  if m.interrupted then (some (.error .interrupted), m)
  else
    let m := m.tell .waitStart
    let m := if m.interrupted then m else m.wait
    if m.interrupted then (some (.error .interrupted), m.tell .waitEnd)
    else
      let (answer, m) := m.dispatch
      (m.tell .waitEnd).receive answer

/-! ### A round that goes on uses up the budget -/

@[simp] theorem budget_interrupt (m : Match) : m.interrupt.budget = m.budget := rfl

@[simp] theorem budget_tell (m : Match) (n : Notice) : (m.tell n).budget = m.budget := by
  unfold tell
  dsimp only
  split <;> rfl

@[simp] theorem budget_wait (m : Match) : m.wait.budget = m.budget := by
  unfold wait
  split <;> simp [budget]

@[simp] theorem budget_reject (m : Match) (e : QueueEntry) : (m.reject e).2.budget = m.budget := by
  unfold reject Backplane.reject budget
  dsimp only
  split <;> rfl

/-- An offer never adds to the budget, and a refusal takes from it. -/
theorem budget_ask (m : Match) (unit : Option QueueEntry) :
    (m.ask unit).2.budget + (if (m.ask unit).1 then 0 else 1) ≤ m.budget := by
  rw [← budget_tell m (.offer unit)]
  unfold ask budget
  generalize m.tell (.offer unit) = m
  cases h : m.listener.answers with
  | nil => simp [h]
  | cons a rest => cases a <;> simp [h, Nat.add_right_comm]

/-- How many units an answer hands out. -/
def handed : Except BackplaneError (Option QueueEntry) → Nat
  | .ok (some _) => 1
  | _ => 0

theorem length_dispatch (b : Backplane) :
    b.dispatch.2.queue.length + handed b.dispatch.1 = b.queue.length := by
  unfold Backplane.dispatch
  split <;> simp_all [handed]

/-- A unit handed out is taken from the budget. -/
theorem budget_dispatch (m : Match) : m.dispatch.2.budget + handed m.dispatch.1 = m.budget := by
  have h := length_dispatch m.exchange.backplane
  unfold dispatch
  by_cases hi : m.interruptsDispatch
  · simp only [if_pos hi, budget, interrupt, Exchange.interrupt]
    omega
  · simp only [if_neg hi, budget]
    omega

/-- Dealing with a unit leaves the budget. -/
theorem budget_place_some (m : Match) (e : QueueEntry) (h : (m.place (some e)).1 = none) :
    (m.place (some e)).2.budget = m.budget := by
  revert h
  simp only [place]
  split
  · have hb := budget_reject m e
    split <;> simp_all
  · split <;> simp

/-- Going on after a refusal takes from the budget. -/
theorem budget_place_none (m : Match) (h : (m.place none).1 = none) :
    (m.place none).2.budget < m.budget := by
  have hb := budget_ask m none
  revert h
  simp only [place]
  cases hq : (m.ask none).1
  · rw [hq] at hb
    simp only [Bool.false_eq_true, if_false] at hb ⊢
    omega
  · simp

theorem budget_receive (m : Match) (answer : Except BackplaneError (Option QueueEntry))
    (h : (m.receive answer).1 = none) : (m.receive answer).2.budget < m.budget + handed answer := by
  match answer with
  | .error e =>
    revert h
    simp only [receive]
    split
    · simp
    · split
      · simp
      · exact fun h => budget_place_none m h
  | .ok none =>
    revert h
    simp only [receive]
    split
    · simp
    · exact fun h => budget_place_none m h
  | .ok (some e) =>
    revert h
    simp only [receive]
    split
    · simp
    · intro h
      rw [budget_place_some m e h]
      simp [handed]

/-- A round that goes on uses up some of the budget. -/
theorem budget_round (m : Match) (h : m.round.1 = none) : m.round.2.budget < m.budget := by
  revert h
  unfold round
  split
  · simp
  · dsimp only
    generalize hm : (if (m.tell .waitStart).interrupted then m.tell .waitStart
      else (m.tell .waitStart).wait) = m₁
    have hb : m₁.budget = m.budget := by
      rw [← hm]
      split <;> simp
    split
    · simp
    · intro h
      have := budget_receive _ _ h
      rw [budget_tell, budget_dispatch, hb] at this
      exact this

/-- Match until there is a result. Between two rounds others have their turn. -/
def run (m : Match) : Except ExecutionError Unit × Match :=
  match m.round, budget_round m with
  | (some result, m), _ => (result, m)
  | (none, next), h =>
    have : next.budget < m.budget := h rfl
    run { next with exchange := next.exchange.waitUntil next.exchange.now }
termination_by m.budget
decreasing_by simpa [budget] using this

end Match

end BuildWorker
