import BuildWorker.Dispatch.Exchange
import BuildWorker.Proofs.Lease.Steps

/-!
# Histories of leases

All that happens at an exchange happens in small moves: time passes until an arm wants a turn, an
arm asks for renewal, an answer arrives, a unit is claimed or released. `Exchange.Move` lists them,
with the renewals, claims and releases that each is noted by, and a history is the notes of any
number of moves (`Exchange.History`). Turns at one instant may come in any order, so what is shown
of all histories is true of every schedule.

A move does one of a few things to an arm (`Arm.Moved`, `Exchange.Move.arm`), and the notes tell
what the backplane and the arms themselves keep of renewals (`Exchange.History.recorded`).

The backplane may change in a move, and with it the answers that it is going to give. A course is a
history during which nobody changes them (`Exchange.Course`), so it notes the very answers that the
backplane had ready before.
-/

namespace BuildWorker

/-- What happens to leases and claims. -/
inductive LeaseEvent
  /-- The arm at a position asks for renewal, and is going to be answered. -/
  | renewed (position : Nat) (poll : LeasePoll) (answer : PollAnswer)
  /-- The backplane is told that a unit is queued again. -/
  | queued (poll : LeasePoll)
  /-- A unit is claimed. -/
  | claimed (e : QueueEntry)
  /-- The unit of a name is released, while the arms at some positions renew its lease. -/
  | released (name : String) (running : List Nat)

namespace LeaseEvent

/-- What the backplane is asked for. -/
def poll? : LeaseEvent → Option LeasePoll
  | renewed _ poll _ | queued poll => some poll
  | claimed _ | released _ _ => none

/-- Whether something is done to a claim: all but the renewals that arms ask for by themselves. -/
def isAct : LeaseEvent → Bool
  | renewed _ _ _ => false
  | queued _ | claimed _ | released _ _ => true

/-- The renewal that the arm at a position asks for, and the answer to it. -/
def renewal? (i : Nat) : LeaseEvent → Option (LeasePoll × PollAnswer)
  | renewed position poll answer => if position = i then some (poll, answer) else none
  | _ => none

end LeaseEvent

/-- The renewals that the arm at a position asked for, the earliest first. -/
def renewalsOf (i : Nat) (events : List LeaseEvent) : List (LeasePoll × PollAnswer) :=
  events.filterMap (LeaseEvent.renewal? i)

@[simp] theorem renewalsOf_append (i : Nat) (events new : List LeaseEvent) :
    renewalsOf i (events ++ new) = renewalsOf i events ++ renewalsOf i new :=
  List.filterMap_append

/-- What the backplane is asked for on an errand. -/
def LeaseErrand.poll (errand : LeaseErrand) (now : Nat) : LeasePoll :=
  ⟨errand.entry.name, errand.stage, errand.timeout, now⟩

/-- What a move does to an arm, with the renewal that the arm asks for. -/
inductive Arm.Moved (now : Nat) (a : Arm LeaseErrand) :
    Arm LeaseErrand → List (LeasePoll × PollAnswer) → Prop
  /-- It goes on as it was. -/
  | stays : Moved now a a []
  /-- It ends. -/
  | ends : Moved now a { a with phase := .ended } []
  /-- It asks for renewal, after a rest. -/
  | asks {since : Nat} {answer : PollAnswer} (resting : a.phase = .resting since)
      (rested : since + a.rest ≤ now) :
      Moved now a { a with
        phase := .asking now (now + (answer.attempt a.errand.timeout).delay)
          (answer.attempt a.errand.timeout).status
        attempts := a.attempts ++ [now] } [(a.errand.poll now, answer)]
  /-- It takes the answer and begins to rest. -/
  | rests {since arrival : Nat} {status : LeaseStatus}
      (asking : a.phase = .asking since arrival status) (arrived : arrival ≤ now) :
      Moved now a { a with phase := .resting now } []

section

variable {now : Nat} {a b : Arm LeaseErrand} {renewals : List (LeasePoll × PollAnswer)}

/-- An arm that is live now was live before. -/
theorem Arm.Moved.live (h : a.Moved now b renewals) (live : b.isLive = true) :
    a.isLive = true := by
  cases h with
  | stays => exact live
  | ends => cases live
  | asks resting =>
      rw [isLive, resting]
      rfl
  | rests asking =>
      rw [isLive, asking]
      rfl

/-- An arm keeps its period and its errand. -/
theorem Arm.Moved.same (h : a.Moved now b renewals) :
    b.period = a.period ∧ b.errand = a.errand := by
  cases h <;> exact ⟨rfl, rfl⟩

/-- An arm remembers when it asked for renewal. -/
theorem Arm.Moved.attempts (h : a.Moved now b renewals) :
    b.attempts = a.attempts ++ renewals.map fun r => r.1.time := by
  cases h with
  | asks => rfl
  | stays | ends | rests => exact (List.append_nil _).symm

end

namespace Exchange

/-! ### Moves -/

/-- The exchange with an arm put in its place. -/
def setArm (x : Exchange) (i : Nat) (a : Arm LeaseErrand) : Exchange :=
  { x with roster := { x.roster with arms := x.roster.arms.set i a } }

/-- The positions of the live arms that renew the lease on the unit of a name. -/
def renewing (x : Exchange) (name : String) : List Nat :=
  (List.range x.roster.arms.length).filter fun i =>
    x.roster.arms[i]?.any fun a => a.isLive && a.errand.entry.name == name

theorem mem_renewing {x : Exchange} {name : String} {i : Nat} {a : Arm LeaseErrand}
    (there : x.roster.arms[i]? = some a) :
    i ∈ x.renewing name ↔ a.isLive = true ∧ a.errand.entry.name = name := by
  rw [renewing, List.mem_filter, List.mem_range, there, Option.any_some, Bool.and_eq_true,
    beq_iff_eq]
  exact and_iff_right (List.getElem?_eq_some_iff.1 there).1

section

-- On which errands, and with which period, an arm may be started.
variable {allowed : Exchange → Nat → LeaseErrand → Prop}

/-- The least that can happen, and how it is noted. -/
inductive Move (allowed : Exchange → Nat → LeaseErrand → Prop) (x : Exchange) :
    List LeaseEvent → Exchange → Prop
  /-- Time passes, but not beyond an instant at which an arm wants a turn. -/
  | clock (now : Nat) (later : x.now ≤ now)
      (due : ∀ (i : Nat) (a : Arm LeaseErrand) (d : Nat), x.roster.arms[i]? = some a →
        a.due? = some d → now ≤ d) :
      Move allowed x [] { x with roster := { x.roster with now } }
  /-- The interrupt comes, or the alarm changes. -/
  | signal (interrupted : Bool) (alarm : Option Nat) :
      Move allowed x [] { x with roster := { x.roster with interrupted }, alarm }
  /-- The backplane changes, but is not asked to renew a lease. -/
  | trade (backplane : Backplane) (polls : backplane.polls = x.backplane.polls) :
      Move allowed x [] { x with backplane }
  /-- An arm that has rested asks for renewal. The answer will arrive after its delay. -/
  | ask {i : Nat} {a : Arm LeaseErrand} {since : Nat} (there : x.roster.arms[i]? = some a)
      (resting : a.phase = .resting since) (rested : since + a.rest ≤ x.now)
      {answer : PollAnswer} {backplane : Backplane}
      (poll : x.backplane.poll a.errand.entry a.errand.stage a.errand.timeout x.now =
        (answer, backplane)) :
      Move allowed x [.renewed i (a.errand.poll x.now) answer]
        { x.setArm i { a with
            phase := .asking x.now (x.now + (answer.attempt a.errand.timeout).delay)
              (answer.attempt a.errand.timeout).status
            attempts := a.attempts ++ [x.now] } with backplane }
  /-- An answer arrives. -/
  | answer {i : Nat} {a : Arm LeaseErrand} {since arrival : Nat} {status : LeaseStatus}
      (there : x.roster.arms[i]? = some a) (asking : a.phase = .asking since arrival status)
      (arrived : arrival ≤ x.now) :
      Move allowed x [] (x.setArm i { a with phase := .resting x.now })
  /-- An arm fails. -/
  | fail (i : Nat) : Move allowed x [] { x with roster := x.roster.fail i }
  /-- A holder calls off what it has. -/
  | pause (holder : String) : Move allowed x [] { x with roster := x.roster.pause holder }
  /-- A holder starts an arm in place of what it has. -/
  | start (holder : String) (period deadline : Nat) (watched : Bool) (errand : LeaseErrand)
      (may : allowed x period errand) :
      Move allowed x [] { x with roster := x.roster.start holder period deadline watched errand }
  /-- A unit of a free name is claimed. -/
  | claim (e : QueueEntry) (free : x.registry.contains e.name = false) :
      Move allowed x [.claimed e] { x with registry := x.registry.insert e }
  /-- A claimed unit is forgotten. -/
  | deactivate {name : String} {e : QueueEntry} (held : x.registry.get? name = some e) :
      Move allowed x [.released name (x.renewing name)]
        { x with registry := x.registry.erase name }
  /-- A claimed unit is given back, and the backplane is told so. -/
  | requeue {name : String} {e : QueueEntry} (held : x.registry.get? name = some e) :
      Move allowed x [.released name (x.renewing name), .queued ⟨e.name, .queued, 0, x.now⟩]
        { x with
          registry := x.registry.erase name
          backplane := (x.backplane.poll e .queued 0 x.now).2 }

/-- What any number of moves is noted by. -/
inductive History (allowed : Exchange → Nat → LeaseErrand → Prop) (x : Exchange) :
    List LeaseEvent → Exchange → Prop
  | start : History allowed x [] x
  | move {events new : List LeaseEvent} {y z : Exchange} (before : History allowed x events y)
      (move : Move allowed y new z) : History allowed x (events ++ new) z

theorem Move.history {x y : Exchange} {events : List LeaseEvent} (move : Move allowed x events y) :
    History allowed x events y :=
  @History.move _ _ [] _ _ _ .start move

theorem History.trans {x y z : Exchange} {events new : List LeaseEvent}
    (h : History allowed x events y) (h' : History allowed y new z) :
    History allowed x (events ++ new) z := by
  induction h' with
  | start =>
      rw [List.append_nil]
      exact h
  | move _ move ih =>
      rw [← List.append_assoc]
      exact ih.move move

/-- **The backplane is asked for what is noted**, in this order, and for nothing else. -/
theorem History.polls {x y : Exchange} {events : List LeaseEvent}
    (h : History allowed x events y) :
    y.backplane.polls = x.backplane.polls ++ events.filterMap LeaseEvent.poll? := by
  induction h with
  | start => exact (List.append_nil _).symm
  | @move events new y z before move ih =>
      have here : z.backplane.polls = y.backplane.polls ++ new.filterMap LeaseEvent.poll? := by
        cases move with
        | trade backplane polls =>
            rw [List.filterMap_nil, List.append_nil]
            exact polls
        | ask _ _ _ poll =>
            rw [Backplane.poll_eq] at poll
            cases poll
            rfl
        | requeue held =>
            dsimp only
            rw [Backplane.poll_eq]
            rfl
        | _ => exact (List.append_nil _).symm
      rw [here, ih, List.filterMap_append, List.append_assoc]

/-! ### What a move does to an arm -/

/-- What is found in the place of an arm, or in another place, once an arm was put in its place. -/
theorem getElem?_setArm {x : Exchange} {i j : Nat} {a a' b : Arm LeaseErrand}
    (there : x.roster.arms[i]? = some a) (found : (x.setArm i a').roster.arms[j]? = some b) :
    (i = j ∧ b = a') ∨ (i ≠ j ∧ x.roster.arms[j]? = some b) := by
  by_cases same : i = j
  · subst same
    have inside := (List.getElem?_eq_some_iff.1 there).1
    rw [setArm, List.getElem?_set_self inside] at found
    exact .inl ⟨rfl, (Option.some.inj found).symm⟩
  · rw [setArm, List.getElem?_set_ne same] at found
    exact .inr ⟨same, found⟩

/-- **What a move does to the arms.** An arm moves on in one of a few ways; or it is new, was
allowed to start and rests. -/
theorem Move.arm {x y : Exchange} {new : List LeaseEvent} (move : Move allowed x new y) {i : Nat}
    {b : Arm LeaseErrand} (there : y.roster.arms[i]? = some b) :
    (∃ a, x.roster.arms[i]? = some a ∧ a.Moved x.now b (renewalsOf i new)) ∨
    (x.roster.arms[i]? = none ∧ allowed x b.period b.errand ∧ b.phase = .resting x.now ∧
      b.attempts = [] ∧ renewalsOf i new = []) := by
  have same (found : x.roster.arms[i]? = some b) :
      ∃ a, x.roster.arms[i]? = some a ∧ a.Moved x.now b [] := ⟨b, found, .stays⟩
  have paused (holder : String) (found : (x.roster.pause holder).arms[i]? = some b) :
      ∃ a, x.roster.arms[i]? = some a ∧ a.Moved x.now b [] := by
    rw [Roster.pause, List.getElem?_map, Option.map_eq_some_iff] at found
    obtain ⟨a, before, rfl⟩ := found
    refine ⟨a, before, ?_⟩
    split
    · exact .ends
    · exact .stays
  cases move with
  | clock | signal | trade | claim | deactivate | requeue => exact .inl (same there)
  | pause holder => exact .inl (paused holder there)
  | @ask j a since there' resting rested answer backplane poll =>
      left
      rcases getElem?_setArm there' there with ⟨rfl, rfl⟩ | ⟨other, there⟩
      · refine ⟨a, there', ?_⟩
        simp only [renewalsOf, LeaseEvent.renewal?, List.filterMap_cons, if_pos, List.filterMap_nil]
        exact .asks resting rested
      · simp only [renewalsOf, LeaseEvent.renewal?, List.filterMap_cons, if_neg other,
          List.filterMap_nil]
        exact same there
  | @answer j a since arrival status there' asking arrived =>
      left
      rcases getElem?_setArm there' there with ⟨rfl, rfl⟩ | ⟨-, there⟩
      · exact ⟨a, there', .rests asking arrived⟩
      · exact same there
  | fail j =>
      left
      unfold Roster.fail at there
      split at there
      · exact same there
      next a there' =>
        split at there
        · rcases getElem?_setArm there' there with ⟨rfl, rfl⟩ | ⟨-, there⟩
          · exact ⟨a, there', .ends⟩
          · exact same there
        · exact same there
  | start holder period deadline watched errand may =>
      by_cases old : i < x.roster.arms.length
      · left
        rw [← Roster.length_pause x.roster holder] at old
        have there : (x.roster.start holder period deadline watched errand).arms[i]? = some b :=
          there
        rw [Roster.start, List.getElem?_append_left old] at there
        exact paused holder there
      · right
        have inside := (List.getElem?_eq_some_iff.1 there).1
        rw [Roster.length_start] at inside
        obtain rfl : i = x.roster.arms.length := by omega
        have there : (x.roster.start holder period deadline watched errand).arms[_]? = some b :=
          there
        rw [Roster.getElem?_start_length] at there
        cases there
        exact ⟨List.getElem?_eq_none (Nat.le_refl _), may, rfl, rfl, rfl⟩

/-- Arms stay in their places. -/
theorem Move.length_le {x y : Exchange} {new : List LeaseEvent} (move : Move allowed x new y) :
    x.roster.arms.length ≤ y.roster.arms.length := by
  cases move with
  | clock | signal | trade | claim | deactivate | requeue => exact Nat.le_refl _
  | ask | answer => exact Nat.le_of_eq List.length_set.symm
  | fail i => exact Nat.le_of_eq (x.roster.steps_fail i).length_eq.symm
  | pause holder => exact Nat.le_of_eq (x.roster.length_pause holder).symm
  | start holder =>
      refine Nat.le_trans (Nat.le_succ _) (Nat.le_of_eq ?_)
      exact (x.roster.length_start holder _ _ _ _).symm

/-- Only an arm that has rested asks for renewal, and once in a move. -/
theorem Move.renewals {x y : Exchange} {new : List LeaseEvent} (move : Move allowed x new y)
    (i : Nat) : renewalsOf i new = [] ∨ ∃ a since answer, x.roster.arms[i]? = some a ∧
      a.phase = .resting since ∧ since + a.rest ≤ x.now ∧
      renewalsOf i new = [(a.errand.poll x.now, answer)] := by
  cases move with
  | @ask j a since there resting rested answer =>
      by_cases same : j = i
      · subst same
        exact .inr ⟨a, since, answer, there, resting, rested, by
          simp [renewalsOf, LeaseEvent.renewal?]⟩
      · exact .inl (by simp [renewalsOf, LeaseEvent.renewal?, same])
  | _ => exact .inl rfl

/-- Time passes by itself, and not beyond an instant at which an arm wants a turn. -/
theorem Move.time {x y : Exchange} {new : List LeaseEvent} (move : Move allowed x new y) :
    y.now = x.now ∨ y.roster.arms = x.roster.arms ∧
      ∀ (i : Nat) (a : Arm LeaseErrand) (d : Nat), x.roster.arms[i]? = some a →
        a.due? = some d → y.now ≤ d := by
  cases move with
  | clock now later due => exact .inr ⟨rfl, due⟩
  | fail i => exact .inl (x.roster.now_fail i)
  | _ => exact .inl rfl

/-! ### What is recorded -/

/-- **The attempts of an arm are the renewals that are noted of it**, when no arm was there
before. -/
theorem History.attempts {x y : Exchange} {events : List LeaseEvent} (idle : x.roster.arms = [])
    (h : History allowed x events y) (i : Nat) :
    (renewalsOf i events).map (fun r => r.1.time) = (y.roster.arms[i]?.elim [] Arm.attempts) := by
  induction h with
  | start =>
      rw [idle]
      rfl
  | @move events new y z _ move ih =>
      rw [renewalsOf_append, List.map_append, ih]
      cases there : z.roster.arms[i]? with
      | some b =>
          rcases move.arm there with ⟨a, there', moved⟩ | ⟨gone, -, -, attempts, none⟩
          · rw [there']
            exact moved.attempts.symm
          · rw [gone, none]
            exact attempts.symm
      | none =>
          have gone : y.roster.arms[i]? = none :=
            List.getElem?_eq_none (Nat.le_trans move.length_le (List.getElem?_eq_none_iff.1 there))
          rcases move.renewals i with none | ⟨a, _, _, there', -⟩
          · rw [gone, none]
            rfl
          · rw [gone] at there'
            cases there'

/-- Events that tell, from a time at which no arm was there, what the backplane and the arms keep of
renewals. -/
structure Recorded (x : Exchange) (events : List LeaseEvent) (y : Exchange) : Prop where
  /-- The backplane was asked for what is noted, in this order, and for nothing else. -/
  polls : y.backplane.polls = x.backplane.polls ++ events.filterMap LeaseEvent.poll?
  /-- Every arm attempted the renewals that are noted of it. -/
  attempts : ∀ {i : Nat} {a : Arm LeaseErrand}, y.roster.arms[i]? = some a →
    a.attempts = (renewalsOf i events).map fun r => r.1.time

theorem History.recorded {x y : Exchange} {events : List LeaseEvent} (idle : x.roster.arms = [])
    (h : History allowed x events y) : Recorded x events y where
  polls := h.polls
  attempts {i a} there := by
    rw [h.attempts idle, there]
    rfl

end

end Exchange

/-! ### Answers -/

/-- Renewals are answered as a script says, and granted at once beyond it. The word that a unit is
queued again takes an answer as well. -/
def Answered : List PollAnswer → List LeaseEvent → Prop
  | _, [] => True
  | script, .renewed _ _ answer :: events =>
    answer = script.headD {} ∧ Answered (script.drop 1) events
  | script, .queued _ :: events => Answered (script.drop 1) events
  | script, .claimed _ :: events | script, .released _ _ :: events => Answered script events

theorem answered_append {script : List PollAnswer} {events new : List LeaseEvent} :
    Answered script (events ++ new) ↔ Answered script events ∧
      Answered (script.drop (events.filterMap LeaseEvent.poll?).length) new := by
  induction events generalizing script with
  | nil => simp [Answered]
  | cons event events ih =>
      cases event <;>
        simp [Answered, List.filterMap_cons, LeaseEvent.poll?, ih, and_assoc]

namespace Exchange

section

variable {allowed : Exchange → Nat → LeaseErrand → Prop} {x y z : Exchange}
  {events new : List LeaseEvent}

/-- A history in which the backplane gives the answers that it has ready, in their order. -/
structure Course (allowed : Exchange → Nat → LeaseErrand → Prop) (x : Exchange)
    (events : List LeaseEvent) (y : Exchange) : Prop where
  history : History allowed x events y
  answered : Answered x.backplane.pollAnswers events
  /-- The answers that were not given are left. -/
  left : y.backplane.pollAnswers =
    x.backplane.pollAnswers.drop (events.filterMap LeaseEvent.poll?).length

theorem Course.trans (h : Course allowed x events y) (h' : Course allowed y new z) :
    Course allowed x (events ++ new) z where
  history := h.history.trans h'.history
  answered := answered_append.2 ⟨h.answered, h.left ▸ h'.answered⟩
  left := by
    rw [h'.left, h.left, List.drop_drop, List.filterMap_append, List.length_append]

/-- A move that is noted by nothing. -/
theorem Move.course (move : Move allowed x [] y)
    (left : y.backplane.pollAnswers = x.backplane.pollAnswers) : Course allowed x [] y :=
  ⟨move.history, trivial, left⟩

/-- An arm that asks for renewal is given the next answer. -/
theorem course_ask {i : Nat} {a : Arm LeaseErrand} {since : Nat}
    (there : x.roster.arms[i]? = some a) (resting : a.phase = .resting since)
    (rested : since + a.rest ≤ x.now) {answer : PollAnswer} {backplane : Backplane}
    (poll : x.backplane.poll a.errand.entry a.errand.stage a.errand.timeout x.now =
      (answer, backplane)) :
    Course allowed x [.renewed i (a.errand.poll x.now) answer]
      { x.setArm i { a with
          phase := .asking x.now (x.now + (answer.attempt a.errand.timeout).delay)
            (answer.attempt a.errand.timeout).status
          attempts := a.attempts ++ [x.now] } with backplane } := by
  have given := poll
  rw [Backplane.poll_eq] at given
  cases given
  exact ⟨(Move.ask there resting rested poll).history, ⟨rfl, trivial⟩, rfl⟩

/-- A unit that is given back takes an answer. -/
theorem course_requeue {name : String} {e : QueueEntry} (held : x.registry.get? name = some e) :
    Course allowed x
      [.released name (x.renewing name), .queued ⟨e.name, .queued, 0, x.now⟩]
      { x with
        registry := x.registry.erase name
        backplane := (x.backplane.poll e .queued 0 x.now).2 } := by
  refine ⟨(Move.requeue held).history, trivial, ?_⟩
  rw [Backplane.poll_eq]
  rfl

end

end Exchange

end BuildWorker
