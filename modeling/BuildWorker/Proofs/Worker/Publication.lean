import BuildWorker.Proofs.Dispatch.Round
import BuildWorker.Proofs.Retry.Attempts
import BuildWorker.Worker
import Mathlib.Logic.Function.Basic

/-!
# Publications take effect once or not at all

A worker publishes operations and results and blacklists actions. Each publication is a retried
call, and each failure that the backplane was told to answer with is met by one attempt. What the
backplane shows of publications is `Backplane.published`, and what one publication changes there is
`Publication.apply`.

An attempt that fails changes nothing but the count of attempts and the failures to come, and what
happens in the delays is only that leases are renewed. So the attempts of a call are told by the
failures in front of the queue (`Worker.publish_settles`); a call that succeeds has applied its
publication once, with its last attempt, and one that fails has not (`Worker.Settles`).
`Worker.publishAll_settles` adds this up over any number of calls, while more failures are arranged
in between.
-/

namespace BuildWorker

/-! ### What is published -/

/-- What the backplane shows of publications. -/
structure Published where
  /-- The operation under a name. -/
  operation : String → Option Operation
  /-- The result under the key of an action. -/
  actionResult : ActionKey → Option ActionResult
  /-- Actions that must not run again. -/
  blacklisted : List String

/-- Something that a worker publishes. -/
inductive Publication
  | operation (o : Operation)
  | actionResult (key : ActionKey) (r : ActionResult)
  /-- An action must not run again. -/
  | blacklisting (action : String)

/-- Publish something once: one entry is stored or overwritten, or one action is added. -/
def Publication.apply (s : Published) : Publication → Published
  | .operation o => { s with operation := Function.update s.operation o.name (some o) }
  | .actionResult key r => { s with actionResult := Function.update s.actionResult key (some r) }
  | .blacklisting action => { s with blacklisted := s.blacklisted ++ [action] }

/-- The change of a backplane by which something is published. -/
def Publication.change : Publication → Backplane → Backplane
  | .operation o, b => { b with operations := Backplane.assign o.name o b.operations }
  | .actionResult key r, b => { b with actionResults := Backplane.assign key r b.actionResults }
  | .blacklisting action, b => { b with blacklisted := b.blacklisted ++ [action] }

namespace Backplane

/-- What is published there. -/
def published (b : Backplane) : Published where
  operation name := b.operations.lookup name
  actionResult key := b.actionResults.lookup key
  blacklisted := b.blacklisted

/-- What attempt number `i` at a publication is answered: failures in their order, then success. -/
def answer (b : Backplane) (i : Nat) : Except BackplaneError Unit :=
  match b.mutationFailures[i - 1]? with
  | some e => .error e
  | none => .ok ()

theorem lookup_assign {κ α : Type} [DecidableEq κ] (key k : κ) (a : α) (table : List (κ × α)) :
    (assign key a table).lookup k = if k = key then some a else table.lookup k := by
  induction table with
  | nil => grind [assign]
  | cons entry rest ih => grind [assign]

/-- A table with an entry assigned, as a function of the keys. -/
theorem lookup_assign_eq_update {κ α : Type} [DecidableEq κ] (key : κ) (a : α)
    (table : List (κ × α)) : (fun k => (assign key a table).lookup k) =
      Function.update (fun k => table.lookup k) key (some a) := by
  funext k
  rw [lookup_assign, Function.update_apply]

/-- A change publishes what it is the change of, and touches nothing else. -/
theorem change_publishes (p : Publication) (b : Backplane) :
    (p.change b).published = p.apply b.published ∧
      ∃ operations actionResults blacklisted,
        p.change b = { b with operations, actionResults, blacklisted } := by
  cases p with
  | operation o =>
      refine ⟨?_, ⟨_, _, _, rfl⟩⟩
      simp only [Publication.change, Publication.apply, published, lookup_assign_eq_update]
  | actionResult key r =>
      refine ⟨?_, ⟨_, _, _, rfl⟩⟩
      simp only [Publication.change, Publication.apply, published, lookup_assign_eq_update]
  | blacklisting action => exact ⟨rfl, ⟨_, _, _, rfl⟩⟩

end Backplane

/-! ### The attempts at a publication -/

namespace Exchange

variable {α : Type}

/-- Make one attempt at a call of the backplane. -/
def attempt (call : Backplane → Except BackplaneError α × Backplane) (x : Exchange) :
    Except BackplaneError α × Exchange :=
  ((call x.backplane).1, { x with backplane := (call x.backplane).2 })

/-- One attempt meets the failure in front of the queue, and succeeds when there is none. -/
theorem attempt_publish (result : α) (change : Backplane → Backplane) (x : Exchange) :
    let r := attempt (fun b => b.publish result change) x
    let spent : Backplane := { x.backplane with
      mutationFailures := x.backplane.mutationFailures.tail
      mutationCalls := x.backplane.mutationCalls + 1 }
    match x.backplane.mutationFailures.head? with
    | some e => r.1 = .error e ∧ r.2.backplane = spent
    | none => r.1 = .ok result ∧ r.2.backplane = change spent := by
  obtain ⟨roster, backplane, registry, alarm⟩ := x
  obtain ⟨queue, dispatch, reject, pollAnswers, failures⟩ := backplane
  cases failures with
  | nil => exact ⟨rfl, rfl⟩
  | cons e rest => exact ⟨rfl, rfl⟩

/-- Attempts that fail use up the failures in front, and nothing else happens but that leases are
renewed. -/
theorem stateAfter_publish (schedule : Backoff) (position : Nat → Float) (result : α)
    (change : Backplane → Backplane) (first n : Nat) (x : Exchange)
    (le : n ≤ x.backplane.mutationFailures.length) :
    ∃ polls pollAnswers, (RetryPolicy.stateAfter schedule position
        (attempt fun b => b.publish result change) (fun delay x => x.pass delay.ceilMillis)
        first n x).backplane =
      { x.backplane with
        mutationFailures := x.backplane.mutationFailures.drop n
        mutationCalls := x.backplane.mutationCalls + n
        polls, pollAnswers } := by
  induction n generalizing first x with
  | zero => exact ⟨_, _, rfl⟩
  | succ n ih =>
      have attempted := attempt_publish result change x
      cases failures : x.backplane.mutationFailures with
      | nil =>
          rw [failures] at le
          cases le
      | cons e rest =>
          rw [failures] at attempted le
          rw [RetryPolicy.stateAfter]
          generalize attempt (fun b => b.publish result change) x = r at attempted ⊢
          obtain ⟨polls, pollAnswers, waited⟩ :=
            (waits_pass r.2 (schedule.delay (position first) first).ceilMillis).backplane
          rw [attempted.2] at waited
          obtain ⟨polls', pollAnswers', eq⟩ := ih (first + 1) _
            (by rw [waited]; exact Nat.le_of_succ_le_succ le)
          refine ⟨polls', pollAnswers', ?_⟩
          rw [eq, waited]
          simp only [List.drop_succ_cons, List.tail_cons, Nat.add_assoc, Nat.add_comm 1 n]

/-- Attempt number `i` at a publication, when all those before it have failed. -/
def attemptNumber (policy : RetryPolicy) (position : Nat → Float) (result : α)
    (change : Backplane → Backplane) (x : Exchange) (i : Nat) : Except BackplaneError α × Exchange :=
  attempt (fun b => b.publish result change)
    (RetryPolicy.stateAfter policy.backoff position
      (attempt fun b => b.publish result change) (fun delay x => x.pass delay.ceilMillis)
      1 (i - 1) x)

/-- An attempt meets the failure of its number, and succeeds when there is none. -/
theorem attemptNumber_meets (policy : RetryPolicy) (position : Nat → Float) (result : α)
    (change : Backplane → Backplane) (x : Exchange) {i : Nat} (positive : 1 ≤ i)
    (le : i ≤ x.backplane.mutationFailures.length + 1) :
    ∃ polls pollAnswers,
      let r := attemptNumber policy position result change x i
      let spent : Backplane := { x.backplane with
        mutationFailures := x.backplane.mutationFailures.drop i
        mutationCalls := x.backplane.mutationCalls + i
        polls, pollAnswers }
      match x.backplane.mutationFailures[i - 1]? with
      | some e => r.1 = .error e ∧ r.2.backplane = spent
      | none => r.1 = .ok result ∧ r.2.backplane = change spent := by
  obtain ⟨polls, pollAnswers, before⟩ := stateAfter_publish policy.backoff position result
    change 1 (i - 1) x (by omega)
  refine ⟨polls, pollAnswers, ?_⟩
  unfold attemptNumber
  generalize RetryPolicy.stateAfter policy.backoff position
    (attempt fun b => b.publish result change) (fun delay x => x.pass delay.ceilMillis)
    1 (i - 1) x = y at before ⊢
  have attempted := attempt_publish result change y
  simp only [before, List.head?_drop, List.tail_drop, Nat.add_assoc, Nat.sub_add_cancel positive]
    at attempted
  exact attempted

end Exchange

namespace Worker

/-- A publication is a retried call over the exchange, which waits between the attempts. -/
theorem publish_eq {α : Type} (w : Worker) (position : Nat → Float)
    (call : Backplane → Except BackplaneError α × Backplane) :
    w.publish position call =
      let r := w.retry.execute position (Exchange.attempt call)
        (fun delay x => x.pass delay.ceilMillis) w.exchange
      (r.1.mapError RetryError.surfaced, { w with exchange := r.2 }) :=
  rfl

/-- **The attempts at a publication** are told by the failures in front of the queue, whatever the
delays between them. Attempt `k` is the last one. Each attempt that fails uses up a failure, and the
publication is made if and only if no failure was left for the last attempt. -/
theorem publish_settles {α : Type} (w : Worker) (position : Nat → Float) (result : α)
    (change : Backplane → Backplane) :
    let b := w.exchange.backplane
    let r := w.publish position fun b => b.publish result change
    ∃ k polls pollAnswers, w.retry.IsLast b.answer k ∧ k ≤ b.mutationFailures.length + 1 ∧
      let spent : Backplane := { b with
        mutationFailures := b.mutationFailures.drop k
        mutationCalls := b.mutationCalls + k
        polls, pollAnswers }
      match b.mutationFailures[k - 1]? with
      | some e => r.1 = .error (.backplane e) ∧ r.2.exchange.backplane = spent
      | none => r.1 = .ok result ∧ r.2.exchange.backplane = change spent := by
  intro b r
  obtain ⟨k, last, eq⟩ := w.retry.execute_eq position
    (Exchange.attempt fun b => b.publish result change)
    (fun delay x => x.pass delay.ceilMillis) w.exchange
  let tried (i : Nat) := Exchange.attemptNumber w.retry position result change w.exchange i
  have last : w.retry.IsLast (fun i => (tried i).1) k := last
  have answered (i : Nat) (positive : 1 ≤ i) (le : i ≤ b.mutationFailures.length + 1) :
      RetryPolicy.isPassing (b.answer i) = RetryPolicy.isPassing (tried i).1 := by
    obtain ⟨_, _, met⟩ := w.exchange.attemptNumber_meets w.retry position result change positive le
    unfold Backplane.answer
    split at met
    next failed =>
        rw [failed, met.1]
        rfl
    next left =>
        rw [left, met.1]
        rfl
  -- Once the failures are used up, an attempt succeeds.
  have stops : RetryPolicy.isPassing (b.answer (b.mutationFailures.length + 1)) = false := by
    rw [Backplane.answer, Nat.add_sub_cancel, List.getElem?_eq_none (Nat.le_refl _)]
    rfl
  rw [answered _ (Nat.le_add_left 1 _) (Nat.le_refl _)] at stops
  have le : k ≤ b.mutationFailures.length + 1 :=
    last.first _ (RetryPolicy.ends_iff.2 ⟨Nat.le_add_left 1 _, .inl stops⟩)
  obtain ⟨polls, pollAnswers, met⟩ :=
    w.exchange.attemptNumber_meets w.retry position result change last.ends.1 le
  have made : r = ((RetryPolicy.conclude k (tried k).1).mapError RetryError.surfaced,
      { w with exchange := (tried k).2 }) := by
    dsimp only [r]
    rw [publish_eq, eq]
    rfl
  refine ⟨k, polls, pollAnswers, last.congr (Nat.le_add_left 1 _) stops answered, le, ?_⟩
  rw [made]
  dsimp only
  split at met
  next e failed =>
      rw [failed]
      refine ⟨?_, met.2⟩
      rw [met.1, RetryPolicy.conclude]
      split <;> rfl
  next left =>
      rw [left]
      refine ⟨?_, met.2⟩
      rw [met.1]
      rfl

/-! ### Calls that publish -/

/-- Publish something. `position` draws where in its range each delay lies. -/
def make (w : Worker) (position : Nat → Float) : Publication → Except ExecutionError Unit × Worker
  | .operation o => ((w.putOperation o position).1.map fun _ => (), (w.putOperation o position).2)
  | .actionResult key r => w.putActionResult key r position
  | .blacklisting action => w.blacklist action position

/-- What a call that publishes does to the backplane `b`, and leaves as `b'`. -/
structure Settles (policy : RetryPolicy) (p : Publication) (b : Backplane)
    (answer : Except ExecutionError Unit) (b' : Backplane) : Prop where
  /-- A call that succeeds publishes once. -/
  applied : answer = .ok () → b'.published = p.apply b.published
  /-- A call that fails publishes nothing. -/
  left : ∀ e, answer = .error e → b'.published = b.published
  /-- Failures are used up from the front, one by each attempt that fails. An attempt is the last
  one when it succeeds, fails for good or is the last one allowed; only one that succeeds has met no
  failure, and a call fails as its last attempt did. -/
  attempts : ∃ k spent, policy.IsLast b.answer k ∧
    b.mutationFailures = spent ++ b'.mutationFailures ∧ b'.mutationCalls = b.mutationCalls + k ∧
    (answer = .ok () → k = spent.length + 1) ∧
    ∀ e, answer = .error e → k = spent.length ∧
      ∃ failure, spent.getLast? = some failure ∧ e = .backplane failure
  /-- Apart from that, leases are renewed at most. -/
  rest : ∃ operations actionResults blacklisted mutationFailures mutationCalls polls pollAnswers,
    b' = { b with
      operations, actionResults, blacklisted, mutationFailures, mutationCalls, polls, pollAnswers }

theorem settles_publish {α : Type} (w : Worker) (position : Nat → Float) (p : Publication)
    (result : α) :
    let r := w.publish position fun b => b.publish result p.change
    Settles w.retry p w.exchange.backplane (r.1.map fun _ => ()) r.2.exchange.backplane := by
  intro r
  obtain ⟨k, polls, pollAnswers, last, le, settled⟩ := w.publish_settles position result p.change
  have positive : 1 ≤ k := last.ends.1
  generalize w.exchange.backplane = b at last le settled ⊢
  dsimp only at settled
  have front : b.mutationFailures = b.mutationFailures.take k ++ b.mutationFailures.drop k :=
    (List.take_append_drop k _).symm
  split at settled
  next e failed =>
      obtain ⟨told, after⟩ := settled
      have used : k - 1 < b.mutationFailures.length := (List.getElem?_eq_some_iff.1 failed).1
      have length : k = (b.mutationFailures.take k).length := by
        rw [List.length_take]
        omega
      have final : (b.mutationFailures.take k).getLast? = some e := by
        rw [List.getLast?_eq_getElem?, ← length, List.getElem?_take_of_lt (by omega), failed]
      rw [told, after]
      refine ⟨nofun, fun _ _ => rfl,
        ⟨k, _, last, front, rfl, nofun, fun e' same => ⟨length, e, final, ?_⟩⟩,
        ⟨_, _, _, _, _, _, _, rfl⟩⟩
      cases same
      rfl
  next left =>
      obtain ⟨told, after⟩ := settled
      have exceeds : b.mutationFailures.length ≤ k - 1 := List.getElem?_eq_none_iff.1 left
      have length : k = (b.mutationFailures.take k).length + 1 := by
        rw [List.length_take]
        omega
      obtain ⟨published, _, _, _, eq⟩ := Backplane.change_publishes p
        { b with
          mutationFailures := b.mutationFailures.drop k
          mutationCalls := b.mutationCalls + k
          polls, pollAnswers }
      rw [told, after]
      refine ⟨fun _ => published, nofun, ⟨k, _, last, ?_, ?_, fun _ => length, nofun⟩,
        ⟨_, _, _, _, _, _, _, eq⟩⟩
      · rw [eq]
        exact front
      · rw [eq]

/-- What every call that publishes does. -/
theorem settles_make (w : Worker) (position : Nat → Float) (p : Publication) :
    Settles w.retry p w.exchange.backplane (w.make position p).1
      (w.make position p).2.exchange.backplane := by
  have unit (answer : Except ExecutionError Unit) : (answer.map fun _ => ()) = answer := by
    cases answer <;> rfl
  cases p with
  | operation o => exact settles_publish w position (.operation o) true
  | actionResult key r =>
      have settles := settles_publish w position (.actionResult key r) ()
      dsimp only at settles
      rw [unit] at settles
      exact settles
  | blacklisting action =>
      have settles := settles_publish w position (.blacklisting action) ()
      dsimp only at settles
      rw [unit] at settles
      exact settles

/-! ### Any number of calls -/

/-- What is done to a worker and its backplane. -/
inductive PublicationStep
  /-- One more publication is arranged to fail. -/
  | fail (e : BackplaneError)
  /-- Something is published, with draws for the delays between the attempts. -/
  | publish (position : Nat → Float) (p : Publication)

/-- The failures that are arranged in some steps. -/
def arranged (steps : List PublicationStep) : List BackplaneError :=
  steps.filterMap fun
    | .fail e => some e
    | .publish .. => none

/-- Arrange that one more publication fails. -/
def failLater (w : Worker) (e : BackplaneError) : Worker :=
  let backplane := { w.exchange.backplane with
    mutationFailures := w.exchange.backplane.mutationFailures ++ [e] }
  { w with exchange := { w.exchange with backplane } }

/-- Take steps in their order: what was published with what answer, and the worker after them. -/
def publishAll (w : Worker) :
    List PublicationStep → List (Publication × Except ExecutionError Unit) × Worker
  | [] => ([], w)
  | .fail e :: rest => (w.failLater e).publishAll rest
  | .publish position p :: rest =>
    let (answer, w) := w.make position p
    let (answers, w) := w.publishAll rest
    ((p, answer) :: answers, w)

/-- The publications that succeeded. -/
def accepted (answers : List (Publication × Except ExecutionError Unit)) : List Publication :=
  answers.filterMap fun (p, answer) => if answer.isOk then some p else none

theorem retry_make (w : Worker) (position : Nat → Float) (p : Publication) :
    (w.make position p).2.retry = w.retry := by
  cases p <;> rfl

theorem retry_publishAll (w : Worker) (steps : List PublicationStep) :
    (w.publishAll steps).2.retry = w.retry := by
  induction steps generalizing w with
  | nil => rfl
  | cons step rest ih =>
      cases step with
      | fail e => exact ih (w.failLater e)
      | publish position p => exact (ih (w.make position p).2).trans (w.retry_make position p)

theorem publishAll_append (w : Worker) (before after : List PublicationStep) :
    w.publishAll (before ++ after) =
      ((w.publishAll before).1 ++ ((w.publishAll before).2.publishAll after).1,
        ((w.publishAll before).2.publishAll after).2) := by
  induction before generalizing w with
  | nil => rfl
  | cons step before ih =>
      cases step with
      | fail e => exact ih (w.failLater e)
      | publish position p =>
          simp only [List.cons_append, publishAll]
          rw [ih (w.make position p).2]

/-- What the calls of a sequence do together. -/
theorem publishAll_total (w : Worker) (steps : List PublicationStep) :
    let b := w.exchange.backplane
    let b' := (w.publishAll steps).2.exchange.backplane
    let done := accepted (w.publishAll steps).1
    b'.published = done.foldl Publication.apply b.published ∧
      ∃ spent, b.mutationFailures ++ arranged steps = spent ++ b'.mutationFailures ∧
        b'.mutationCalls = b.mutationCalls + spent.length + done.length := by
  intro b b' done
  induction steps generalizing w with
  | nil => exact ⟨rfl, [], List.append_nil _, rfl⟩
  | cons step rest ih =>
      cases step with
      | fail e =>
          obtain ⟨published, spent, failures, calls⟩ := ih (w.failLater e)
          refine ⟨published, spent, Eq.trans ?_ failures, calls⟩
          simp [b, arranged, failLater]
      | publish position p =>
          obtain ⟨applied, left, ⟨k, spent, -, failures, calls, one, none⟩, -⟩ :=
            w.settles_make position p
          obtain ⟨published, spent', failures', calls'⟩ := ih (w.make position p).2
          have consumed : b.mutationFailures ++ arranged (.publish position p :: rest) =
              (spent ++ spent') ++ b'.mutationFailures := by
            rw [List.append_assoc]
            refine Eq.trans ?_ (congrArg (spent ++ ·) failures')
            rw [← List.append_assoc, ← failures]
            rfl
          have total : b'.mutationCalls = b.mutationCalls + k + spent'.length +
              (accepted ((w.make position p).2.publishAll rest).1).length := by
            rw [← calls]
            exact calls'
          have count : done = accepted
              ((p, (w.make position p).1) :: ((w.make position p).2.publishAll rest).1) := rfl
          cases answer : (w.make position p).1 with
          | ok =>
              rw [answer] at count
              have count : done = p :: accepted ((w.make position p).2.publishAll rest).1 := count
              refine ⟨?_, spent ++ spent', consumed, ?_⟩
              · rw [count, List.foldl_cons, ← applied answer]
                exact published
              · rw [total, count, one answer, List.length_append, List.length_cons]
                omega
          | error e =>
              rw [answer] at count
              have count : done = accepted ((w.make position p).2.publishAll rest).1 := count
              refine ⟨?_, spent ++ spent', consumed, ?_⟩
              · rw [count, ← left e answer]
                exact published
              · rw [total, count, (none e answer).1, List.length_append]
                omega

/-- **Publications take effect once or not at all.** Whatever is published in whatever order, while
more failures are arranged in between: each call settles as `Settles` says. Together the calls have
used up failures from the front, each by one attempt, and all other attempts are those with which
calls succeeded; what is published is what these calls have published, in their order. -/
theorem publishAll_settles (w : Worker) :
    (∀ before position p after,
      let u := (w.publishAll before).2
      let made := u.make position p
      Settles w.retry p u.exchange.backplane made.1 made.2.exchange.backplane ∧
        w.publishAll (before ++ .publish position p :: after) =
          ((w.publishAll before).1 ++ (p, made.1) :: (made.2.publishAll after).1,
            (made.2.publishAll after).2)) ∧
    ∀ steps,
      let b := w.exchange.backplane
      let b' := (w.publishAll steps).2.exchange.backplane
      let done := accepted (w.publishAll steps).1
      b'.published = done.foldl Publication.apply b.published ∧
        ∃ spent, b.mutationFailures ++ arranged steps = spent ++ b'.mutationFailures ∧
          b'.mutationCalls = b.mutationCalls + spent.length + done.length := by
  refine ⟨fun before position p after => ?_, w.publishAll_total⟩
  intro u
  have settles := u.settles_make position p
  rw [w.retry_publishAll before] at settles
  refine ⟨settles, ?_⟩
  rw [publishAll_append]
  rfl

end Worker

end BuildWorker
