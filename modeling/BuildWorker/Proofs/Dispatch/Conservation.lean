import BuildWorker.Proofs.Dispatch.Round
import BuildWorker.Proofs.Tables
import Mathlib.Data.List.Perm.Basic

/-!
# No unit of work is lost or duplicated

Any number of matchers share an exchange. Units are queued, matched, requeued and deactivated in
any order; each round of a matcher has a listener, a platform and interrupts of its own. A
`Ledger` goes along and sorts the units by what can be seen from outside: what left the queue,
what the backplane recorded as given back, what listeners were offered, and what was in the
registry before and after.

`Ledger.run_conserves` says that the accounts balance. A unit that leaves the queue and turns up
nowhere is booked as discarded, so what has to be shown of these is that one of their name was
claimed when they were handed out.

Nobody renews leases here, and the backplane takes back what it is given, as the one in memory
does unless it is told to fail.
-/

namespace BuildWorker

/-! ### What calls do to the lists -/

/-- A unit that is handed out was the first of the queue. -/
theorem Backplane.dispatch_some {b : Backplane} {e : QueueEntry}
    (answer : b.dispatch.1 = .ok (some e)) :
    ∃ rest, b.queue = e :: rest ∧ b.dispatch.2 = { b with queue := rest } := by
  unfold dispatch at answer ⊢
  split at answer
  · cases answer
  · cases answer
  next rest _ queue =>
    cases answer
    exact ⟨rest, queue, rfl⟩

/-- Where nothing is handed out, a failure is used up at most. -/
theorem Backplane.dispatch_none {b : Backplane} (answer : ∀ e, b.dispatch.1 ≠ .ok (some e)) :
    ∃ dispatchFailures, b.dispatch.2 = { b with dispatchFailures } := by
  unfold dispatch at answer ⊢
  split at answer
  · exact ⟨_, rfl⟩
  · exact ⟨_, rfl⟩
  next e rest _ queue => exact absurd rfl (answer e)

/-- A backplane that takes back what it is given records it. -/
theorem Backplane.reject_accepting {b : Backplane} (accepting : b.rejectFailures = [])
    (e : QueueEntry) : (b.reject e).2 =
      { b with rejectCalls := b.rejectCalls ++ [e.name], rejected := b.rejected ++ [e] } := by
  unfold reject
  dsimp only
  rw [accepting]

namespace Registry

/-- The names of the claimed units. -/
def names (r : Registry) : List String := r.entries.map Prod.fst

/-- The claimed units. -/
def units (r : Registry) : List QueueEntry := r.entries.map Prod.snd

@[simp] theorem units_insert (r : Registry) (e : QueueEntry) : (r.insert e).units = e :: r.units :=
  rfl

theorem contains_iff_mem (r : Registry) (name : String) :
    r.contains name = true ↔ name ∈ r.names := by
  rw [contains, get?, names]
  induction r.entries with
  | nil => simp
  | cons p rest ih =>
      rw [List.lookup_cons, List.map_cons, List.mem_cons]
      cases same : name == p.1 with
      | true => simp [beq_iff_eq.1 same]
      | false => simp [ih, beq_eq_false_iff_ne.1 same]

theorem nodup_erase {r : Registry} (distinct : r.names.Nodup) (name : String) :
    (r.erase name).names.Nodup :=
  distinct.sublist (List.filter_sublist.map Prod.fst)

theorem nodup_insert {r : Registry} (distinct : r.names.Nodup) {e : QueueEntry}
    (free : r.contains e.name = false) : (r.insert e).names.Nodup := by
  refine List.nodup_cons.2 ⟨fun mem => ?_, distinct⟩
  rw [(r.contains_iff_mem e.name).2 mem] at free
  cases free

/-- A name that is free is not touched by erasing it. -/
theorem erase_of_free {r : Registry} {name : String} (free : r.contains name = false) :
    r.erase name = r := by
  have keep : ∀ p ∈ r.entries, (p.1 != name) = true := by
    intro p mem
    refine bne_iff_ne.2 fun same => ?_
    have there : name ∈ r.names := List.mem_map.2 ⟨p, mem, same⟩
    rw [(r.contains_iff_mem name).2 there] at free
    cases free
  rw [erase, List.filter_eq_self.2 keep]

/-- Claiming a unit of a free name and erasing the name again changes nothing. -/
theorem erase_insert {r : Registry} {e : QueueEntry} (free : r.contains e.name = false) :
    (r.insert e).erase e.name = r := by
  rw [← erase_of_free free]
  simp [insert, erase]

/-- Where no name is claimed twice, erasing a name releases the unit of that name and no other. -/
theorem units_erase {r : Registry} (distinct : r.names.Nodup) (name : String) :
    r.units.Perm ((r.get? name).toList ++ (r.erase name).units) := by
  obtain ⟨entries⟩ := r
  induction entries with
  | nil => exact .refl _
  | cons p rest ih =>
      obtain ⟨key, e⟩ := p
      obtain ⟨fresh, distinct⟩ := List.nodup_cons.1 distinct
      by_cases same : name = key
      · subst same
        have free : contains ⟨rest⟩ name = false :=
          Bool.eq_false_iff.2 fun claimed => fresh ((contains_iff_mem _ _).1 claimed)
        have erased : erase ⟨(name, e) :: rest⟩ name = ⟨rest⟩ := by
          rw [← erase_of_free free]
          simp [erase]
        have found : get? ⟨(name, e) :: rest⟩ name = some e := by
          rw [get?, List.lookup_cons_self]
        rw [erased, found]
        exact .refl _
      · have found : get? ⟨(key, e) :: rest⟩ name = get? ⟨rest⟩ name := by
          rw [get?, List.lookup_cons, beq_eq_false_iff_ne.2 same]
          rfl
        have kept : (erase ⟨(key, e) :: rest⟩ name).units = e :: (erase ⟨rest⟩ name).units := by
          simp [erase, units, Ne.symm same]
        rw [found, kept]
        exact ((ih distinct).cons e).trans List.perm_middle.symm

end Registry

/-! ### The ledger -/

/-- One round of some matcher: what the matcher is, and how it is interrupted. -/
structure Iteration where
  /-- What the worker offers. -/
  platform : Platform
  /-- How long the backplane takes to hand out a unit. -/
  latency : Nat := 0
  /-- Whether an interrupt comes just before the unit is handed out. -/
  interruptsDispatch : Bool := false
  /-- Who receives the unit. -/
  listener : Listener := {}
  /-- Whether the matcher is interrupted before the round. -/
  interrupted : Bool := false
  /-- When an interrupt will come. -/
  alarm : Option Nat := none

/-- The matcher before the round. -/
def Iteration.begin (i : Iteration) (x : Exchange) : Match where
  platform := i.platform
  latency := i.latency
  interruptsDispatch := i.interruptsDispatch
  listener := i.listener
  exchange := { x with roster := { x.roster with interrupted := i.interrupted }, alarm := i.alarm }

/-- A call on the dispatch side. -/
inductive DispatchCall
  /-- Queue a unit. -/
  | enqueue (e : QueueEntry)
  /-- Let a later request for work fail. -/
  | failDispatch (error : BackplaneError)
  /-- Say how a later renewal is answered. -/
  | answerPoll (answer : PollAnswer)
  /-- A round of a matcher. -/
  | iterate (i : Iteration)
  /-- Give a claimed unit back early. -/
  | requeue (name : String)
  /-- Forget a claimed unit. -/
  | deactivate (name : String)

/-- An exchange, and what became of the units. -/
structure Ledger where
  exchange : Exchange := {}
  /-- The units that were queued. -/
  enqueued : List QueueEntry := []
  /-- The units that were deactivated. -/
  deactivated : List QueueEntry := []
  /-- The units that were requeued, in order. -/
  requeued : List QueueEntry := []
  /-- The units that turned up nowhere, with the registry as it was when they were handed out. -/
  discarded : List (QueueEntry × Registry) := []

namespace Ledger

/-- What left the queue. -/
def handedOut (before after : Exchange) : List QueueEntry :=
  before.backplane.queue.take (before.backplane.queue.length - after.backplane.queue.length)

/-- What the backplane recorded as given back. -/
def givenBack (before after : Exchange) : List QueueEntry :=
  after.backplane.rejected.drop before.backplane.rejected.length

/-- What the listener was offered. -/
def offered (before after : Match) : List QueueEntry := after.units.drop before.units.length

/-- Book a round. An offered unit that is not claimed afterwards was requeued, and a unit that was
handed out and neither given back nor offered was discarded. -/
def book (l : Ledger) (before after : Match) : Ledger :=
  let offered := offered before after
  let back := givenBack before.exchange after.exchange
  { l with
    exchange := after.exchange
    requeued := l.requeued ++ offered.filter fun e => !after.exchange.registry.contains e.name
    discarded := l.discarded ++
      ((handedOut before.exchange after.exchange).diff (back ++ offered)).map
        fun e => (e, before.exchange.registry) }

/-- Let a matcher make a round, and book it. -/
def iterate (l : Ledger) (i : Iteration) : Ledger :=
  l.book (i.begin l.exchange) (i.begin l.exchange).round.2

/-- Make a call and book it. -/
def perform (l : Ledger) : DispatchCall → Ledger
  | .enqueue e =>
    { l with
      exchange := { l.exchange with backplane := l.exchange.backplane.enqueue e }
      enqueued := l.enqueued ++ [e] }
  | .failDispatch error =>
    { l with exchange := { l.exchange with backplane := { l.exchange.backplane with
      dispatchFailures := l.exchange.backplane.dispatchFailures ++ [error] } } }
  | .answerPoll answer =>
    { l with exchange := { l.exchange with backplane := { l.exchange.backplane with
      pollAnswers := l.exchange.backplane.pollAnswers ++ [answer] } } }
  | .iterate i => l.iterate i
  | .requeue name =>
    { l with
      exchange := l.exchange.requeue name
      requeued := l.requeued ++ (l.exchange.registry.get? name).toList }
  | .deactivate name =>
    { l with
      exchange := l.exchange.deactivate name
      deactivated := l.deactivated ++ (l.exchange.registry.get? name).toList }

/-- Any number of calls. -/
def run (l : Ledger) (calls : List DispatchCall) : Ledger := calls.foldl perform l

/-- The units in the registry. -/
def claimed (l : Ledger) : List QueueEntry := l.exchange.registry.units

/-- What the backplane was asked, without the time. -/
def request (p : LeasePoll) : String × ExecutionStage × Nat := (p.name, p.stage, p.extendBy)

/-- What it is asked when a unit is given back early. -/
def early (e : QueueEntry) : String × ExecutionStage × Nat := (e.name, .queued, 0)

/-- What holds at all times. -/
structure Balanced (l : Ledger) : Prop where
  /-- Nobody renews leases. -/
  quiet : l.exchange.roster.arms = []
  /-- The backplane takes back what it is given. -/
  accepting : l.exchange.backplane.rejectFailures = []
  /-- No name is claimed twice. -/
  distinct : l.exchange.registry.names.Nodup
  /-- Every unit is somewhere, and as often as it was queued. -/
  balance : ∀ e, l.enqueued.count e = l.exchange.backplane.queue.count e +
    l.exchange.backplane.rejected.count e + l.claimed.count e + l.deactivated.count e +
    l.requeued.count e + (l.discarded.map Prod.fst).count e
  /-- One of the name of a discarded unit was claimed. -/
  duplicates : ∀ x ∈ l.discarded, x.2.contains x.1.name = true
  told : l.exchange.backplane.polls.map request = l.requeued.map early

theorem balanced_empty : Balanced {} where
  quiet := rfl
  accepting := rfl
  distinct := List.nodup_nil
  balance _ := rfl
  duplicates := nofun
  told := rfl

/-! ### What is booked -/

theorem handedOut_eq {before after : Exchange} {handed : List QueueEntry}
    (h : before.backplane.queue = handed ++ after.backplane.queue) :
    handedOut before after = handed := by
  rw [handedOut, h, List.length_append, Nat.add_sub_cancel, List.take_left]

theorem givenBack_eq {before after : Exchange} {back : List QueueEntry}
    (h : after.backplane.rejected = before.backplane.rejected ++ back) :
    givenBack before after = back := by
  rw [givenBack, h, List.drop_left]

theorem offered_eq {before after : Match} {units : List QueueEntry}
    (h : after.units = before.units ++ units) : offered before after = units := by
  rw [offered, h, List.drop_left]

/-- A round is booked by what it hands out, takes back and offers. -/
theorem book_eq (l : Ledger) {before after : Match} {handed back units : List QueueEntry}
    (queue : before.exchange.backplane.queue = handed ++ after.exchange.backplane.queue)
    (rejected : after.exchange.backplane.rejected = before.exchange.backplane.rejected ++ back)
    (heard : after.units = before.units ++ units) :
    l.book before after =
      { l with
        exchange := after.exchange
        requeued := l.requeued ++
          units.filter fun e => !after.exchange.registry.contains e.name
        discarded := l.discarded ++
          (handed.diff (back ++ units)).map fun e => (e, before.exchange.registry) } := by
  rw [book, handedOut_eq queue, givenBack_eq rejected, offered_eq heard]

/-! ### The accounts stay balanced -/

/-- Accounts stay balanced when what is added to the queue, to what was given back and so on adds
up, and the backplane was told of what was requeued. -/
theorem Balanced.settle {l l' : Ledger} (h : l.Balanced)
    {enqueued deactivated requeued : List QueueEntry} {discarded : List (QueueEntry × Registry)}
    (quiet : l'.exchange.roster.arms = [])
    (accepting : l'.exchange.backplane.rejectFailures = [])
    (distinct : l'.exchange.registry.names.Nodup)
    (queued : l'.enqueued = l.enqueued ++ enqueued)
    (forgotten : l'.deactivated = l.deactivated ++ deactivated)
    (released : l'.requeued = l.requeued ++ requeued)
    (dropped : l'.discarded = l.discarded ++ discarded)
    (moved : ∀ e, l.exchange.backplane.queue.count e + l.exchange.backplane.rejected.count e +
      l.claimed.count e + enqueued.count e = l'.exchange.backplane.queue.count e +
      l'.exchange.backplane.rejected.count e + l'.claimed.count e + deactivated.count e +
      requeued.count e + (discarded.map Prod.fst).count e)
    (duplicates : ∀ x ∈ discarded, x.2.contains x.1.name = true)
    (told : l'.exchange.backplane.polls.map request = l.exchange.backplane.polls.map request ++
      requeued.map early) : l'.Balanced where
  quiet := quiet
  accepting := accepting
  distinct := distinct
  balance e := by
    have balance := h.balance e
    have moved := moved e
    rw [queued, forgotten, released, dropped, List.map_append]
    simp only [List.count_append]
    omega
  duplicates x mem := by
    rw [dropped] at mem
    rcases List.mem_append.1 mem with old | new
    · exact h.duplicates x old
    · exact duplicates x new
  told := by rw [told, released, List.map_append, h.told]

/-- A booked round keeps the balance when what it hands out is given back, claimed, requeued or
discarded. -/
theorem Balanced.book_of {l : Ledger} (h : l.Balanced) {i : Iteration} {after : Match}
    {handed queue rejected back units requeued gone : List QueueEntry}
    {dispatchFailures : List BackplaneError} {rejectCalls : List String} {polls : List LeasePoll}
    {pollAnswers : List PollAnswer}
    (first : l.exchange.backplane.queue = handed ++ queue)
    (quiet : after.exchange.roster.arms = [])
    (backplane : after.exchange.backplane = { l.exchange.backplane with
      queue, dispatchFailures, rejectCalls, rejected, polls, pollAnswers })
    (returned : rejected = l.exchange.backplane.rejected ++ back)
    (heard : after.units = (i.begin l.exchange).units ++ units)
    (again : (units.filter fun e => !after.exchange.registry.contains e.name) = requeued)
    (lost : handed.diff (back ++ units) = gone)
    (distinct : after.exchange.registry.names.Nodup)
    (moved : ∀ e, handed.count e + l.exchange.registry.units.count e = back.count e +
      after.exchange.registry.units.count e + requeued.count e + gone.count e)
    (duplicates : ∀ e ∈ gone, l.exchange.registry.contains e.name = true)
    (told : polls.map request =
      l.exchange.backplane.polls.map request ++ requeued.map early) :
    (l.book (i.begin l.exchange) after).Balanced := by
  have taken : (i.begin l.exchange).exchange.backplane.queue =
      handed ++ after.exchange.backplane.queue := by
    rw [backplane]
    exact first
  have added : after.exchange.backplane.rejected =
      (i.begin l.exchange).exchange.backplane.rejected ++ back := by
    rw [backplane]
    exact returned
  rw [l.book_eq taken added heard, again, lost]
  refine h.settle quiet ?_ distinct (List.append_nil _).symm (List.append_nil _).symm rfl rfl
    (fun e => ?_) (fun x mem => ?_) ?_
  · change after.exchange.backplane.rejectFailures = []
    rw [backplane]
    exact h.accepting
  · -- What was first in the queue has gone to one of the other accounts.
    have moved := moved e
    change _ + _ + l.exchange.registry.units.count e + _ = after.exchange.backplane.queue.count e +
      after.exchange.backplane.rejected.count e + after.exchange.registry.units.count e + _ + _ + _
    rw [backplane, first, returned, List.map_map, Function.comp_def, List.map_id']
    simp only [List.count_append, List.count_nil]
    omega
  · obtain ⟨e, there, rfl⟩ := List.mem_map.1 mem
    exact duplicates e there
  · change after.exchange.backplane.polls.map request = _
    rw [backplane]
    exact told

/-- A round that hands nothing out keeps the balance. -/
theorem Balanced.book_idle {l : Ledger} (h : l.Balanced) {i : Iteration} {after : Match}
    {dispatchFailures : List BackplaneError} (quiet : after.exchange.roster.arms = [])
    (backplane : after.exchange.backplane = { l.exchange.backplane with dispatchFailures })
    (registry : after.exchange.registry = l.exchange.registry)
    (heard : after.units = (i.begin l.exchange).units) :
    (l.book (i.begin l.exchange) after).Balanced := by
  refine h.book_of (List.nil_append _).symm quiet backplane (List.append_nil _).symm
    (heard.trans (List.append_nil _).symm) rfl rfl ?_ (fun e => ?_) nofun (List.append_nil _).symm
  · rw [registry]
    exact h.distinct
  · rw [registry]
    simp

/-- A unit that is handed out was the first of the queue before the round. -/
theorem Balanced.hands_first {l : Ledger} (h : l.Balanced) {i : Iteration} {x : Exchange}
    {e : QueueEntry} (before : (i.begin l.exchange).exchange.Waits x)
    (answer : x.backplane.dispatch.1 = .ok (some e)) :
    ∃ queue, l.exchange.backplane.queue = [e] ++ queue ∧ x.roster.arms = [] ∧
      x.backplane.dispatch.2 = { l.exchange.backplane with queue } ∧
      x.registry = l.exchange.registry := by
  obtain ⟨quiet, backplane⟩ := before.quiet h.quiet
  obtain ⟨queue, first, left⟩ := Backplane.dispatch_some answer
  rw [backplane] at first left
  rw [backplane]
  exact ⟨queue, first, quiet, left, before.registry⟩

/-- Whatever a round does keeps the balance. -/
theorem Balanced.book {l : Ledger} (h : l.Balanced) {i : Iteration} {after : Match}
    (rounds : (i.begin l.exchange).Rounds after) :
    (l.book (i.begin l.exchange) after).Balanced := by
  cases rounds with
  | stopped waits units =>
      obtain ⟨quiet, backplane⟩ := waits.quiet h.quiet
      exact h.book_idle quiet backplane waits.registry units
  | @empty x before answer waits units =>
      obtain ⟨quiet, backplane⟩ := before.quiet h.quiet
      obtain ⟨quiet, backplane'⟩ := waits.quiet quiet
      obtain ⟨failures, left⟩ := Backplane.dispatch_none answer
      rw [left, backplane] at backplane'
      exact h.book_idle quiet backplane' (waits.registry.trans before.registry) units
  | @returned x y e before answer waits back units =>
      obtain ⟨queue, first, quiet, left, same⟩ := h.hands_first before answer
      obtain ⟨quiet, backplane⟩ := waits.quiet quiet
      rw [left] at backplane
      -- A backplane that failed to take the unit back would lose it.
      have accepting : y.backplane.rejectFailures = [] := by
        rw [backplane]
        exact h.accepting
      rw [Backplane.reject_accepting accepting, backplane] at back
      have registry : after.exchange.registry = l.exchange.registry := by
        rw [back]
        exact waits.registry.trans same
      refine h.book_of first ?_ (congrArg Exchange.backplane back) rfl
        (units.trans (List.append_nil _).symm) rfl rfl ?_ (fun a => ?_) ?_ (List.append_nil _).symm
      · rw [back]
        exact quiet
      · rw [registry]
        exact h.distinct
      · rw [registry]
        simp
      · simp
  | @dropped x e before answer claimed waits units =>
      obtain ⟨queue, first, quiet, left, same⟩ := h.hands_first before answer
      obtain ⟨quiet, backplane⟩ := waits.quiet quiet
      rw [left] at backplane
      have registry : after.exchange.registry = l.exchange.registry :=
        waits.registry.trans same
      rw [same] at claimed
      refine h.book_of first quiet backplane (List.append_nil _).symm
        (units.trans (List.append_nil _).symm) rfl rfl ?_ (fun a => ?_) ?_ (List.append_nil _).symm
      · rw [registry]
        exact h.distinct
      · rw [registry]
        simp [Nat.add_comm]
      · simpa using claimed
  | @taken x e before answer free waits units =>
      obtain ⟨queue, first, quiet, left, same⟩ := h.hands_first before answer
      obtain ⟨quiet, backplane⟩ := waits.quiet quiet
      rw [left] at backplane
      have registry : after.exchange.registry = l.exchange.registry.insert e := by
        rw [← same]
        exact waits.registry
      rw [same] at free
      -- The unit is claimed now, so the offer is not booked as a requeue.
      have held : after.exchange.registry.contains e.name = true := by
        rw [registry]
        simp [Registry.contains]
      have kept : ([e].filter fun e => !after.exchange.registry.contains e.name) = [] := by
        rw [List.filter_singleton, held]
        rfl
      refine h.book_of first quiet backplane (List.append_nil _).symm units kept rfl ?_
        (fun a => ?_) ?_ (List.append_nil _).symm
      · rw [registry]
        exact Registry.nodup_insert h.distinct free
      · rw [registry, Registry.units_insert]
        simp [List.count_cons, Nat.add_comm]
      · simp
  | @refused x y e before answer free waits released units =>
      obtain ⟨queue, first, quiet, left, same⟩ := h.hands_first before answer
      obtain ⟨quiet, backplane⟩ := waits.quiet quiet
      rw [left] at backplane
      have registry : y.registry = l.exchange.registry.insert e := by
        rw [← same]
        exact waits.registry
      rw [same] at free
      have claimed : y.registry.get? e.name = some e := by
        rw [registry]
        simp
      have requeued := Exchange.waits_requeue claimed
      rw [← released] at requeued
      obtain ⟨quiet, polled⟩ := requeued.quiet quiet
      rw [y.backplane.poll_eq, backplane] at polled
      -- The name was free, so its claim and release leave the registry as it was.
      have emptied : after.exchange.registry = l.exchange.registry := by
        rw [requeued.registry, registry]
        exact Registry.erase_insert free
      have gone : after.exchange.registry.contains e.name = false := by
        rw [emptied]
        exact free
      have again : ([e].filter fun e => !after.exchange.registry.contains e.name) = [e] := by
        rw [List.filter_singleton, gone]
        rfl
      refine h.book_of first quiet polled (List.append_nil _).symm units again rfl ?_
        (fun a => ?_) ?_ ?_
      · rw [emptied]
        exact h.distinct
      · rw [emptied]
        simp [Nat.add_comm]
      · simp
      · rw [List.map_append]
        rfl

theorem Balanced.iterate {l : Ledger} (h : l.Balanced) (i : Iteration) : (l.iterate i).Balanced :=
  h.book (i.begin l.exchange).round_rounds

theorem Balanced.requeue {l : Ledger} (h : l.Balanced) (name : String) :
    (l.perform (.requeue name)).Balanced := by
  have released := Registry.units_erase h.distinct name
  cases claimed : l.exchange.registry.get? name with
  | none =>
      have idle : l.perform (.requeue name) = l := by
        simp only [perform, Exchange.requeue, claimed, Option.toList_none, List.append_nil]
      rw [idle]
      exact h
  | some e =>
      have requeued := Exchange.waits_requeue claimed
      obtain ⟨quiet, backplane⟩ := requeued.quiet h.quiet
      rw [l.exchange.backplane.poll_eq] at backplane
      have registry := requeued.registry
      dsimp only at backplane registry
      rw [claimed] at released
      have told : (l.exchange.requeue name).backplane.polls.map request =
          l.exchange.backplane.polls.map request ++ [early e] := by
        rw [backplane, List.map_append]
        rfl
      refine h.settle quiet ?_ ?_ (List.append_nil _).symm (List.append_nil _).symm rfl
        (List.append_nil _).symm (fun a => ?_) nofun ?_
      · change (l.exchange.requeue name).backplane.rejectFailures = []
        rw [backplane]
        exact h.accepting
      · change (l.exchange.requeue name).registry.names.Nodup
        rw [registry]
        exact Registry.nodup_erase h.distinct name
      · have moved := released.count_eq a
        change _ + _ + l.exchange.registry.units.count a + _ =
          (l.exchange.requeue name).backplane.queue.count a +
            (l.exchange.requeue name).backplane.rejected.count a +
            (l.exchange.requeue name).registry.units.count a + _ + _ + _
        rw [backplane, registry, claimed]
        rw [List.count_append] at moved
        simp only [List.count_nil, List.map_nil]
        omega
      · rw [claimed]
        exact told

theorem Balanced.perform {l : Ledger} (h : l.Balanced) (call : DispatchCall) :
    (l.perform call).Balanced := by
  cases call with
  | enqueue e =>
      refine h.settle h.quiet h.accepting h.distinct rfl (List.append_nil _).symm
        (List.append_nil _).symm (List.append_nil _).symm (fun a => ?_) nofun
        (List.append_nil _).symm
      change _ = (l.exchange.backplane.queue ++ [e]).count a +
        l.exchange.backplane.rejected.count a + l.claimed.count a + _ + _ + _
      rw [List.count_append]
      simp only [List.count_nil, List.map_nil]
      omega
  | failDispatch error | answerPoll answer =>
      exact ⟨h.quiet, h.accepting, h.distinct, h.balance, h.duplicates, h.told⟩
  | iterate i => exact h.iterate i
  | requeue name => exact h.requeue name
  | deactivate name =>
      have released := Registry.units_erase h.distinct name
      refine h.settle h.quiet h.accepting (Registry.nodup_erase h.distinct name)
        (List.append_nil _).symm rfl (List.append_nil _).symm (List.append_nil _).symm
        (fun a => ?_) nofun (List.append_nil _).symm
      have moved := released.count_eq a
      change _ + _ + l.exchange.registry.units.count a + _ =
        l.exchange.backplane.queue.count a + l.exchange.backplane.rejected.count a +
          (l.exchange.registry.erase name).units.count a + _ + _ + _
      rw [List.count_append] at moved
      simp only [List.count_nil, List.map_nil]
      omega

theorem Balanced.run {l : Ledger} (h : l.Balanced) (calls : List DispatchCall) :
    (l.run calls).Balanced := by
  induction calls generalizing l with
  | nil => exact h
  | cons call calls ih => exact ih (h.perform call)

/-- Whatever is called and however it interleaves, every unit that was queued is still queued, was
given back, is claimed, was deactivated, was requeued or was discarded, and is in one of these
places only. A unit is discarded only if one of its name was claimed when it was handed out, and
the backplane was told of the requeued units one by one. -/
theorem run_conserves (calls : List DispatchCall) :
    let l := run {} calls
    l.enqueued.Perm (l.exchange.backplane.queue ++ l.exchange.backplane.rejected ++ l.claimed ++
      l.deactivated ++ l.requeued ++ l.discarded.map Prod.fst) ∧
    (∀ x ∈ l.discarded, x.2.contains x.1.name = true) ∧
    l.exchange.backplane.polls.map request = l.requeued.map early := by
  intro l
  have balanced : l.Balanced := balanced_empty.run calls
  refine ⟨List.perm_iff_count.2 fun e => ?_, balanced.duplicates, balanced.told⟩
  simp only [List.count_append]
  exact balanced.balance e

end Ledger

end BuildWorker
