import BuildWorker.Dispatch.Match

/-!
# What a round of matching does

While a worker waits, time passes and leases are renewed, but units of work stay where they are
(`Exchange.Waits`). Apart from waiting, a round takes at most one unit from the queue, and that
unit has one of four fates: it is given back, dropped because one of its name is claimed, taken
by the listener, or refused by it and requeued. `Match.Rounds` lists all that a round can do, and
`Match.round_rounds` says that it does one of these.
-/

namespace BuildWorker

/-! ### Waiting -/

/-- Where nobody renews leases, time passes and that is all. -/
theorem Roster.advanceTo_of_arms_nil {ε σ : Type} (ask : Asking ε σ)
    (order : Roster ε → List Turn) (target : Nat) {r : Roster ε} (h : r.arms = []) (s : σ) :
    r.advanceTo ask order target s = ({ r with now := max r.now target }, s) := by
  have due : r.nextDue? = none := by
    rw [nextDue?, h]
    rfl
  rw [advanceTo, due, Option.getD_none, dif_neg (by omega)]

namespace Exchange

/-- What waiting does: leases may be renewed, and nothing else changes hands. -/
structure Waits (x y : Exchange) : Prop where
  /-- What is claimed stays. -/
  registry : y.registry = x.registry
  /-- The backplane is asked to renew leases at most. -/
  backplane : ∃ polls pollAnswers, y.backplane = { x.backplane with polls, pollAnswers }
  /-- Where nobody renews leases, it is not asked at all. -/
  quiet : x.roster.arms = [] → y.roster.arms = [] ∧ y.backplane = x.backplane

theorem Waits.refl (x : Exchange) : x.Waits x := ⟨rfl, ⟨_, _, rfl⟩, fun quiet => ⟨quiet, rfl⟩⟩

theorem Waits.trans {x y z : Exchange} (h : x.Waits y) (h' : y.Waits z) : x.Waits z := by
  refine ⟨h'.registry.trans h.registry, ?_, fun quiet => ?_⟩
  · obtain ⟨_, _, eq⟩ := h.backplane
    obtain ⟨polls, answers, eq'⟩ := h'.backplane
    rw [eq] at eq'
    exact ⟨polls, answers, eq'⟩
  · obtain ⟨quiet, eq⟩ := h.quiet quiet
    obtain ⟨quiet, eq'⟩ := h'.quiet quiet
    exact ⟨quiet, eq'.trans eq⟩

theorem Waits.with_registry {x y : Exchange} (h : x.Waits y) (registry : Registry) :
    Waits { x with registry } { y with registry } :=
  ⟨rfl, h.backplane, h.quiet⟩

theorem waits_interrupt (x : Exchange) : x.Waits x.interrupt := by
  refine ⟨rfl, ⟨_, _, rfl⟩, fun quiet => ⟨?_, rfl⟩⟩
  change (x.roster.interrupt).arms = []
  unfold Roster.interrupt
  simp only [quiet, List.length_nil, List.range_zero, List.mergeSort_nil, List.foldl_nil]
  exact quiet

theorem waits_advanceTo (x : Exchange) (target : Nat) : x.Waits (x.advanceTo target) := by
  refine ⟨rfl, ?_, fun quiet => ?_⟩
  · refine Roster.advanceTo_induction (motive := fun b : Backplane =>
      ∃ polls pollAnswers, b = { x.backplane with polls, pollAnswers }) _ _ _ ?_ _ _ ⟨_, _, rfl⟩
    rintro now errand b ⟨polls, answers, rfl⟩
    simp only [LeaseErrand.ask, Backplane.poll_eq]
    exact ⟨_, _, rfl⟩
  · unfold advanceTo
    rw [Roster.advanceTo_of_arms_nil _ _ _ quiet]
    exact ⟨quiet, rfl⟩

theorem waits_waitUntil (x : Exchange) (target : Nat) : x.Waits (x.waitUntil target) := by
  unfold waitUntil
  split
  · exact waits_advanceTo x target
  · split
    · exact (waits_advanceTo x _).trans (waits_interrupt _)
    · exact waits_advanceTo x target

theorem waits_pass (x : Exchange) (ms : Nat) : x.Waits (x.pass ms) :=
  (waits_waitUntil x _).trans (waits_advanceTo _ _)

/-- A requeue of what is claimed tells the backplane, takes it from the registry and waits. -/
theorem waits_requeue {x : Exchange} {name : String} {e : QueueEntry}
    (claimed : x.registry.get? name = some e) :
    Waits { x with
      registry := x.registry.erase name, backplane := (x.backplane.poll e .queued 0 x.now).2 }
      (x.requeue name) := by
  unfold requeue
  rw [claimed]
  exact waits_pass _ _

end Exchange

/-! ### An interrupt stays -/

namespace Roster

variable {ε σ : Type}

@[simp] theorem interrupted_fail (r : Roster ε) (i : Nat) :
    (r.fail i).interrupted = r.interrupted := by
  unfold fail
  split
  · rfl
  · split <;> rfl

@[simp] theorem interrupted_answer (r : Roster ε) (i : Nat) (a : Arm ε) (status : LeaseStatus) :
    (r.answer i a status).interrupted = r.interrupted := by
  unfold answer
  dsimp only
  split <;> simp

@[simp] theorem interrupted_turn (ask : Asking ε σ) (t : Turn) (r : Roster ε) (s : σ) :
    (r.turn ask t s).1.interrupted = r.interrupted := by
  unfold turn
  split
  · rfl
  · split
    · rfl
    · dsimp only
      split <;> simp
    · split
      · rfl
      · dsimp only
        split <;> simp
    · dsimp only
      split <;> simp

@[simp] theorem interrupted_turns (ask : Asking ε σ) (ts : List Turn) (r : Roster ε) (s : σ) :
    (r.turns ask ts s).1.interrupted = r.interrupted := by
  induction ts generalizing r s with
  | nil => rfl
  | cons t rest ih => simp [turns, ih]

/-- Time that passes interrupts nobody. -/
@[simp] theorem interrupted_advanceTo (ask : Asking ε σ) (order : Roster ε → List Turn)
    (target : Nat) (r : Roster ε) (s : σ) :
    (r.advanceTo ask order target s).1.interrupted = r.interrupted := by
  fun_induction advanceTo ask order target r s with
  | case1 r s next hn r' served ih => exact ih.trans (interrupted_turns ask _ r' s)
  | case2 => rfl

@[simp] theorem interrupted_interrupt (r : Roster ε) : r.interrupt.interrupted = true := by
  have looks (order : List Nat) :
      ∀ r : Roster ε, r.interrupted = true → (order.foldl look r).interrupted = true := by
    induction order with
    | nil => exact fun _ cut => cut
    | cons i rest ih =>
        intro r cut
        refine ih _ ?_
        unfold look
        split
        · exact cut
        · split
          · rw [interrupted_fail, cut]
          · exact cut
  exact looks _ r.cut rfl

end Roster

namespace Exchange

@[simp] theorem interrupted_interrupt (x : Exchange) : x.interrupt.interrupted = true :=
  Roster.interrupted_interrupt x.roster

@[simp] theorem interrupted_advanceTo (x : Exchange) (target : Nat) :
    (x.advanceTo target).interrupted = x.interrupted :=
  Roster.interrupted_advanceTo _ _ target x.roster x.backplane

theorem interrupted_waitUntil {x : Exchange} (target : Nat) (cut : x.interrupted = true) :
    (x.waitUntil target).interrupted = true := by
  unfold waitUntil
  split
  · rw [interrupted_advanceTo, cut]
  · split
    · exact interrupted_interrupt _
    · rw [interrupted_advanceTo, cut]

theorem interrupted_requeue {x : Exchange} (name : String) (cut : x.interrupted = true) :
    (x.requeue name).interrupted = true := by
  unfold requeue
  split
  · exact cut
  next e _ =>
    dsimp only
    rw [pass, interrupted_advanceTo]
    exact interrupted_waitUntil _ cut

end Exchange

namespace Match

variable {m : Match}

theorem interrupted_tell (n : Notice) (cut : m.interrupted = true) :
    (m.tell n).interrupted = true := by
  unfold tell
  dsimp only
  split
  · exact Exchange.interrupted_interrupt _
  · exact cut

/-- An interrupted worker does not begin a round. -/
theorem round_interrupted (cut : m.interrupted = true) :
    m.round = (some (.error .interrupted), m) := by
  rw [round, if_pos cut]

end Match

/-! ### A round -/

/-- What a listener is told about one wait: that it begins, that it ends, and at most one offer. -/
def Notice.block (offer : Option (Option QueueEntry)) : List Notice :=
  [.waitStart, .waitEnd] ++ (offer.map Notice.offer).toList

@[simp] theorem Notice.block_none : Notice.block none = [.waitStart, .waitEnd] := rfl

@[simp] theorem Notice.block_some (unit : Option QueueEntry) :
    Notice.block (some unit) = [.waitStart, .waitEnd, .offer unit] := rfl

/-- The units that a listener was offered so far. -/
def Listener.units (l : Listener) : List QueueEntry :=
  l.heard.filterMap fun
    | .offer unit => unit
    | _ => none

namespace Match

/-- The units that the listener was offered so far. -/
def units (m : Match) : List QueueEntry := m.listener.units

/-- All that a round can do: before anything is handed out it waits, then the backplane answers,
and when that has been dealt with it has waited again. -/
inductive Rounds (m : Match) : Match → Prop
  /-- The backplane is not asked. -/
  | stopped {m' : Match} (waits : m.exchange.Waits m'.exchange) (units : m'.units = m.units) :
      Rounds m m'
  /-- No unit is handed out. -/
  | empty {m' : Match} {x : Exchange} (before : m.exchange.Waits x)
      (answer : ∀ e, x.backplane.dispatch.1 ≠ .ok (some e))
      (after : Exchange.Waits { x with backplane := x.backplane.dispatch.2 } m'.exchange)
      (units : m'.units = m.units) : Rounds m m'
  /-- A unit is given back. -/
  | returned {m' : Match} {x y : Exchange} {e : QueueEntry} (before : m.exchange.Waits x)
      (answer : x.backplane.dispatch.1 = .ok (some e))
      (after : Exchange.Waits { x with backplane := x.backplane.dispatch.2 } y)
      (back : m'.exchange = { y with backplane := (y.backplane.reject e).2 })
      (units : m'.units = m.units) : Rounds m m'
  /-- A unit is dropped, since one of its name is claimed. -/
  | dropped {m' : Match} {x : Exchange} {e : QueueEntry} (before : m.exchange.Waits x)
      (answer : x.backplane.dispatch.1 = .ok (some e))
      (claimed : x.registry.contains e.name = true)
      (after : Exchange.Waits { x with backplane := x.backplane.dispatch.2 } m'.exchange)
      (units : m'.units = m.units) : Rounds m m'
  /-- A unit is claimed, and the listener takes it. -/
  | taken {m' : Match} {x : Exchange} {e : QueueEntry} (before : m.exchange.Waits x)
      (answer : x.backplane.dispatch.1 = .ok (some e))
      (free : x.registry.contains e.name = false)
      (after : Exchange.Waits
        { x with backplane := x.backplane.dispatch.2, registry := x.registry.insert e } m'.exchange)
      (units : m'.units = m.units ++ [e])
      (accepts : m.listener.answers.headD true = true) : Rounds m m'
  /-- A unit is claimed, and the listener refuses it. -/
  | refused {m' : Match} {x y : Exchange} {e : QueueEntry} (before : m.exchange.Waits x)
      (answer : x.backplane.dispatch.1 = .ok (some e))
      (free : x.registry.contains e.name = false)
      (after : Exchange.Waits
        { x with backplane := x.backplane.dispatch.2, registry := x.registry.insert e } y)
      (released : m'.exchange = y.requeue e.name)
      (units : m'.units = m.units ++ [e])
      (declines : m.listener.answers.headD true = false) : Rounds m m'

theorem waits_tell (m : Match) (n : Notice) : m.exchange.Waits (m.tell n).exchange := by
  unfold tell
  dsimp only
  split
  · exact Exchange.waits_interrupt _
  · exact .refl _

theorem units_tell (m : Match) (n : Notice) : (m.tell n).units = m.units ++
    (match n with
      | .offer unit => unit.toList
      | _ => []) := by
  have heard : (m.tell n).listener.heard = m.listener.heard ++ [n] := by
    unfold tell
    dsimp only
    split <;> rfl
  rw [units, Listener.units, heard, List.filterMap_append, ← Listener.units, ← units]
  cases n with
  | offer unit => cases unit <;> rfl
  | waitStart | waitEnd => rfl

theorem answers_tell (m : Match) (n : Notice) :
    (m.tell n).listener.answers = m.listener.answers := by
  unfold tell
  dsimp only
  split <;> rfl

theorem waits_wait (m : Match) : m.exchange.Waits m.wait.exchange := by
  unfold wait
  split
  · exact .refl _
  · exact Exchange.waits_waitUntil _ _

theorem listener_wait (m : Match) : m.wait.listener = m.listener := by
  unfold wait
  split <;> rfl

/-- The backplane's answer comes from the backplane as it was after some waiting. -/
theorem dispatch_eq (m : Match) : ∃ x, m.exchange.Waits x ∧
    m.dispatch.1 = x.backplane.dispatch.1 ∧ m.dispatch.2.listener = m.listener ∧
    m.dispatch.2.exchange = { x with backplane := x.backplane.dispatch.2 } := by
  unfold dispatch
  dsimp only
  split
  · exact ⟨m.exchange.interrupt, Exchange.waits_interrupt _, rfl, rfl, rfl⟩
  · exact ⟨m.exchange, .refl _, rfl, rfl, rfl⟩

theorem waits_ask (m : Match) (unit : Option QueueEntry) :
    m.exchange.Waits (m.ask unit).2.exchange :=
  waits_tell m (.offer unit)

theorem units_ask (m : Match) (unit : Option QueueEntry) :
    (m.ask unit).2.units = m.units ++ unit.toList :=
  units_tell m (.offer unit)

/-- Once the backplane has answered, the round is one of those listed. -/
theorem receive_rounds {m m₁ : Match} {x : Exchange} (before : m.exchange.Waits x)
    (after : Exchange.Waits { x with backplane := x.backplane.dispatch.2 } m₁.exchange)
    (units : m₁.units = m.units) (answers : m₁.listener.answers = m.listener.answers) :
    m.Rounds (m₁.receive x.backplane.dispatch.1).2 := by
  -- Two ways in which a round can end are met more than once.
  have idle (answer : ∀ e, x.backplane.dispatch.1 ≠ .ok (some e)) :
      m.Rounds (m₁.place none).2 := by
    refine .empty before answer (after.trans (waits_ask m₁ none)) ?_
    exact ((units_ask m₁ none).trans (List.append_nil _)).trans units
  have returned {e : QueueEntry} (answer : x.backplane.dispatch.1 = .ok (some e)) :
      m.Rounds (m₁.reject e).2 :=
    .returned before answer after rfl units
  unfold receive
  split
  next e answer =>
    have unhanded : ∀ e, x.backplane.dispatch.1 ≠ .ok (some e) := by
      rw [answer]
      exact nofun
    split
    · exact .empty before unhanded after units
    · split
      · exact .empty before unhanded after units
      · exact idle unhanded
  next answer =>
    have unhanded : ∀ e, x.backplane.dispatch.1 ≠ .ok (some e) := by
      rw [answer]
      exact nofun
    split
    · exact .empty before unhanded after units
    · exact idle unhanded
  next e answer =>
    split
    · exact returned answer
    unfold place
    dsimp only
    split
    · have back := returned answer
      split
      next eq =>
        rw [eq] at back
        exact back
      next eq =>
        rw [eq] at back
        exact back
    · have registry : m₁.exchange.registry = x.registry := after.registry
      unfold Registry.insertNew?
      rw [registry]
      cases claimed : x.registry.contains e.name with
      | true => exact .dropped before answer claimed after units
      | false =>
          -- The claim is made after the wait, but a wait does not look at the registry.
          have claims := after.with_registry (x.registry.insert e)
          let m₂ : Match :=
            { m₁ with exchange := { m₁.exchange with registry := x.registry.insert e } }
          have asked := claims.trans (waits_ask m₂ (some e))
          have offered : (m₂.ask (some e)).2.units = m.units ++ [e] := by
            rw [units_ask m₂]
            exact congrArg (· ++ [e]) units
          -- The next answer of the listener is the one to this offer.
          have answered : (m₂.ask (some e)).1 = m.listener.answers.headD true :=
            congrArg (List.headD · true) ((answers_tell m₂ _).trans answers)
          rw [if_neg Bool.false_ne_true]
          dsimp only
          split
          next accepts =>
            exact .taken before answer claimed asked offered (answered.symm.trans accepts)
          next declines =>
            exact .refused before answer claimed asked rfl offered
              (answered.symm.trans (Bool.eq_false_iff.2 declines))

/-- A round does one of the things that are listed. -/
theorem round_rounds (m : Match) : m.Rounds m.round.2 := by
  unfold round
  split
  · exact .stopped (.refl _) rfl
  dsimp only
  -- Up to the answer nothing has moved, whether or not the wait was cut short.
  generalize waited : (if (m.tell .waitStart).interrupted then m.tell .waitStart
    else (m.tell .waitStart).wait) = m₁
  have begun := units_tell m .waitStart
  rw [List.append_nil] at begun
  obtain ⟨waits, listener⟩ :
      m.exchange.Waits m₁.exchange ∧ m₁.listener = (m.tell .waitStart).listener := by
    rw [← waited]
    split
    · exact ⟨waits_tell m _, rfl⟩
    · exact ⟨(waits_tell m _).trans (waits_wait _), listener_wait _⟩
  have units : m₁.units = m.units := (congrArg Listener.units listener).trans begun
  have ended (m' : Match) : (m'.tell .waitEnd).units = m'.units :=
    (units_tell m' .waitEnd).trans (List.append_nil _)
  split
  · exact .stopped (waits.trans (waits_tell m₁ _)) ((ended m₁).trans units)
  · obtain ⟨x, before, answer, same, exchange⟩ := m₁.dispatch_eq
    rw [answer]
    have heard : m₁.dispatch.2.units = m.units := (congrArg Listener.units same).trans units
    have answers : m₁.dispatch.2.listener.answers = m.listener.answers := by
      rw [same, listener, answers_tell]
    refine receive_rounds (waits.trans before) ?_ ((ended _).trans heard)
      ((answers_tell _ _).trans answers)
    rw [← exchange]
    exact waits_tell _ _

/-! ### A run -/

/-- What happens between two rounds: others have their turn. -/
def pause (m : Match) : Match := { m with exchange := m.exchange.waitUntil m.exchange.now }

theorem run_ends {m m' : Match} {result : Except ExecutionError Unit}
    (ends : m.round = (some result, m')) : m.run = (result, m') := by
  rw [run]
  generalize budget_round m = falls
  revert falls
  rw [ends]
  exact fun _ => rfl

theorem run_goes {m next : Match} (goes : m.round = (none, next)) : m.run = next.pause.run := by
  rw [run]
  generalize budget_round m = falls
  revert falls
  rw [goes]
  exact fun _ => rfl

/-- An interrupted worker ends matching at once. -/
theorem run_interrupted {m : Match} (cut : m.interrupted = true) :
    m.run = (.error .interrupted, m) :=
  run_ends (round_interrupted cut)

/-- Matching goes from round to round until there is a result. -/
theorem run_induction {motive : Match → Prop}
    (ends : ∀ m result m', m.round = (some result, m') → motive m)
    (goes : ∀ m next, m.round = (none, next) → motive next.pause → motive m) (m : Match) :
    motive m := by
  induction m using run.induct with
  | case1 m result m' _ ended => exact ends m result m' ended
  | case2 m next _ going _ ih => exact goes m next going ih

/-! ### What each act respects, a run respects -/

/-- A relation between an earlier state and a later one that every act of matching respects. A unit
is offered only if the platform satisfies it, and claimed only if its name is free. -/
structure Respected (R : Match → Match → Prop) : Prop where
  refl : ∀ m, R m m
  trans : ∀ {m m' m''}, R m m' → R m' m'' → R m m''
  tell : ∀ m n, n.isOffer = false → R m (m.tell n)
  ask : ∀ m unit, (∀ e ∈ unit, m.platform.satisfies e.platform = true) → R m (m.ask unit).2
  wait : ∀ m, R m m.wait
  dispatch : ∀ m, R m m.dispatch.2
  reject : ∀ m e, R m (m.reject e).2
  claim : ∀ m e, m.exchange.registry.contains e.name = false →
    R m { m with exchange := { m.exchange with registry := m.exchange.registry.insert e } }
  requeue : ∀ m name, R m { m with exchange := m.exchange.requeue name }
  pause : ∀ m, R m m.pause

namespace Respected

variable {R : Match → Match → Prop}

theorem place (h : Respected R) (m : Match) (candidate : Option QueueEntry) :
    R m (m.place candidate).2 := by
  match candidate with
  | none => exact h.ask m none nofun
  | some e =>
      unfold Match.place
      dsimp only
      split
      · have back := h.reject m e
        generalize m.reject e = returned at back
        obtain ⟨_ | _, m₁⟩ := returned
        · exact back
        · exact back
      next suits =>
        have suits : m.platform.satisfies e.platform = true := by simpa using suits
        unfold Registry.insertNew?
        cases free : m.exchange.registry.contains e.name with
        | true => exact h.refl m
        | false =>
            let m₁ : Match :=
              { m with exchange := { m.exchange with registry := m.exchange.registry.insert e } }
            have asks : R m₁ (m₁.ask (some e)).2 := h.ask m₁ (some e) (by rintro _ ⟨⟩; exact suits)
            have asked := h.trans (h.claim m e free) asks
            rw [if_neg Bool.false_ne_true]
            dsimp only
            split
            · exact asked
            · exact h.trans asked (h.requeue _ _)

theorem receive (h : Respected R) (m : Match)
    (answer : Except BackplaneError (Option QueueEntry)) : R m (m.receive answer).2 := by
  unfold Match.receive
  split
  · split
    · exact h.refl m
    · split
      · exact h.refl m
      · exact h.place m none
  · split
    · exact h.refl m
    · exact h.place m none
  next e =>
    split
    · exact h.reject m e
    · exact h.place m (some e)

theorem round (h : Respected R) (m : Match) : R m m.round.2 := by
  unfold Match.round
  split
  · exact h.refl m
  dsimp only
  generalize waited : (if (m.tell .waitStart).interrupted then m.tell .waitStart
    else (m.tell .waitStart).wait) = m₁
  have begun : R m m₁ := by
    rw [← waited]
    split
    · exact h.tell m _ rfl
    · exact h.trans (h.tell m _ rfl) (h.wait _)
  refine h.trans begun ?_
  split
  · exact h.tell m₁ _ rfl
  · exact h.trans (h.trans (h.dispatch m₁) (h.tell _ _ rfl)) (h.receive _ _)

/-- What every act respects is respected by a run. -/
theorem run (h : Respected R) (m : Match) : R m m.run.2 := by
  have rounds (m : Match) : R m m.round.2 := h.round m
  induction m using run_induction with
  | ends m result m' ended =>
      have round := rounds m
      rw [ended] at round
      rw [run_ends ended]
      exact round
  | goes m next going ih =>
      have round := rounds m
      rw [going] at round
      rw [run_goes going]
      exact h.trans (h.trans round (h.pause next)) ih

end Respected

end Match

end BuildWorker
