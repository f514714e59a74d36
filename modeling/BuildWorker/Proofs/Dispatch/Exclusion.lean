import BuildWorker.Proofs.Dispatch.Conservation
import Mathlib.Data.List.Induction

/-!
# No name is delivered twice while it is claimed

A `Chronicle` goes along with a ledger and notes what happens to claims: which units listeners are
offered, and which names are released. A listener's answer tells whether its unit is requeued at
once. A listener that makes up its mind later is one that takes the unit, and whose unit is
requeued by a later call.

The registry is determined by this record (`Claims.standing`): under a name it holds the unit that
was delivered last, unless the name was released since. A round delivers only units of names that
are free, so two deliveries of one name have a release between them (`Chronicle.run_exclusive`).
-/

namespace BuildWorker

/-- What happens to the claim on a name. -/
inductive ClaimEvent
  /-- A unit is offered to a listener. -/
  | delivered (e : QueueEntry)
  /-- The unit of a name is requeued or deactivated. -/
  | released (name : String)
  deriving DecidableEq

/-- The unit of a name that was delivered last, unless the name was released since. -/
def standing (name : String) (events : List ClaimEvent) : Option QueueEntry :=
  events.foldl (fun unit event => match event with
    | .delivered e => if name = e.name then some e else unit
    | .released other => if other = name then none else unit) none

@[simp] theorem standing_delivered (name : String) (events : List ClaimEvent) (e : QueueEntry) :
    standing name (events ++ [.delivered e]) =
      if name = e.name then some e else standing name events := by
  simp [standing]

@[simp] theorem standing_released (name other : String) (events : List ClaimEvent) :
    standing name (events ++ [.released other]) =
      if other = name then none else standing name events := by
  simp [standing]

/-- A delivery that does not stand any more was released. -/
theorem released_of_standing {name : String} {before between : List ClaimEvent} {e : QueueEntry}
    (h : standing name (before ++ .delivered e :: between) = none) (named : e.name = name) :
    .released name ∈ between := by
  -- The last event either releases the name or has no part in it.
  induction between using List.reverseRecOn with
  | nil => simp [named] at h
  | append_singleton between event ih =>
      rw [← List.cons_append, ← List.append_assoc] at h
      cases event with
      | delivered e' =>
          rw [standing_delivered] at h
          split at h
          · cases h
          · exact List.mem_append_left _ (ih h)
      | released other =>
          by_cases same : other = name
          · simp [same]
          · rw [standing_released, if_neg same] at h
            exact List.mem_append_left _ (ih h)

/-- Between two deliveries of a name there is a release of it. -/
def Spaced (events : List ClaimEvent) : Prop :=
  ∀ before between after (e e' : QueueEntry),
    events = before ++ .delivered e :: between ++ .delivered e' :: after → e.name = e'.name →
      .released e.name ∈ between

theorem Spaced.concat {events : List ClaimEvent} (h : Spaced events) {event : ClaimEvent}
    (free : ∀ e, event = .delivered e → standing e.name events = none) :
    Spaced (events ++ [event]) := by
  intro before between after e e' eq same
  rcases List.eq_nil_or_concat' after with rfl | ⟨earlier, last, rfl⟩
  · obtain ⟨first, second⟩ := List.append_inj' eq rfl
    cases second
    have gone := free e' rfl
    rw [first] at gone
    rw [same]
    exact released_of_standing gone same
  · rw [← List.cons_append, ← List.append_assoc] at eq
    exact h before between earlier e e' (List.append_inj' eq rfl).1 same

/-- A registry that is as the events say. -/
structure Claims (r : Registry) (events : List ClaimEvent) : Prop where
  distinct : r.names.Nodup
  keyed : ∀ p ∈ r.entries, p.1 = p.2.name
  standing : ∀ name, r.get? name = standing name events
  spaced : Spaced events

theorem claims_empty : Claims {} [] where
  distinct := List.nodup_nil
  keyed := nofun
  standing _ := by simp [Registry.get?, BuildWorker.standing]
  spaced before between after e e' eq := by simp at eq

variable {r : Registry} {events : List ClaimEvent}

theorem Claims.deliver (h : Claims r events) {e : QueueEntry}
    (free : r.contains e.name = false) : Claims (r.insert e) (events ++ [.delivered e]) := by
  refine ⟨Registry.nodup_insert h.distinct free, ?_, ?_, h.spaced.concat ?_⟩
  · intro p mem
    rcases List.mem_cons.1 mem with rfl | mem
    · rfl
    · exact h.keyed p mem
  · intro name
    rw [Registry.get?_insert, standing_delivered, h.standing]
  · intro e' same
    cases same
    rw [← h.standing]
    exact Option.isNone_iff_eq_none.1 (Option.isSome_eq_false_iff.1 free)

theorem Claims.release (h : Claims r events) (name : String) :
    Claims (r.erase name) (events ++ [.released name]) := by
  refine ⟨Registry.nodup_erase h.distinct name, ?_, ?_, h.spaced.concat nofun⟩
  · intro p mem
    exact h.keyed p (List.mem_of_mem_filter mem)
  · intro other
    rw [Registry.get?_erase, standing_released, h.standing]
    simp only [eq_comm]

/-! ### Calls -/

/-- A ledger with a record of deliveries and releases. -/
structure Chronicle where
  ledger : Ledger := {}
  /-- What happened to claims, in order. -/
  events : List ClaimEvent := []

namespace Chronicle

/-- A chronicle that starts where nothing is claimed. -/
def ofExchange (x : Exchange) : Chronicle :=
  { ledger := { exchange := { x with registry := {} } } }

/-- What is claimed. -/
def registry (c : Chronicle) : Registry := c.ledger.exchange.registry

/-- What a round does to claims. A unit that the listener declines is requeued. -/
def roundEvents (i : Iteration) (x : Exchange) : List ClaimEvent :=
  (Ledger.offered (i.begin x) (i.begin x).round.2).flatMap fun e =>
    if i.listener.answers.headD true then [.delivered e] else [.delivered e, .released e.name]

/-- What a call does to claims. Only what is claimed can be released. -/
def callEvents (x : Exchange) : DispatchCall → List ClaimEvent
  | .iterate i => roundEvents i x
  | .requeue name | .deactivate name =>
    if x.registry.contains name then [.released name] else []
  | .enqueue _ | .failDispatch _ | .answerPoll _ => []

/-- Make a call and note what it does to claims. -/
def perform (c : Chronicle) (call : DispatchCall) : Chronicle where
  ledger := c.ledger.perform call
  events := c.events ++ callEvents c.ledger.exchange call

/-- Any number of calls. -/
def run (c : Chronicle) (calls : List DispatchCall) : Chronicle := calls.foldl perform c

end Chronicle

/-- A requeue erases the name, whether or not it is claimed. -/
theorem Exchange.registry_requeue (x : Exchange) (name : String) :
    (x.requeue name).registry = x.registry.erase name := by
  cases claimed : x.registry.get? name with
  | some e => exact (Exchange.waits_requeue claimed).registry
  | none =>
      have free : x.registry.contains name = false := by
        rw [Registry.contains, claimed]
        rfl
      rw [Registry.erase_of_free free]
      simp only [requeue, claimed]

/-- All that a round does to claims: nothing, or it delivers one unit of a free name, which is
claimed if the listener takes it. -/
theorem Match.Rounds.registry {m m' : Match} (h : m.Rounds m') :
    (m'.units = m.units ∧ m'.exchange.registry = m.exchange.registry) ∨
    ∃ e, m.exchange.registry.contains e.name = false ∧ m'.units = m.units ++ [e] ∧
      m'.exchange.registry = if m.listener.answers.headD true then m.exchange.registry.insert e
        else m.exchange.registry := by
  cases h with
  | stopped waits units => exact .inl ⟨units, waits.registry⟩
  | empty before answer after units =>
      exact .inl ⟨units, after.registry.trans before.registry⟩
  | returned before answer after back units =>
      refine .inl ⟨units, ?_⟩
      rw [back]
      exact after.registry.trans before.registry
  | dropped before answer claimed after units =>
      exact .inl ⟨units, after.registry.trans before.registry⟩
  | @taken x e before answer free after units accepts =>
      rw [before.registry] at free
      refine .inr ⟨e, free, units, ?_⟩
      rw [accepts, if_pos rfl, after.registry, ← before.registry]
  | @refused x y e before answer free after released units declines =>
      rw [before.registry] at free
      refine .inr ⟨e, free, units, ?_⟩
      rw [declines, if_neg Bool.false_ne_true, released, Exchange.registry_requeue,
        after.registry, before.registry, Registry.erase_insert free]

namespace Chronicle

variable {c : Chronicle}

theorem claims_iterate (h : Claims c.registry c.events) (i : Iteration) :
    Claims (c.perform (.iterate i)).registry (c.perform (.iterate i)).events := by
  show Claims (i.begin c.ledger.exchange).round.2.exchange.registry
    (c.events ++ roundEvents i c.ledger.exchange)
  unfold roundEvents
  rcases (Match.round_rounds (i.begin c.ledger.exchange)).registry with
    ⟨units, registry⟩ | ⟨e, free, units, registry⟩
  · have offered := Ledger.offered_eq (units.trans (List.append_nil _).symm)
    rw [offered, registry, List.flatMap_nil, List.append_nil]
    exact h
  · rw [Ledger.offered_eq units, registry, List.flatMap_singleton]
    have delivered := h.deliver free
    show Claims (if i.listener.answers.headD true then _ else _) _
    split
    · exact delivered
    · have released := delivered.release e.name
      rw [List.append_assoc, show (c.registry.insert e).erase e.name = c.registry from
        Registry.erase_insert free] at released
      exact released

theorem claims_release (h : Claims c.registry c.events) (name : String) :
    Claims (c.registry.erase name)
      (c.events ++ if c.registry.contains name then [.released name] else []) := by
  by_cases claimed : c.registry.contains name
  · rw [if_pos claimed]
    exact h.release name
  · rw [if_neg claimed, List.append_nil, Registry.erase_of_free (Bool.eq_false_iff.2 claimed)]
    exact h

theorem claims_perform (h : Claims c.registry c.events) (call : DispatchCall) :
    Claims (c.perform call).registry (c.perform call).events := by
  cases call with
  | enqueue | failDispatch | answerPoll =>
      show Claims c.registry (c.events ++ [])
      rw [List.append_nil]
      exact h
  | iterate i => exact claims_iterate h i
  | requeue name =>
      show Claims (c.ledger.exchange.requeue name).registry _
      rw [Exchange.registry_requeue]
      exact claims_release h name
  | deactivate name => exact claims_release h name

theorem claims_run (h : Claims c.registry c.events) (calls : List DispatchCall) :
    Claims (c.run calls).registry (c.run calls).events := by
  induction calls generalizing c with
  | nil => exact h
  | cons call calls ih => exact ih (claims_perform h call)

/-- **No name is delivered twice while it is claimed.** From any exchange on which nothing is
claimed, whatever is called and however it interleaves: a unit is claimed under its own name, and
it is the one that was delivered last and not released since; between two deliveries of a name
there is a release of it; and a round neither replaces what is claimed nor offers a unit of its
name. -/
theorem run_exclusive (x : Exchange) (calls : List DispatchCall) :
    let c := (ofExchange x).run calls
    (c.registry.names.Nodup ∧ ∀ p ∈ c.registry.entries, p.1 = p.2.name) ∧
    (∀ name, c.registry.get? name = standing name c.events) ∧
    (∀ before between after (e e' : QueueEntry),
      c.events = before ++ .delivered e :: between ++ .delivered e' :: after → e.name = e'.name →
        .released e.name ∈ between) ∧
    ∀ (i : Iteration) name e, c.registry.get? name = some e →
      (c.perform (.iterate i)).registry.get? name = some e ∧
      ∀ unit ∈ Ledger.offered (i.begin c.ledger.exchange) (i.begin c.ledger.exchange).round.2,
        unit.name ≠ name := by
  intro c
  have claims : Claims c.registry c.events := claims_run (c := ofExchange x) claims_empty calls
  refine ⟨⟨claims.distinct, claims.keyed⟩, claims.standing, claims.spaced, ?_⟩
  intro i name e claimed
  show (i.begin c.ledger.exchange).round.2.exchange.registry.get? name = some e ∧ _
  rcases (Match.round_rounds (i.begin c.ledger.exchange)).registry with
    ⟨units, registry⟩ | ⟨e', free, units, registry⟩
  · rw [Ledger.offered_eq (units.trans (List.append_nil _).symm), registry]
    exact ⟨claimed, nofun⟩
  · -- The unit that is delivered has a name that was free, so it is another one.
    have other : name ≠ e'.name := by
      intro same
      have held : c.registry.contains e'.name = true := by
        rw [Registry.contains, ← same, claimed]
        rfl
      rw [show c.registry.contains e'.name = false from free] at held
      cases held
    rw [Ledger.offered_eq units, registry]
    constructor
    · split
      · rw [Registry.get?_insert, if_neg other]
        exact claimed
      · exact claimed
    · intro unit mem
      rw [List.mem_singleton.1 mem]
      exact other.symm

/-- A unit of the name `op`, told from others by its attempts. -/
def sampleUnit (attempts : UInt32) : QueueEntry where
  executeEntry := ⟨"op", .empty, false⟩
  queuedOperationDigest := .empty
  requeueAttempts := attempts

/-- A unit, its duplicate and another unit of the name are queued. The first is requeued before the
last comes to its turn. -/
def sampleCalls : List DispatchCall :=
  [.enqueue (sampleUnit 0), .enqueue (sampleUnit 0), .enqueue (sampleUnit 1),
    .iterate { platform := {} }, .iterate { platform := {} }, .requeue "op",
    .iterate { platform := {} }]

theorem sampleCalls_exclusive :
    let c := (ofExchange {}).run sampleCalls
    (∃ between, c.events = [.delivered (sampleUnit 0)] ++ between ++ [.delivered (sampleUnit 1)] ∧
      .released "op" ∈ between) ∧ c.registry.get? "op" = some (sampleUnit 1) := by
  intro c
  have events : c.events =
      [.delivered (sampleUnit 0), .released "op", .delivered (sampleUnit 1)] := by
    decide +kernel
  obtain ⟨-, standing, spaced, -⟩ := run_exclusive {} sampleCalls
  refine ⟨⟨[.released "op"], events, ?_⟩, ?_⟩
  · exact spaced [] _ [] (sampleUnit 0) (sampleUnit 1) events rfl
  · rw [standing, show ((ofExchange {}).run sampleCalls).events = _ from events]
    rfl

end Chronicle

end BuildWorker
