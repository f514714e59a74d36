import BuildWorker.Proofs.Worker.Calls

/-!
# Renewals after a release

Releasing a unit takes it from the registry and does nothing to the arms that renew its lease: who
has started an arm is to call it off. So a unit may be renewed after it was released, by an arm that
runs at that moment (`Worker.sampleRelease_renews`). Nobody else renews it until it is claimed
again, as long as arms are started for claimed units only (`Worker.run_released`).
-/

namespace BuildWorker

/-- In the events so far, a name was released while the arms at some positions ran. What happened
since then is told, and no unit of the name was claimed. -/
def Since (name : String) (running : List Nat) (between events : List LeaseEvent) : Prop :=
  (∃ before, events = before ++ .released name running :: between) ∧
    ∀ e, .claimed e ∈ between → e.name ≠ name

/-- What may happen after a name was released: the arms that ran then may renew the lease, and the
backplane may be told of the release at once. -/
def LeaseEvent.Permitted (name : String) (running : List Nat) (between : List LeaseEvent) :
    LeaseEvent → Prop
  | .renewed i p _ => p.name = name → i ∈ running
  | .queued p => p.name = name → p.stage = .queued ∧ between = []
  | .claimed _ | .released _ _ => True

/-- After every release nothing happens but what may. -/
def Told (events : List LeaseEvent) : Prop :=
  ∀ before event after, events = before ++ event :: after →
    ∀ name running between, Since name running between before →
      event.Permitted name running between

section

variable {name : String} {running : List Nat} {between events : List LeaseEvent}
  {event : LeaseEvent}

theorem not_since_nil : ¬ Since name running between [] := by
  rintro ⟨⟨before, eq⟩, -⟩
  exact List.append_ne_nil_of_right_ne_nil before (List.cons_ne_nil _ _) eq.symm

/-- The last event is the release itself, or the release was earlier. -/
theorem Since.of_concat (h : Since name running between (events ++ [event])) :
    (event = .released name running ∧ between = []) ∨
      (∃ between', Since name running between' events) ∧
        ∀ e, event = .claimed e → e.name ≠ name := by
  obtain ⟨⟨before, eq⟩, unclaimed⟩ := h
  rcases List.eq_nil_or_concat' between with rfl | ⟨earlier, last, rfl⟩
  · obtain ⟨-, same⟩ := List.append_inj' eq rfl
    exact .inl ⟨List.cons.inj same |>.1, rfl⟩
  · rw [← List.cons_append, ← List.append_assoc] at eq
    obtain ⟨same, last⟩ := List.append_inj' eq rfl
    obtain rfl := (List.cons.inj last).1
    refine .inr ⟨⟨earlier, ⟨before, same⟩, fun e mem => ?_⟩, fun e claims => ?_⟩
    · exact unclaimed e (List.mem_append_left _ mem)
    · exact unclaimed e (List.mem_append_right _ (List.mem_singleton.2 claims.symm))

theorem Told.concat (h : Told events)
    (permitted : ∀ name running between, Since name running between events →
      event.Permitted name running between) : Told (events ++ [event]) := by
  intro before event' after eq
  rcases List.eq_nil_or_concat' after with rfl | ⟨earlier, last, rfl⟩
  · obtain ⟨rfl, same⟩ := List.append_inj' eq rfl
    obtain rfl := (List.cons.inj same).1
    exact permitted
  · rw [← List.cons_append, ← List.append_assoc] at eq
    exact h before event' earlier (List.append_inj' eq rfl).1

end

namespace Exchange

/-- Arms are started for claimed units. -/
def Claimed : Exchange → Nat → LeaseErrand → Prop :=
  fun x _ errand => x.registry.contains errand.entry.name = true

/-- What is known of the registry and the arms when claims and releases were noted. -/
structure Released (events : List LeaseEvent) (x : Exchange) : Prop where
  /-- Units are claimed under their names. -/
  keyed : ∀ p ∈ x.registry.entries, p.1 = p.2.name
  /-- A name that was released is free. -/
  free : ∀ {name running between}, Since name running between events →
    x.registry.contains name = false
  /-- Only arms that ran at the release renew the lease on its unit. -/
  arms : ∀ {name running between}, Since name running between events →
    ∀ {i : Nat} {a : Arm LeaseErrand}, x.roster.arms[i]? = some a → a.isLive = true →
      a.errand.entry.name = name → i ∈ running
  told : Told events

variable {x y : Exchange} {events new : List LeaseEvent}

theorem released_of_keyed (keyed : ∀ p ∈ x.registry.entries, p.1 = p.2.name) : Released [] x where
  keyed
  free since := absurd since not_since_nil
  arms since := absurd since not_since_nil
  told before event after eq := by
    cases before <;> cases eq

/-- What claims nothing and releases nothing. -/
theorem Released.quiet (h : Released events x) (registry : y.registry = x.registry)
    (arms : ∀ {i : Nat} {b : Arm LeaseErrand}, y.roster.arms[i]? = some b → b.isLive = true →
      x.registry.contains b.errand.entry.name = false →
      ∃ a, x.roster.arms[i]? = some a ∧ a.isLive = true ∧ b.errand = a.errand) :
    Released events y where
  keyed := by
    rw [registry]
    exact h.keyed
  free since := by
    rw [registry]
    exact h.free since
  arms {_ _ _} since {i b} there live named := by
    have free : x.registry.contains b.errand.entry.name = false := by
      rw [named]
      exact h.free since
    obtain ⟨a, there', live', same⟩ := arms there live free
    rw [same] at named
    exact h.arms since there' live' named
  told := h.told

/-- An event that no claim or release is noted by. -/
theorem Released.note (h : Released events x) (event : LeaseEvent)
    (other : ∀ name running, event ≠ .released name running)
    (permitted : ∀ name running between, Since name running between events →
      event.Permitted name running between) : Released (events ++ [event]) x := by
  have earlier {name : String} {running : List Nat} {between : List LeaseEvent}
      (since : Since name running between (events ++ [event])) :
      ∃ between', Since name running between' events := by
    rcases since.of_concat with ⟨same, -⟩ | ⟨earlier, -⟩
    · exact absurd same (other name running)
    · exact earlier
  exact {
    keyed := h.keyed
    free := fun since => h.free (earlier since).choose_spec
    arms := fun since => h.arms (earlier since).choose_spec
    told := h.told.concat permitted }

theorem Released.claim (h : Released events x) {e : QueueEntry} :
    Released (events ++ [.claimed e]) { x with registry := x.registry.insert e } := by
  have earlier {name : String} {running : List Nat} {between : List LeaseEvent}
      (since : Since name running between (events ++ [.claimed e])) :
      (∃ between', Since name running between' events) ∧ name ≠ e.name := by
    rcases since.of_concat with ⟨same, -⟩ | ⟨earlier, other⟩
    · cases same
    · exact ⟨earlier, (other e rfl).symm⟩
  refine ⟨fun p mem => ?_, fun since => ?_, fun since => ?_, h.told.concat fun _ _ _ _ => trivial⟩
  · rcases List.mem_cons.1 mem with rfl | mem
    · rfl
    · exact h.keyed p mem
  · obtain ⟨⟨_, since⟩, other⟩ := earlier since
    have free := h.free since
    rw [Registry.contains] at free ⊢
    rw [Registry.get?_insert, if_neg other]
    exact free
  · obtain ⟨⟨_, since⟩, -⟩ := earlier since
    exact h.arms since

/-- A release notes the arms that run. -/
theorem Released.release (h : Released events x) (name : String) :
    Released (events ++ [.released name (x.renewing name)])
      { x with registry := x.registry.erase name } := by
  refine ⟨fun p mem => h.keyed p (List.mem_of_mem_filter mem), fun {other _ _} since => ?_,
    fun since => ?_, h.told.concat fun _ _ _ _ => trivial⟩
  · rw [Registry.contains, Registry.get?_erase]
    split
    · rfl
    next different =>
      rcases since.of_concat with ⟨same, -⟩ | ⟨⟨_, since⟩, -⟩
      · cases same
        exact absurd rfl different
      · exact h.free since
  · rcases since.of_concat with ⟨same, -⟩ | ⟨⟨_, since⟩, -⟩
    · cases same
      exact fun there live named => (mem_renewing there).2 ⟨live, named⟩
    · exact h.arms since

/-- Right after a release the backplane may be told of it. -/
theorem Released.notify (h : Released events x) {name : String} {e : QueueEntry}
    (held : x.registry.get? name = some e) {running : List Nat} {p : LeasePoll}
    (named : p.name = e.name) (stage : p.stage = .queued) {other : String} {running' : List Nat}
    {between : List LeaseEvent}
    (since : Since other running' between (events ++ [.released name running])) :
    LeaseEvent.Permitted other running' between (.queued p) := by
  intro same
  refine ⟨stage, ?_⟩
  have key : name = e.name := h.keyed (name, e) (mem_of_lookup held)
  rcases since.of_concat with ⟨-, none⟩ | ⟨⟨_, since⟩, -⟩
  · exact none
  -- The unit was claimed, so its name had not been released before.
  · have free := h.free since
    rw [← same, named, ← key, Registry.contains, held] at free
    cases free

theorem Released.move (h : Released events x) (move : Move Claimed x new y) :
    Released (events ++ new) y := by
  have arms {i : Nat} {b : Arm LeaseErrand} (there : y.roster.arms[i]? = some b)
      (live : b.isLive = true) (free : x.registry.contains b.errand.entry.name = false) :
      ∃ a, x.roster.arms[i]? = some a ∧ a.isLive = true ∧ b.errand = a.errand := by
    rcases move.arm there with ⟨a, there', moved⟩ | ⟨-, claimed, -⟩
    · exact ⟨a, there', moved.live live, moved.same.2⟩
    · rw [show x.registry.contains b.errand.entry.name = true from claimed] at free
      cases free
  cases move with
  | clock | signal | trade | answer | fail | pause | start =>
      rw [List.append_nil]
      exact h.quiet rfl arms
  | @ask i a since there resting rested answer backplane poll =>
      have live : a.isLive = true := by
        rw [Arm.isLive, resting]
        rfl
      have told := h.note (.renewed i (a.errand.poll x.now) answer) (fun _ _ eq => by cases eq)
        fun _ _ _ since named => h.arms since there live named
      exact told.quiet rfl arms
  | claim e free => exact h.claim
  | @deactivate name e held => exact h.release name
  | @requeue name e held =>
      have told := (h.release name).note (.queued ⟨e.name, .queued, 0, x.now⟩)
        (fun _ _ eq => by cases eq) fun _ _ _ since => h.notify held rfl rfl since
      rw [List.append_assoc] at told
      exact told.quiet rfl fun there live _ => ⟨_, there, live, rfl⟩

theorem History.released (h : Released [] x) (history : History Claimed x events y) :
    Released events y := by
  induction history with
  | start => exact h
  | move _ move ih => exact ih.move move

end Exchange

namespace Worker

open Exchange

/-- **Renewals after a release.** Whatever is called on a worker that starts arms for claimed units
only, what happens is a history of leases, and it is told call by call: claims and releases are
noted where the calls make them, and renewals with the answers that the backplane had ready. Every
history, in whatever order turns come, notes what the backplane and the arms record of renewals; and
after a name was released, and until a unit of the name is claimed again, its lease is renewed only
by arms that ran when it was released, and the backplane is told that it is queued only right at the
release. -/
theorem run_released {w : Worker} (idle : w.exchange.roster.arms = [])
    (unclaimed : w.exchange.registry.entries = []) {calls : List WorkerCall}
    (orderly : w.Allows Claimed calls) :
    (∃ segments, w.Noted Claimed calls segments ∧
      History Claimed w.exchange segments.flatten (w.run calls).exchange) ∧
    ∀ events x, History Claimed w.exchange events x →
      Recorded w.exchange events x ∧
      ∀ before name running between event after,
        events = before ++ .released name running :: between ++ event :: after →
        (∀ e, .claimed e ∈ between → e.name ≠ name) →
        (∀ i p answer, event = .renewed i p answer → p.name = name → i ∈ running) ∧
        (∀ p, event = .queued p → p.name = name → p.stage = .queued ∧ between = []) := by
  constructor
  · obtain ⟨segments, noted⟩ := run_noted (served_of_arms_nil idle) orderly
    exact ⟨segments, noted, noted.history⟩
  · intro events x history
    refine ⟨history.recorded idle, fun before name running between event after eq _ => ?_⟩
    have keyed : ∀ p ∈ w.exchange.registry.entries, p.1 = p.2.name := by
      rw [unclaimed]
      exact nofun
    have since : Since name running between (before ++ .released name running :: between) :=
      ⟨⟨before, rfl⟩, ‹_›⟩
    have told := (history.released (released_of_keyed keyed)).told
    have permitted := told _ event after eq name running between since
    constructor
    · rintro i p answer rfl named
      exact permitted named
    · rintro p rfl named
      exact permitted named

/-- The unit is queued and claimed, and then an arm is started for it. -/
def sampleClaim : List WorkerCall :=
  [.outside { queue := [leasedUnit] }, .claim { platform := {}, exchange := {} },
    .createPoller "holder" leasedUnit .executing]

theorem sampleClaim_allowed {calls : List WorkerCall}
    (others : ∀ call ∈ calls, call.starts? = none) :
    (ofSettings (.standard 1)).Allows Claimed (sampleClaim ++ calls) := by
  refine ⟨nofun, nofun, ?_, allows_of_starts? others _⟩
  rintro _ _ ⟨⟩
  unfold Claimed
  decide +kernel

/-- The arm is called off, then the unit is requeued, and time passes. -/
def sampleOrder : List WorkerCall :=
  sampleClaim ++ [.pass 1500, .pausePoller "holder", .requeue "op", .pass 3000]

/-- The lease is renewed while the unit is claimed, and then the backplane is told that it is queued
again. -/
theorem sampleOrder_released :
    let x := ((ofSettings (.standard 1)).run sampleOrder).exchange
    x.backplane.polls = [⟨"op", .executing, 30000, 1000⟩, ⟨"op", .queued, 0, 1500⟩] ∧
    ∃ segments, (ofSettings (.standard 1)).Noted Claimed sampleOrder segments ∧
      Recorded (ofSettings (.standard 1)).exchange segments.flatten x ∧
      ∀ before running between i p answer after, segments.flatten =
        before ++ .released "op" running :: between ++ .renewed i p answer :: after →
        (∀ e, .claimed e ∈ between → e.name ≠ "op") → p.name = "op" → i ∈ running := by
  intro x
  have orderly : (ofSettings (.standard 1)).Allows Claimed sampleOrder :=
    sampleClaim_allowed (by decide)
  obtain ⟨⟨segments, noted, history⟩, released⟩ :=
    run_released (w := ofSettings (.standard 1)) rfl rfl orderly
  obtain ⟨recorded, released⟩ := released _ _ history
  refine ⟨by decide +kernel, segments, noted, recorded, ?_⟩
  intro before running between i p answer after eq free named
  exact (released before "op" running between _ after eq free).1 i p answer rfl named

/-- An arm that nobody calls off renews the lease on a unit that was released before. -/
theorem sampleRelease_renews :
    let w := ofSettings (.standard 1)
    let claimed := w.run sampleClaim
    let after := claimed.run [.deactivate "op", .pass 1000]
    w.Allows Claimed (sampleClaim ++ [.deactivate "op", .pass 1000]) ∧
    claimed.exchange.registry.contains "op" = true ∧ claimed.exchange.backplane.polls = [] ∧
    (claimed.deactivate "op").exchange.registry.contains "op" = false ∧
    after.exchange.registry.contains "op" = false ∧
    after.exchange.backplane.polls = [⟨"op", .executing, 30000, 1000⟩] :=
  ⟨sampleClaim_allowed (by decide), by decide +kernel, by decide +kernel, by decide +kernel,
    by decide +kernel, by decide +kernel⟩

end Worker

end BuildWorker
