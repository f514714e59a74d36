import BuildWorker.Proofs.Settings.Laws
import BuildWorker.Proofs.Worker.Calls

/-!
# Execution policies

A unit of work requires an execution policy by a property of its platform. Units are matched by
properties alone, while a policy is looked up in a list of its own, so what is advertised has to
agree with what is found (`Worker.policies_advertised`).

The configured platform is advertised as it is. If it lists a policy among its properties and no
policy has that name, then units that require it are offered all the same
(`Worker.freeFormSettings_unapplied`).
-/

namespace BuildWorker

/-! ### What is advertised and what is found -/

namespace Platform

/-- Advertising adds one property for each policy, and no other. -/
theorem contains_advertise (p : Platform) (policies : List ExecutionPolicy) (name value : String) :
    (p.advertise policies).contains name value ↔ p.contains name value ∨
      name = policyProperty ∧ ∃ policy ∈ policies, policy.name = value := by
  unfold advertise
  induction policies generalizing p with
  | nil => simp
  | cons policy rest ih =>
      have added : (p.add ⟨policyProperty, policy.name⟩).contains name value ↔
          (name = policyProperty ∧ policy.name = value) ∨ p.contains name value := by
        rw [contains_iff, contains_iff, mem_add, Property.mk.injEq, eq_comm (a := value)]
      rw [List.foldl_cons, ih, added, List.exists_mem_cons_iff]
      tauto

end Platform

namespace WorkerSettings

variable {w : WorkerSettings} {name : String} {policy : ExecutionPolicy}

/-- A policy is found where one has the name. -/
theorem isSome_policy? :
    (w.policy? name).isSome ↔ ∃ policy ∈ w.executionPolicies, policy.name = name := by
  simp [policy?, List.find?_isSome]

/-- The policy found is the one that has the name. -/
theorem policy?_eq_some_iff (distinct : (w.executionPolicies.map ExecutionPolicy.name).Nodup) :
    w.policy? name = some policy ↔ policy ∈ w.executionPolicies ∧ policy.name = name := by
  have named {policy : ExecutionPolicy} (found : w.policy? name = some policy) :
      policy ∈ w.executionPolicies ∧ policy.name = name := by
    have matched := List.find?_some found
    exact ⟨List.mem_of_find?_eq_some found, beq_iff_eq.1 matched⟩
  refine ⟨named, ?_⟩
  rintro ⟨mem, has⟩
  obtain ⟨other, found⟩ := Option.isSome_iff_exists.1 (isSome_policy?.2 ⟨policy, mem, has⟩)
  obtain ⟨other_mem, other_has⟩ := named found
  rw [found, List.inj_on_of_nodup_map distinct other_mem mem (other_has.trans has.symm)]

end WorkerSettings

/-! ### What is offered -/

namespace Match

variable {m m' m'' : Match}

/-- The units that are offered on the way from one state of matching to another require nothing
that the platform lacks. -/
structure Offers (m m' : Match) : Prop where
  platform : m'.platform = m.platform
  units : ∃ more, m'.units = m.units ++ more ∧ ∀ e ∈ more, m.platform.satisfies e.platform = true

namespace Offers

/-- Where nothing is offered. -/
theorem nothing (platform : m'.platform = m.platform) (units : m'.units = m.units) :
    m.Offers m' :=
  ⟨platform, [], units.trans (List.append_nil _).symm, nofun⟩

theorem trans (h : m.Offers m') (h' : m'.Offers m'') : m.Offers m'' := by
  obtain ⟨platform, more, units, suited⟩ := h
  obtain ⟨platform', more', units', suited'⟩ := h'
  refine ⟨platform'.trans platform, more ++ more', ?_, fun e mem => ?_⟩
  · rw [units', units, List.append_assoc]
  · rcases List.mem_append.1 mem with mem | mem
    · exact suited e mem
    · rw [← platform]
      exact suited' e mem

end Offers

theorem platform_tell (m : Match) (n : Notice) : (m.tell n).platform = m.platform := by
  unfold tell
  dsimp only
  split <;> rfl

theorem tell_offers (m : Match) {n : Notice} (quiet : n.isOffer = false) :
    m.Offers (m.tell n) := by
  refine .nothing (platform_tell m n) ((units_tell m n).trans ?_)
  cases n with
  | offer => cases quiet
  | waitStart | waitEnd => exact List.append_nil _

/-- A unit that the platform satisfies may be offered. -/
theorem ask_offers (m : Match) (unit : Option QueueEntry)
    (suited : ∀ e ∈ unit, m.platform.satisfies e.platform = true) : m.Offers (m.ask unit).2 :=
  ⟨platform_tell m _, unit.toList, units_ask m unit, fun e mem => suited e (by simpa using mem)⟩

theorem wait_offers (m : Match) : m.Offers m.wait := by
  refine .nothing ?_ (congrArg Listener.units (listener_wait m))
  unfold wait
  split <;> rfl

theorem dispatch_offers (m : Match) : m.Offers m.dispatch.2 := by
  unfold dispatch
  dsimp only
  split
  · exact .nothing rfl rfl
  · exact .nothing rfl rfl

/-- No act of matching offers what the platform does not satisfy. -/
theorem respected_offers : Respected Offers where
  refl _ := .nothing rfl rfl
  trans := .trans
  tell m _ quiet := tell_offers m quiet
  ask := ask_offers
  wait := wait_offers
  dispatch := dispatch_offers
  reject _ _ := .nothing rfl rfl
  claim _ _ _ := .nothing rfl rfl
  requeue _ _ := .nothing rfl rfl
  pause _ := .nothing rfl rfl

end Match

namespace Worker

variable {settings : Settings} {w : Worker}

/-- **What is advertised can be applied.** A worker whose settings were accepted advertises a policy
when it finds one of that name, and else only what its configured platform lists by itself. What it
finds is the configured policy of the name. So a unit that it is offered requires policies that it
has, or properties that its configured platform lists. -/
theorem policies_advertised (accepted : settings.check = .ok ())
    (set : w.settings = settings.worker) :
    (∀ name, w.platform.contains Platform.policyProperty name ↔
      (w.settings.policy? name).isSome ∨
        w.settings.platform.contains Platform.policyProperty name) ∧
    (∀ name policy, w.settings.policy? name = some policy ↔
      policy ∈ w.settings.executionPolicies ∧ policy.name = name) ∧
    ∀ m : Match, ∃ more, (w.claim m).2.1.units = m.units ++ more ∧
      ∀ e ∈ more, ∀ name, ⟨Platform.policyProperty, name⟩ ∈ e.platform.properties →
        (∃ policy ∈ w.settings.executionPolicies, policy.name = name) ∨
          w.settings.platform.contains Platform.policyProperty name := by
  have distinct : (w.settings.executionPolicies.map ExecutionPolicy.name).Nodup := by
    rw [set]
    exact (settings.check_ok_iff.1 accepted).1.distinct
  have advertised (name : String) : w.platform.contains Platform.policyProperty name ↔
      (w.settings.policy? name).isSome ∨
        w.settings.platform.contains Platform.policyProperty name := by
    rw [platform, WorkerSettings.advertisedPlatform, Platform.contains_advertise,
      WorkerSettings.isSome_policy?, or_comm, and_iff_right rfl]
  refine ⟨advertised, fun name policy => WorkerSettings.policy?_eq_some_iff distinct, fun m => ?_⟩
  let started : Match := { m with platform := w.platform, exchange := w.exchange }
  obtain ⟨more, units, suited⟩ := (Match.respected_offers.run started).units
  refine ⟨more, units, fun e mem name required => ?_⟩
  have offered := Platform.satisfies_iff.1 (suited e mem) _ required
  rw [← WorkerSettings.isSome_policy?]
  exact (advertised name).1 (Platform.contains_iff.2 offered)

/-- A unit that requires a policy. -/
def sandboxedUnit : QueueEntry where
  executeEntry := ⟨"op", .empty, false⟩
  queuedOperationDigest := .empty
  platform := ⟨[⟨Platform.policyProperty, "sandbox"⟩]⟩

/-- Settings with a policy. -/
def sandboxSettings : Settings where
  worker := { WorkerSettings.standard 1 with
    executionPolicies := [⟨"sandbox", some ⟨"/usr/bin/bwrap", []⟩⟩] }

/-- Whoever takes the unit that waits. -/
def sampleMatch : Match := { platform := {}, exchange := {} }

/-- A worker at whose backplane the unit waits. -/
def sandboxed (settings : Settings) : Worker :=
  { ofSettings settings.worker with exchange := { backplane := { queue := [sandboxedUnit] } } }

theorem sandboxSettings_applied :
    let w := sandboxed sandboxSettings
    (w.claim sampleMatch).2.1.units = [sandboxedUnit] ∧
    ∃ policy ∈ w.settings.executionPolicies, policy.name = "sandbox" := by
  intro w
  obtain ⟨⟨⟩, accepted, -⟩ : ∃ u, sandboxSettings.check = .ok u ∧ u = () :=
    Settings.exists_of_toOption (f := id) (by decide +kernel)
  obtain ⟨-, -, offered⟩ := policies_advertised accepted (w := w) rfl
  obtain ⟨more, units, required⟩ := offered sampleMatch
  have offers : (w.claim sampleMatch).2.1.units = [sandboxedUnit] := by decide +kernel
  rw [offers] at units
  have mem : sandboxedUnit ∈ more := by
    rw [← show [sandboxedUnit] = more from units]
    exact List.mem_singleton_self _
  refine ⟨offers, (required _ mem "sandbox" (by decide)).resolve_right (by decide)⟩

/-- Settings whose platform lists a policy that there is not. -/
def freeFormSettings : Settings where
  worker := { WorkerSettings.standard 1 with
    platform := ⟨[⟨Platform.policyProperty, "sandbox"⟩]⟩ }

/-- The settings are accepted and the policy is advertised. A unit that requires it is offered, and
the policy is not found. -/
theorem freeFormSettings_unapplied :
    let w := sandboxed freeFormSettings
    freeFormSettings.check = .ok () ∧
    w.platform.contains Platform.policyProperty "sandbox" ∧
    (w.claim sampleMatch).2.1.units = [sandboxedUnit] ∧
    w.settings.policy? "sandbox" = none := by
  intro w
  obtain ⟨⟨⟩, accepted, -⟩ : ∃ u, freeFormSettings.check = .ok u ∧ u = () :=
    Settings.exists_of_toOption (f := id) (by decide +kernel)
  exact ⟨accepted, by decide, by decide +kernel, by decide⟩

end Worker

end BuildWorker
