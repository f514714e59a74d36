import BuildWorker.Settings.Load
import Mathlib.Data.List.Nodup

/-!
# The laws that loaded settings keep

The rules of a domain are run one after the other and the first fault is reported, so settings
pass if they keep each of the laws behind the rules (`WorkerSettings.check_ok_iff`,
`RetrySettings.check_ok_iff`). Whatever is loaded has passed, wherever it came from
(`Settings.load_lawful`).

The rule about the growth of delays refuses what is below one. What is no number is below nothing,
so it passes this rule, while the rule about fractions turns it away (`Settings.load_nan`).
-/

namespace BuildWorker

/-! ### The order of numbers -/

namespace Decimal

open Float.Model (UnpackedFloat)

/-- Numbers taken apart compare the other way round when they are exchanged. -/
theorem compare_swap (x y : UnpackedFloat) : y.compare x = (x.compare y).map Ordering.swap := by
  have exponents (e e' : Int) : compare e' e = (compare e e').swap := Std.OrientedCmp.eq_swap
  have mantissas (m m' : Nat) : compare m' m = (compare m m').swap := Std.OrientedCmp.eq_swap
  cases x with
  | notANumber => cases y <;> rfl
  | infinity s =>
      cases y with
      | infinity s' => cases s <;> cases s' <;> rfl
      | notANumber => rfl
      | zero | finite => cases s <;> rfl
  | zero s =>
      cases y with
      | infinity s' | finite s' => cases s' <;> rfl
      | notANumber | zero => rfl
  | finite s m e pos =>
      cases y with
      | infinity s' => cases s' <;> rfl
      | notANumber => rfl
      | zero => cases s <;> rfl
      | finite s' m' e' pos' =>
          have swapped : (compare e' e).then (compare m' m) =
              ((compare e e').then (compare m m')).swap := by
            rw [exponents e e', mantissas m m', Ordering.swap_then]
          cases s with
          | positive =>
              cases s' with
              | positive => exact congrArg some swapped
              | negative => rfl
          | negative =>
              cases s' with
              | positive => rfl
              | negative => exact congrArg (fun o => some o.swap) swapped

/-- All that compares with nothing is what is no number. -/
theorem isSome_compare (x y : UnpackedFloat) :
    (x.compare y).isSome = (!x.isNaN && !y.isNaN) := by
  cases x with
  | notANumber => rfl
  | infinity s => cases y <;> cases s <;> rfl
  | zero =>
      cases y with
      | infinity s | finite s => cases s <;> rfl
      | notANumber | zero => rfl
  | finite s =>
      cases y with
      | infinity s' | finite s' => cases s <;> cases s' <;> rfl
      | notANumber | zero => cases s <;> rfl

theorem lt_iff {x y : Float} : x < y ↔ x.toModel.unpack.compare y.toModel.unpack = some .lt := by
  change decide (x.toModel < y.toModel) = true ↔ _
  rw [decide_eq_true_iff]
  exact beq_iff_eq

theorem le_iff {x y : Float} :
    x ≤ y ↔ (x.toModel.unpack.compare y.toModel.unpack).any Ordering.isLE = true := by
  change decide (x.toModel ≤ y.toModel) = true ↔ _
  rw [decide_eq_true_iff]
  rfl

/-- Of two numbers, one that is not below the other is at least as great. -/
theorem le_of_not_lt {x y : Float} (left : x.isNaN = false) (right : y.isNaN = false)
    (h : ¬ x < y) : y ≤ x := by
  have compares : (x.toModel.unpack.compare y.toModel.unpack).isSome = true := by
    rw [isSome_compare]
    exact Bool.and_eq_true_iff.2 ⟨congrArg not left, congrArg not right⟩
  obtain ⟨o, eq⟩ := Option.isSome_iff_exists.1 compares
  rw [lt_iff, eq] at h
  rw [le_iff, compare_swap, eq]
  cases o with
  | lt => exact absurd rfl h
  | eq | gt => rfl

/-- What is at most something is a number. -/
theorem isNaN_of_le {x y : Float} (h : x ≤ y) : x.isNaN = false ∧ y.isNaN = false := by
  rw [le_iff, Option.any_eq_true] at h
  obtain ⟨o, eq, -⟩ := h
  have compares := isSome_compare x.toModel.unpack y.toModel.unpack
  rw [eq] at compares
  obtain ⟨left, right⟩ := Bool.and_eq_true_iff.1 compares.symm
  exact ⟨Bool.not_inj left, Bool.not_inj right⟩

end Decimal

/-! ### One rule at a time -/

namespace Rule

variable {ε α : Type}

/-- Two rules in a row hold if both do. -/
theorem seq_ok_iff {x y : Except ε Unit} :
    (x >>= fun _ => y) = .ok () ↔ x = .ok () ∧ y = .ok () := by
  cases x with
  | error e => exact ⟨nofun, nofun⟩
  | ok => exact ⟨fun h => ⟨rfl, h⟩, fun h => h.2⟩

/-- A rule that throws in a case, and goes on otherwise, holds if the case is not given. -/
theorem ite_throw_ok_iff {c : Prop} [Decidable c] {e : ε} {f : α → Except ε Unit}
    {x : Except ε Unit} :
    (if c then (throw e : Except ε α) >>= f else x) = .ok () ↔ ¬ c ∧ x = .ok () := by
  split
  next given => exact ⟨nofun, fun h => absurd given h.1⟩
  next not => exact ⟨fun h => ⟨not, h⟩, fun h => h.2⟩

/-- A rule that throws in a case holds if the case is not given. -/
theorem unless_ok_iff {c : Prop} [Decidable c] {e : ε} :
    (if c then throw e else pure () : Except ε Unit) = .ok () ↔ ¬ c := by
  split
  next given => exact ⟨nofun, fun h => absurd given h⟩
  next not => exact ⟨fun _ => not, fun _ => rfl⟩

theorem required_ok_iff {value field : String} : required value field = .ok () ↔ value ≠ "" := by
  unfold required
  split
  next empty => exact ⟨nofun, fun filled => absurd (String.isEmpty_iff.1 empty) filled⟩
  next filled => exact ⟨fun _ empty => filled (String.isEmpty_iff.2 empty), fun _ => rfl⟩

theorem positive_ok_iff {value : Nat} {field : String} :
    positive value field = .ok () ↔ 1 ≤ value := by
  unfold positive
  split
  next small => exact ⟨nofun, fun large => by omega⟩
  next large => exact ⟨fun _ => by omega, fun _ => rfl⟩

theorem fraction_ok_iff {value : Float} {field : String} :
    fraction value field = .ok () ↔ 0 ≤ value ∧ value < 1 := by
  unfold fraction
  split
  next within =>
    simp only [Bool.and_eq_true, decide_eq_true_eq] at within
    exact ⟨fun _ => within, fun _ => rfl⟩
  next outside =>
    simp only [Bool.and_eq_true, decide_eq_true_eq] at outside
    exact ⟨nofun, fun within => absurd within outside⟩

theorem each_ok_iff {rule : α → Except SettingFault Unit} {as : List α} :
    each rule as = .ok () ↔ ∀ a ∈ as, rule a = .ok () := by
  induction as with
  | nil => exact ⟨fun _ => nofun, fun _ => rfl⟩
  | cons a as ih => rw [each, seq_ok_iff, ih, List.forall_mem_cons]

/-- No name is found a second time if names are distinct and none was seen before. -/
theorem firstDuplicate?_eq_none_iff {seen names : List String} :
    firstDuplicate? seen names = none ↔ names.Nodup ∧ ∀ name ∈ names, name ∉ seen := by
  induction names generalizing seen with
  | nil => exact ⟨fun _ => ⟨List.nodup_nil, nofun⟩, fun _ => rfl⟩
  | cons name names ih =>
      rw [firstDuplicate?]
      split
      next again => exact ⟨nofun, fun fresh => absurd again (fresh.2 name List.mem_cons_self)⟩
      next fresh =>
        rw [ih, List.nodup_cons, List.forall_mem_cons]
        simp only [List.mem_cons, not_or]
        constructor
        · rintro ⟨distinct, unseen⟩
          have once : name ∉ names := fun mem => (unseen name mem).1 rfl
          exact ⟨⟨once, distinct⟩, fresh, fun other mem => (unseen other mem).2⟩
        · rintro ⟨⟨once, distinct⟩, -, unseen⟩
          refine ⟨distinct, fun other mem => ⟨fun same => ?_, unseen other mem⟩⟩
          rw [same] at mem
          exact once mem

theorem unique_ok_iff {names : List String} {field : String} :
    unique names field = .ok () ↔ names.Nodup := by
  have found := @firstDuplicate?_eq_none_iff [] names
  simp only [List.not_mem_nil, not_false_eq_true, implies_true, and_true] at found
  rw [← found]
  unfold unique
  split
  next name eq => simp [eq]
  next eq => simp [eq]

end Rule

/-! ### The laws of a domain -/

/-- The laws of the worker's domain. -/
structure WorkerSettings.Lawful (w : WorkerSettings) : Prop where
  name : w.name ≠ ""
  pollPeriod : 1 ≤ w.pollPeriodMs.toNat
  pollTimeout : 1 ≤ w.pollTimeoutSeconds.toNat
  writeDeadline : 1 ≤ w.writeDeadlineSeconds.toNat
  inputFetchStageWidth : 1 ≤ w.inputFetchStageWidth.toNat
  executeStageWidth : 1 ≤ w.executeStageWidth.toNat
  properties : ∀ p ∈ w.platform.properties, p.name ≠ ""
  policies : ∀ p ∈ w.executionPolicies, p.name ≠ ""
  /-- No two policies have one name. -/
  distinct : (w.executionPolicies.map ExecutionPolicy.name).Nodup
  /-- The default timeout is within the maximum, if both are set. -/
  timeouts : w.defaultActionTimeoutSeconds ≠ 0 → w.maximumActionTimeoutSeconds ≠ 0 →
    w.defaultActionTimeoutSeconds ≤ w.maximumActionTimeoutSeconds

/-- The laws of retried calls, apart from the one about growth. -/
structure RetrySettings.Lawful (r : RetrySettings) : Prop where
  initialDelay : 1 ≤ r.initialDelayMs.toNat
  maxAttempts : 1 ≤ r.maxAttempts.toNat
  /-- The greatest delay is not shorter than the first one. -/
  delays : r.initialDelayMs ≤ r.maxDelayMs
  /-- Jitter is a number, and a fraction. -/
  jitter : r.jitter.isNaN = false ∧ 0 ≤ r.jitter ∧ r.jitter < 1

/-- Delays do not shrink: the multiplier is a number, and at least one. -/
def RetrySettings.Grows (r : RetrySettings) : Prop :=
  r.multiplier.isNaN = false ∧ 1 ≤ r.multiplier

theorem WorkerSettings.check_ok_iff (w : WorkerSettings) : w.check = .ok () ↔ w.Lawful := by
  unfold check
  simp only [Rule.seq_ok_iff, Rule.required_ok_iff, Rule.positive_ok_iff, Rule.each_ok_iff,
    Rule.unique_ok_iff, Rule.unless_ok_iff, not_and, UInt64.not_lt]
  constructor
  · rintro ⟨name, period, timeout, deadline, fetch, execute, properties, policies, distinct, within⟩
    exact ⟨name, period, timeout, deadline, fetch, execute, properties, policies, distinct, within⟩
  · intro h
    exact ⟨h.name, h.pollPeriod, h.pollTimeout, h.writeDeadline, h.inputFetchStageWidth,
      h.executeStageWidth, h.properties, h.policies, h.distinct, h.timeouts⟩

theorem RetrySettings.check_ok_iff (r : RetrySettings) :
    r.check = .ok () ↔ r.Lawful ∧ ¬ r.multiplier < 1 := by
  unfold check
  simp only [Rule.seq_ok_iff, Rule.positive_ok_iff, Rule.fraction_ok_iff, Rule.ite_throw_ok_iff,
    Rule.unless_ok_iff, UInt64.not_lt]
  constructor
  · rintro ⟨initial, attempts, jitter, delays, growth⟩
    exact ⟨⟨initial, attempts, delays, (Decimal.isNaN_of_le jitter.1).2, jitter⟩, growth⟩
  · rintro ⟨h, growth⟩
    exact ⟨h.initialDelay, h.maxAttempts, h.jitter.2, h.delays, growth⟩

/-- Delays grow if the multiplier is a number and passes its rule. -/
theorem RetrySettings.grows_iff {r : RetrySettings} (h : ¬ r.multiplier < 1) :
    r.Grows ↔ r.multiplier.isNaN = false :=
  ⟨fun grows => grows.1, fun number => ⟨number, Decimal.le_of_not_lt number (by decide) h⟩⟩

/-! ### Loading -/

namespace Settings

theorem inDomain_ok_iff {domain : String} {rule : Except SettingFault Unit} :
    inDomain domain rule = .ok () ↔ rule = .ok () := by
  cases rule with
  | error => exact ⟨nofun, nofun⟩
  | ok => exact ⟨fun _ => rfl, fun _ => rfl⟩

theorem check_ok_iff (s : Settings) :
    s.check = .ok () ↔ s.worker.Lawful ∧ s.retry.Lawful ∧ ¬ s.retry.multiplier < 1 := by
  rw [check, Rule.seq_ok_iff, inDomain_ok_iff, inDomain_ok_iff, WorkerSettings.check_ok_iff,
    RetrySettings.check_ok_iff]

/-- What is loaded has been checked. -/
theorem check_of_load {standard s : Settings} {source : Source} {e : Environment} {start : String}
    (loaded : load standard source e start = .ok s) : s.check = .ok () := by
  unfold load at loaded
  simp only [bind, Except.bind, pure, Except.pure] at loaded
  split at loaded
  · cases loaded
  split at loaded
  · cases loaded
  next merged _ =>
    cases checked : merged.check with
    | error => simp [checked, Except.mapError] at loaded
    | ok =>
        simp only [checked, Except.mapError, Except.ok.injEq] at loaded
        rw [← loaded]
        exact checked

/-- **What is loaded keeps the laws.** Whatever a file and the environment say, settings that are
loaded keep every law of the worker and of retried calls; and delays grow unless the multiplier is
no number. -/
theorem load_lawful {standard s : Settings} {source : Source} {e : Environment} {start : String}
    (loaded : load standard source e start = .ok s) :
    s.worker.Lawful ∧ s.retry.Lawful ∧ (s.retry.Grows ↔ s.retry.multiplier.isNaN = false) := by
  obtain ⟨worker, retry, growth⟩ := s.check_ok_iff.1 (check_of_load loaded)
  exact ⟨worker, retry, RetrySettings.grows_iff growth⟩

/-- What is known of an outcome that is one. -/
theorem exists_of_toOption {ε α β : Type} {x : Except ε α} {f : α → β} {b : β}
    (h : x.toOption.map f = some b) : ∃ a, x = .ok a ∧ f a = b := by
  cases x with
  | error => cases h
  | ok a => exact ⟨a, rfl, Option.some.inj h⟩

/-- A document that names the worker. -/
def namedDocument : ByteArray := "worker: {name: forge}".toUTF8

/-- An environment that sets the period between renewals. -/
def periodEnvironment : Environment := [("KILN_POLL_PERIOD_MS", "250".toUTF8)]

theorem namedDocument_lawful :
    ∃ s, load (.standard 4) (.file namedDocument) periodEnvironment defaultStart = .ok s ∧
      (s.worker.name, s.worker.pollPeriodMs) = ("forge", 250) ∧
      s.worker.Lawful ∧ s.retry.Lawful ∧ (s.retry.Grows ↔ s.retry.multiplier.isNaN = false) := by
  have read : (load (.standard 4) (.file namedDocument) periodEnvironment defaultStart).toOption.map
      (fun s => (s.worker.name, s.worker.pollPeriodMs)) = some ("forge", 250) := by
    decide +kernel
  obtain ⟨s, loaded, eq⟩ := exists_of_toOption read
  exact ⟨s, loaded, eq, load_lawful loaded⟩

/-- A document whose multiplier is no number. -/
def nanDocument : ByteArray := "backplane: {retry: {multiplier: .nan}}".toUTF8

/-- A multiplier that is no number is loaded. -/
theorem load_nan : ∃ s, load (.standard 1) (.file nanDocument) [] defaultStart = .ok s ∧
    ¬ s.retry.Grows := by
  have read : (load (.standard 1) (.file nanDocument) [] defaultStart).toOption.map
      (fun s => s.retry.multiplier.isNaN) = some true := by
    decide +kernel
  obtain ⟨s, loaded, eq⟩ := exists_of_toOption read
  refine ⟨s, loaded, fun grows => ?_⟩
  rw [grows.1] at eq
  cases eq

end Settings

end BuildWorker
