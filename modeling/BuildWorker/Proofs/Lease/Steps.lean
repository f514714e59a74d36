import BuildWorker.Lease.Roster
import Mathlib.Data.List.Nodup
import Mathlib.Logic.Relation

/-!
# What happens to arms

Tasks that take turns, arms that look at the interrupt and time that passes do three things only
to a roster: the clock and the interrupt change, a live arm goes on, a live arm fails
(`Roster.Step`). Calling off and starting arms are the other changes there are.

Of all of them two facts are shown. One is about a change (`Roster.Leads`): an arm that has ended
stays as it is, an arm ends only when it fails or is called off, and failures are reported of live
arms only. The other is about a roster (`Roster.Sound`): of each holder the latest arm at most is
live, and of each arm one failure at most is reported.
-/

namespace BuildWorker

namespace Roster

variable {ε σ : Type}

/-! ### Steps -/

/-- What a turn can do. -/
inductive Step (r : Roster ε) : Roster ε → Prop
  | clock (now : Nat) (interrupted : Bool) : Step r { r with now, interrupted }
  | goes {i : Nat} {a a' : Arm ε} (there : r.arms[i]? = some a) (live : a.isLive = true)
      (holder : a'.holder = a.holder) (live' : a'.isLive = true) :
      Step r { r with arms := r.arms.set i a' }
  | fails {i : Nat} {a : Arm ε} (there : r.arms[i]? = some a) (live : a.isLive = true) :
      Step r { r with
        arms := r.arms.set i { a with phase := .ended }, reports := r.reports ++ [(i, r.now)] }

/-- Any number of steps. -/
abbrev Steps : Roster ε → Roster ε → Prop := Relation.ReflTransGen Step

theorem steps_fail (r : Roster ε) (i : Nat) : Steps r (r.fail i) := by
  unfold fail
  split
  · exact .refl
  next a there =>
    split
    next live => exact Relation.ReflTransGen.single (.fails there live)
    next => exact .refl

theorem steps_look (r : Roster ε) (i : Nat) : Steps r (r.look i) := by
  unfold look
  split
  · exact .refl
  · split
    · exact r.steps_fail i
    · exact .refl

/-- A live arm that has an answer rests, and fails if the answer is a refusal. -/
theorem steps_answer {r : Roster ε} {i : Nat} {a a' : Arm ε} (there : r.arms[i]? = some a)
    (live : a.isLive = true) (holder : a'.holder = a.holder) (status : LeaseStatus) :
    Steps r (r.answer i a' status) := by
  have rests : Steps r { r with arms := r.arms.set i { a' with phase := .resting r.now } } :=
    .single (.goes there live holder rfl)
  unfold answer
  dsimp only
  split
  · exact rests.trans (steps_fail _ i)
  · exact rests

theorem steps_turn (ask : Asking ε σ) (t : Turn) (r : Roster ε) (s : σ) :
    Steps r (r.turn ask t s).1 := by
  unfold turn
  split
  · exact .refl
  next a there =>
    split
    · exact .refl
    · dsimp only
      split
      · exact r.steps_fail _
      · exact .refl
    next since resting =>
      have live : a.isLive = true := by
        rw [Arm.isLive, resting]
        rfl
      split
      · exact .refl
      · dsimp only
        split
        · refine steps_answer there live ?_ _
          rfl
        · refine .single (.goes there live ?_ ?_)
          · rfl
          · rfl
    next since arrival status asking =>
      have live : a.isLive = true := by
        rw [Arm.isLive, asking]
        rfl
      dsimp only
      split
      · exact .refl
      · exact steps_answer there live rfl _

theorem steps_turns (ask : Asking ε σ) (ts : List Turn) (r : Roster ε) (s : σ) :
    Steps r (r.turns ask ts s).1 := by
  induction ts generalizing r s with
  | nil => exact .refl
  | cons t ts ih => exact (steps_turn ask t r s).trans (ih _ _)

theorem steps_advanceTo (ask : Asking ε σ) (order : Roster ε → List Turn) (target : Nat)
    (r : Roster ε) (s : σ) : Steps r (r.advanceTo ask order target s).1 := by
  fun_induction advanceTo ask order target r s with
  | case1 r s next due r' served ih =>
      exact ((Relation.ReflTransGen.single (.clock next _)).trans (steps_turns ask _ r' s)).trans ih
  | case2 r s next due => exact .single (.clock _ _)

/-! ### What a change does to the arms there are -/

/-- The failures reported of the arm at a position. -/
def reportsOf (r : Roster ε) (i : Nat) : List (Nat × Nat) := r.reports.filter (·.1 == i)

/-- What a change does to the arms there are, where those of some holders are called off. -/
structure Leads (off : String → Prop) (r r' : Roster ε) : Prop where
  /-- Arms stay in their places. One that has ended stays as it is, and one that ends has failed
  or is called off. -/
  arms : ∀ {i : Nat} {a : Arm ε}, r.arms[i]? = some a → ∃ a', r'.arms[i]? = some a' ∧
    a'.holder = a.holder ∧ (a.isLive = false → a' = a) ∧
    (a'.isLive = false → a.isLive = false ∨ off a.holder ∨ r'.reportsOf i ≠ [])
  /-- Failures are reported of arms that had not ended. -/
  reports : ∃ new, r'.reports = r.reports ++ new ∧
    ∀ p ∈ new, ∀ a, r.arms[p.1]? = some a → a.isLive = true

theorem Leads.refl (off : String → Prop) (r : Roster ε) : r.Leads off r where
  arms there := ⟨_, there, rfl, fun _ => rfl, .inl⟩
  reports := ⟨[], (List.append_nil _).symm, nofun⟩

theorem Leads.mono {off off' : String → Prop} {r r' : Roster ε} (h : r.Leads off r')
    (imp : ∀ holder, off holder → off' holder) : r.Leads off' r' where
  arms there := by
    obtain ⟨a', there', holder, same, ends⟩ := h.arms there
    exact ⟨a', there', holder, same, fun ended => (ends ended).imp_right (.imp_left (imp _))⟩
  reports := h.reports

theorem Leads.reportsOf_append {off : String → Prop} {r r' : Roster ε} (h : r.Leads off r')
    (i : Nat) : ∃ new, r'.reportsOf i = r.reportsOf i ++ new := by
  obtain ⟨new, eq, -⟩ := h.reports
  rw [reportsOf, eq, List.filter_append]
  exact ⟨_, rfl⟩

/-- What was reported stays reported. -/
theorem Leads.reported {off : String → Prop} {r r' : Roster ε} (h : r.Leads off r') {i : Nat}
    (reported : r.reportsOf i ≠ []) : r'.reportsOf i ≠ [] := by
  obtain ⟨new, eq⟩ := h.reportsOf_append i
  rw [eq]
  exact List.append_ne_nil_of_left_ne_nil reported new

theorem Leads.trans {off : String → Prop} {r r' r'' : Roster ε} (h : r.Leads off r')
    (h' : r'.Leads off r'') : r.Leads off r'' where
  arms {i a} there := by
    obtain ⟨a', there', holder, same, ends⟩ := h.arms there
    obtain ⟨a'', there'', holder', same', ends'⟩ := h'.arms there'
    refine ⟨a'', there'', holder'.trans holder, fun ended => ?_, fun ended => ?_⟩
    · obtain rfl := same ended
      exact same' ended
    -- An arm that has ended in the end did so in the second change or in the first.
    · rcases ends' ended with ended | off | reported
      · rcases ends ended with ended | off | reported
        · exact .inl ended
        · exact .inr (.inl off)
        · exact .inr (.inr (h'.reported reported))
      · rw [holder] at off
        exact .inr (.inl off)
      · exact .inr (.inr reported)
  reports := by
    obtain ⟨new, eq, live⟩ := h.reports
    obtain ⟨new', eq', live'⟩ := h'.reports
    refine ⟨new ++ new', by rw [eq', eq, List.append_assoc], fun p mem a there => ?_⟩
    rcases List.mem_append.1 mem with mem | mem
    · exact live p mem a there
    · obtain ⟨a', there', -, same, -⟩ := h.arms there
      refine Bool.of_not_eq_false fun ended => ?_
      have live := live' p mem a' there'
      rw [same ended, ended] at live
      cases live

/-- Nothing more is reported of an arm that has ended. -/
theorem Leads.reportsOf_eq {off : String → Prop} {r r' : Roster ε} (h : r.Leads off r') {i : Nat}
    {a : Arm ε} (there : r.arms[i]? = some a) (ended : a.isLive = false) :
    r'.reportsOf i = r.reportsOf i := by
  obtain ⟨new, eq, live⟩ := h.reports
  have none : new.filter (·.1 == i) = [] := by
    refine List.filter_eq_nil_iff.2 fun p mem same => ?_
    rw [← beq_iff_eq.1 same] at there
    rw [live p mem a there] at ended
    cases ended
  rw [reportsOf, eq, List.filter_append, none, List.append_nil, reportsOf]

theorem Step.leads {r r' : Roster ε} (step : r.Step r') : r.Leads (fun _ => False) r' := by
  cases step with
  | clock =>
      exact ⟨fun there => ⟨_, there, rfl, fun _ => rfl, .inl⟩, [], (List.append_nil _).symm, nofun⟩
  | @goes i a a' there live holder live' =>
      refine ⟨fun {j b} there' => ?_, [], (List.append_nil _).symm, nofun⟩
      by_cases same : i = j
      · subst same
        obtain rfl : a = b := Option.some.inj (there.symm.trans there')
        refine ⟨a', ?_, holder, fun ended => ?_, fun ended => ?_⟩
        · rw [List.getElem?_set_self (List.getElem?_eq_some_iff.1 there).1]
        · rw [live] at ended
          cases ended
        · rw [live'] at ended
          cases ended
      · exact ⟨b, (List.getElem?_set_ne same).trans there', rfl, fun _ => rfl, .inl⟩
  | @fails i a there live =>
      refine ⟨fun {j b} there' => ?_, [(i, r.now)], rfl, fun p mem b there' => ?_⟩
      · by_cases same : i = j
        · subst same
          obtain rfl : a = b := Option.some.inj (there.symm.trans there')
          refine ⟨{ a with phase := .ended }, ?_, rfl, fun ended => ?_, fun _ => .inr (.inr ?_)⟩
          · rw [List.getElem?_set_self (List.getElem?_eq_some_iff.1 there).1]
          · rw [live] at ended
            cases ended
          · simp [reportsOf]
        · exact ⟨b, (List.getElem?_set_ne same).trans there', rfl, fun _ => rfl, .inl⟩
      · obtain rfl := List.mem_singleton.1 mem
        obtain rfl : a = b := Option.some.inj (there.symm.trans there')
        exact live

theorem Steps.leads {r r' : Roster ε} (steps : Steps r r') : r.Leads (fun _ => False) r' := by
  induction steps with
  | refl => exact .refl _ r
  | tail _ step ih => exact ih.trans step.leads

theorem Steps.length_eq {r r' : Roster ε} (steps : Steps r r') :
    r'.arms.length = r.arms.length := by
  induction steps with
  | refl => rfl
  | tail _ step ih =>
      cases step with
      | clock => exact ih
      | goes | fails => rw [List.length_set, ih]

theorem ended_fail {r : Roster ε} {i : Nat} {a : Arm ε} (there : r.arms[i]? = some a) :
    ∃ a', (r.fail i).arms[i]? = some a' ∧ a'.isLive = false := by
  unfold fail
  rw [there]
  dsimp only
  split
  · refine ⟨{ a with phase := .ended }, ?_, rfl⟩
    rw [List.getElem?_set_self (List.getElem?_eq_some_iff.1 there).1]
  next ended => exact ⟨a, there, Bool.eq_false_iff.2 ended⟩

/-- An arm that is refused has ended. -/
theorem ended_answer {r : Roster ε} {i : Nat} {a : Arm ε} (there : r.arms[i]? = some a)
    (a' : Arm ε) :
    ∃ b, (r.answer i a' .lost).arms[i]? = some b ∧ b.isLive = false := by
  unfold answer
  dsimp only
  rw [if_pos rfl]
  refine ended_fail (a := { a' with phase := .resting r.now }) ?_
  rw [List.getElem?_set_self (List.getElem?_eq_some_iff.1 there).1]

/-- What calling off makes of an arm. -/
theorem getElem?_pause {r : Roster ε} (holder : String) {i : Nat} {a : Arm ε}
    (there : r.arms[i]? = some a) : (r.pause holder).arms[i]? =
      some (if a.holder = holder then { a with phase := .ended } else a) := by
  rw [pause, List.getElem?_map, there, Option.map_some]

theorem length_pause (r : Roster ε) (holder : String) :
    (r.pause holder).arms.length = r.arms.length := List.length_map _

theorem leads_pause (r : Roster ε) (holder : String) : r.Leads (· = holder) (r.pause holder) := by
  refine ⟨fun {i a} there => ⟨_, getElem?_pause holder there, ?_⟩, [], (List.append_nil _).symm,
    nofun⟩
  split
  next same =>
    refine ⟨rfl, fun ended => ?_, fun _ => .inr (.inl same)⟩
    rw [Arm.isLive, bne_eq_false_iff_eq] at ended
    rw [← ended]
  next => exact ⟨rfl, fun _ => rfl, .inl⟩

theorem getElem?_start {r : Roster ε} {holder : String} (period deadline : Nat) (watched : Bool)
    (errand : ε) {i : Nat} {a : Arm ε} (there : (r.pause holder).arms[i]? = some a) :
    (r.start holder period deadline watched errand).arms[i]? = some a := by
  rw [start, List.getElem?_append_left (List.getElem?_eq_some_iff.1 there).1, there]

theorem getElem?_start_length (r : Roster ε) (holder : String) (period deadline : Nat)
    (watched : Bool) (errand : ε) :
    (r.start holder period deadline watched errand).arms[r.arms.length]? =
      some { holder, period, deadline, watched, errand, phase := .resting r.now } := by
  rw [← r.length_pause holder]
  exact List.getElem?_concat_length

theorem length_start (r : Roster ε) (holder : String) (period deadline : Nat) (watched : Bool)
    (errand : ε) :
    (r.start holder period deadline watched errand).arms.length = r.arms.length + 1 := by
  rw [start, List.length_append, length_pause]
  rfl

theorem leads_start (r : Roster ε) (holder : String) (period deadline : Nat) (watched : Bool)
    (errand : ε) : r.Leads (· = holder) (r.start holder period deadline watched errand) := by
  refine ⟨fun there => ?_, (r.leads_pause holder).reports⟩
  obtain ⟨a', there', rest⟩ := (r.leads_pause holder).arms there
  exact ⟨a', getElem?_start period deadline watched errand there', rest⟩

/-! ### Changes that spare an arm -/

/-- Nothing happens to the arm at a position. -/
structure Spares (i : Nat) (r r' : Roster ε) : Prop where
  arm : r'.arms[i]? = r.arms[i]?
  reports : r'.reportsOf i = r.reportsOf i

theorem Spares.trans {i : Nat} {r r' r'' : Roster ε} (h : Spares i r r') (h' : Spares i r' r'') :
    Spares i r r'' :=
  ⟨h'.arm.trans h.arm, h'.reports.trans h.reports⟩

theorem spares_set {i j : Nat} (other : j ≠ i) (r : Roster ε) (a : Arm ε) :
    Spares i r { r with arms := r.arms.set j a } :=
  ⟨List.getElem?_set_ne other, rfl⟩

theorem spares_fail {i j : Nat} (other : j ≠ i) (r : Roster ε) : Spares i r (r.fail j) := by
  unfold fail
  split
  · exact ⟨rfl, rfl⟩
  · split
    · refine ⟨List.getElem?_set_ne other, ?_⟩
      simp [reportsOf, other]
    · exact ⟨rfl, rfl⟩

theorem spares_answer {i j : Nat} (other : j ≠ i) (r : Roster ε) (a : Arm ε)
    (status : LeaseStatus) : Spares i r (r.answer j a status) := by
  unfold answer
  dsimp only
  split
  · exact (spares_set other r _).trans (spares_fail other _)
  · exact spares_set other r _

theorem spares_turn {ask : Asking ε σ} {i : Nat} {t : Turn} (other : t.position ≠ i)
    (r : Roster ε) (s : σ) : Spares i r (r.turn ask t s).1 := by
  unfold turn
  split
  · exact ⟨rfl, rfl⟩
  · split
    · exact ⟨rfl, rfl⟩
    · dsimp only
      split
      · exact spares_fail other r
      · exact ⟨rfl, rfl⟩
    · dsimp only
      split
      · exact ⟨rfl, rfl⟩
      · split
        · exact spares_answer other r _ _
        · exact spares_set other r _
    · dsimp only
      split
      · exact ⟨rfl, rfl⟩
      · exact spares_answer other r _ _

/-! ### What holds of every roster -/

/-- What holds of every roster. -/
structure Sound (r : Roster ε) : Prop where
  /-- Failures are reported of arms that have ended. -/
  reported : ∀ p ∈ r.reports, ∃ a, r.arms[p.1]? = some a ∧ a.isLive = false
  /-- Of each arm one failure at most is reported. -/
  once : (r.reports.map Prod.fst).Nodup
  /-- Of each holder the latest arm at most is live. -/
  latest : ∀ {i j : Nat} {a b : Arm ε}, i < j → r.arms[i]? = some a → r.arms[j]? = some b →
    a.holder = b.holder → a.isLive = false

theorem sound_empty : Sound ({} : Roster ε) where
  reported := nofun
  once := List.nodup_nil
  latest _ _ := nofun

/-- Nothing that a change does to the arms there are lets a superseded one live. -/
theorem Sound.latest_of_leads {r r' : Roster ε} (h : r.Sound) {off : String → Prop}
    (leads : r.Leads off r') {i j : Nat} {a b : Arm ε} (before : i < j)
    (old : j < r.arms.length) (first : r'.arms[i]? = some a) (second : r'.arms[j]? = some b)
    (same : a.holder = b.holder) : a.isLive = false := by
  obtain ⟨a', there, holder, stays, -⟩ :=
    leads.arms (List.getElem?_eq_getElem (Nat.lt_trans before old))
  obtain ⟨b', there', holder', -, -⟩ := leads.arms (List.getElem?_eq_getElem old)
  obtain rfl : a = a' := Option.some.inj (first.symm.trans there)
  obtain rfl : b = b' := Option.some.inj (second.symm.trans there')
  have ended := h.latest before (List.getElem?_eq_getElem _) (List.getElem?_eq_getElem old)
    (holder.symm.trans (same.trans holder'))
  rw [stays ended]
  exact ended

/-- What was reported is still about arms that have ended. -/
theorem Sound.reported_of_leads {r r' : Roster ε} (h : r.Sound) {off : String → Prop}
    (leads : r.Leads off r') (p : Nat × Nat) (mem : p ∈ r.reports) :
    ∃ a, r'.arms[p.1]? = some a ∧ a.isLive = false := by
  obtain ⟨a, there, ended⟩ := h.reported p mem
  obtain ⟨a', there', -, stays, -⟩ := leads.arms there
  obtain rfl := stays ended
  exact ⟨a', there', ended⟩

theorem Sound.step {r r' : Roster ε} (h : r.Sound) (step : r.Step r') : r'.Sound := by
  have length := Steps.length_eq (.single step)
  have latest {i j : Nat} {a b : Arm ε} (before : i < j) (first : r'.arms[i]? = some a)
      (second : r'.arms[j]? = some b) (same : a.holder = b.holder) : a.isLive = false := by
    have old := (List.getElem?_eq_some_iff.1 second).1
    rw [length] at old
    exact h.latest_of_leads step.leads before old first second same
  have reported := h.reported_of_leads step.leads
  cases step with
  | clock | goes => exact ⟨reported, h.once, latest⟩
  | @fails i a there live =>
      refine ⟨fun p mem => ?_, ?_, latest⟩
      · rcases List.mem_append.1 mem with mem | mem
        · exact reported p mem
        · obtain rfl := List.mem_singleton.1 mem
          refine ⟨{ a with phase := .ended }, ?_, rfl⟩
          rw [List.getElem?_set_self (List.getElem?_eq_some_iff.1 there).1]
      -- The arm was live, so nothing was reported of it before.
      · rw [List.map_append]
        refine h.once.append (List.nodup_singleton i) fun j mem mem' => ?_
        obtain rfl := List.mem_singleton.1 mem'
        obtain ⟨p, told, rfl⟩ := List.mem_map.1 mem
        obtain ⟨b, there', ended⟩ := h.reported p told
        obtain rfl : a = b := Option.some.inj (there.symm.trans there')
        rw [live] at ended
        cases ended

theorem Sound.steps {r r' : Roster ε} (h : r.Sound) (steps : Steps r r') : r'.Sound := by
  induction steps with
  | refl => exact h
  | tail _ step ih => exact ih.step step

theorem Sound.pause {r : Roster ε} (h : r.Sound) (holder : String) : (r.pause holder).Sound where
  reported := h.reported_of_leads (r.leads_pause holder)
  once := h.once
  latest before first second := by
    have old := (List.getElem?_eq_some_iff.1 second).1
    rw [length_pause] at old
    exact h.latest_of_leads (r.leads_pause holder) before old first second

/-- A holder has no live arm once it has called off. -/
theorem ended_of_pause {r : Roster ε} {holder : String} {i : Nat} {a : Arm ε}
    (there : (r.pause holder).arms[i]? = some a) (held : a.holder = holder) :
    a.isLive = false := by
  rw [Roster.pause, List.getElem?_map, Option.map_eq_some_iff] at there
  obtain ⟨b, -, rfl⟩ := there
  split at held
  next same =>
    rw [if_pos same]
    rfl
  next other => exact absurd held other

theorem Sound.start {r : Roster ε} (h : r.Sound) (holder : String) (period deadline : Nat)
    (watched : Bool) (errand : ε) : (r.start holder period deadline watched errand).Sound := by
  have leads := r.leads_start holder period deadline watched errand
  refine ⟨h.reported_of_leads leads, h.once, fun {i j a b} before first second same => ?_⟩
  have bound := (List.getElem?_eq_some_iff.1 second).1
  rw [length_start] at bound
  rcases Nat.lt_succ_iff_lt_or_eq.1 bound with old | rfl
  · exact h.latest_of_leads leads before old first second same
  -- The new arm is the latest of its holder, whose other arms were called off.
  · rw [getElem?_start_length] at second
    obtain rfl := Option.some.inj second
    rw [← r.length_pause holder] at before
    rw [Roster.start, List.getElem?_append_left before] at first
    exact ended_of_pause first same

end Roster

end BuildWorker
