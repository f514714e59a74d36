import BuildWorker.Proofs.Lease.Steps
import Mathlib.Data.List.Induction

/-!
# The life of an arm

Holders start arms and call them off, somebody interrupts, and in between tasks take turns in any
order and time passes. `LeaseCall` lists these calls one by one, so that an arm that is started or
interrupted may have to wait until it gets a turn; starting an arm or interrupting and letting the
arms see it at once are sequences of them (`Roster.resume_eq_foldl`, `Roster.interrupt_eq_foldl`).

Which arm of a holder is the latest and which arms have ended can be said by the calls and the
reported failures alone (`IsLatest`, `HasEnded`). `run_lifecycle` says that this is what an arm's
state shows: an arm fails once at most and not after it was called off, an arm that has ended
stays as it is, and the latest arm is the only one that may be live.
-/

namespace BuildWorker

/-- A call on the leases, or a turn of those who serve them. -/
inductive LeaseCall (ε : Type)
  /-- A holder starts an arm in place of what it has. -/
  | resume (holder : String) (period deadline : Nat) (watched : Bool) (errand : ε)
  /-- A holder calls off what it has. -/
  | pause (holder : String)
  /-- A holder goes away. -/
  | drop (holder : String)
  /-- Everything is interrupted. -/
  | interrupt
  /-- The arm at a position sees whether it must fail. -/
  | look (position : Nat)
  /-- A task takes a turn. -/
  | serve (turn : Turn)
  /-- Time passes up to an instant, with an order of turns for each instant on the way. -/
  | advance (order : Roster ε → List Turn) (target : Nat)

namespace LeaseCall

variable {ε σ : Type}

/-- Whether a call ends what a holder has. -/
def CallsOff : LeaseCall ε → String → Prop
  | .resume holder _ _ _ _, other | .pause holder, other | .drop holder, other => other = holder
  | _, _ => False

/-- Whether a call starts an arm of a holder. -/
def Starts : LeaseCall ε → String → Prop
  | .resume holder _ _ _ _, other => other = holder
  | _, _ => False

/-- Make a call. -/
def perform (ask : Asking ε σ) (x : Roster ε × σ) : LeaseCall ε → Roster ε × σ
  | .resume holder period deadline watched errand =>
    (x.1.start holder period deadline watched errand, x.2)
  | .pause holder | .drop holder => (x.1.pause holder, x.2)
  | .interrupt => (x.1.cut, x.2)
  | .look i => (x.1.look i, x.2)
  | .serve t => x.1.turn ask t x.2
  | .advance order target => x.1.advanceTo ask order target x.2

/-- Any number of calls, from the beginning. -/
def run (ask : Asking ε σ) (s : σ) (calls : List (LeaseCall ε)) : Roster ε × σ :=
  calls.foldl (perform ask) ({}, s)

/-- Why the arm at a position has to fail when it gets its turn. -/
inductive Dooms (ask : Asking ε σ) (x : Roster ε × σ) (i : Nat) (a : Arm ε) : LeaseCall ε → Prop
  /-- It sees that everything was interrupted. -/
  | interrupted (cut : x.1.interrupted = true) : Dooms ask x i a (.look i)
  /-- It sees that it is late. -/
  | late (due : a.deadline ≤ x.1.now) : Dooms ask x i a (.look i)
  /-- Its deadline has come. -/
  | expired (due : a.deadline ≤ x.1.now) : Dooms ask x i a (.serve ⟨i, .expiry⟩)
  /-- A refusal that was on its way arrives. -/
  | lost {since arrival : Nat} (asking : a.phase = .asking since arrival .lost)
      (due : arrival ≤ x.1.now) : Dooms ask x i a (.serve ⟨i, .renewal⟩)
  /-- It is refused at once. -/
  | refused {since : Nat} (resting : a.phase = .resting since) (due : since + a.rest ≤ x.1.now)
      (answer : (ask x.1.now a.errand x.2).1 = ⟨.lost, 0⟩) : Dooms ask x i a (.serve ⟨i, .renewal⟩)

/-- The latest arm of a holder is the one at a position. -/
def IsLatest (ask : Asking ε σ) (s : σ) (calls : List (LeaseCall ε)) (holder : String) (i : Nat) :
    Prop :=
  ∃ before call after, calls = before ++ call :: after ∧ call.Starts holder ∧
    (∀ later ∈ after, ¬ later.Starts holder) ∧ i = (run ask s before).1.arms.length

/-- The arm at a position has ended: it failed, or it was called off. -/
def HasEnded (ask : Asking ε σ) (s : σ) (calls : List (LeaseCall ε)) (i : Nat) : Prop :=
  (run ask s calls).1.reportsOf i ≠ [] ∨
  ∃ before call after a, calls = before ++ call :: after ∧
    (run ask s before).1.arms[i]? = some a ∧ call.CallsOff a.holder

/-! ### One call -/

theorem leads_perform (ask : Asking ε σ) (x : Roster ε × σ) (call : LeaseCall ε) :
    x.1.Leads call.CallsOff (perform ask x call).1 := by
  cases call with
  | resume holder period deadline watched errand => exact x.1.leads_start holder _ _ _ _
  | pause holder | drop holder => exact x.1.leads_pause holder
  | interrupt => exact Roster.Steps.leads (.single (.clock _ _))
  | look i => exact (x.1.steps_look i).leads
  | serve t => exact (Roster.steps_turn ask t x.1 x.2).leads
  | advance order target => exact (Roster.steps_advanceTo ask order target x.1 x.2).leads

theorem sound_perform (ask : Asking ε σ) {x : Roster ε × σ} (sound : x.1.Sound)
    (call : LeaseCall ε) : (perform ask x call).1.Sound := by
  cases call with
  | resume holder period deadline watched errand => exact sound.start holder _ _ _ _
  | pause holder | drop holder => exact sound.pause holder
  | interrupt => exact sound.steps (.single (.clock _ _))
  | look i => exact sound.steps (x.1.steps_look i)
  | serve t => exact sound.steps (Roster.steps_turn ask t x.1 x.2)
  | advance order target => exact sound.steps (Roster.steps_advanceTo ask order target x.1 x.2)

/-- A call that starts no arm leaves their number. -/
theorem length_perform (ask : Asking ε σ) (x : Roster ε × σ) {call : LeaseCall ε}
    (idle : ∀ holder, ¬ call.Starts holder) :
    (perform ask x call).1.arms.length = x.1.arms.length := by
  cases call with
  | resume holder period deadline watched errand => exact absurd rfl (idle holder)
  | pause holder | drop holder => exact x.1.length_pause holder
  | interrupt => rfl
  | look i => exact (x.1.steps_look i).length_eq
  | serve t => exact (Roster.steps_turn ask t x.1 x.2).length_eq
  | advance order target => exact (Roster.steps_advanceTo ask order target x.1 x.2).length_eq

/-- A call that ends what a holder has does so, and no failure is reported of it. -/
theorem perform_callsOff (ask : Asking ε σ) (x : Roster ε × σ) {call : LeaseCall ε} {i : Nat}
    {a : Arm ε} (there : x.1.arms[i]? = some a) (off : call.CallsOff a.holder) :
    (∃ a', (perform ask x call).1.arms[i]? = some a' ∧ a'.isLive = false) ∧
      (perform ask x call).1.reports = x.1.reports := by
  have paused := Roster.getElem?_pause a.holder there
  rw [if_pos rfl] at paused
  cases call with
  | resume holder period deadline watched errand =>
      cases off
      exact ⟨⟨_, Roster.getElem?_start period deadline watched errand paused, rfl⟩, rfl⟩
  | pause holder | drop holder =>
      cases off
      exact ⟨⟨_, paused, rfl⟩, rfl⟩
  | interrupt | look | serve | advance => cases off

/-- An arm that has to fail has ended after its turn. -/
theorem perform_dooms (ask : Asking ε σ) (x : Roster ε × σ) {call : LeaseCall ε} {i : Nat}
    {a : Arm ε} (there : x.1.arms[i]? = some a) (dooms : call.Dooms ask x i a) :
    ∃ a', (perform ask x call).1.arms[i]? = some a' ∧ a'.isLive = false := by
  cases dooms with
  | interrupted cut =>
      rw [perform, Roster.look, there]
      dsimp only
      rw [cut, Bool.true_or, if_pos rfl]
      exact Roster.ended_fail there
  | late due =>
      rw [perform, Roster.look, there]
      dsimp only
      rw [decide_eq_true due, Bool.or_true, if_pos rfl]
      exact Roster.ended_fail there
  | expired due =>
      rw [perform, Roster.turn, there]
      cases phase : a.phase with
      | ended =>
          simp only [phase]
          refine ⟨a, there, ?_⟩
          rw [Arm.isLive, phase]
          rfl
      | resting | asking =>
          simp only [phase, if_pos due]
          exact Roster.ended_fail there
  | lost asking due =>
      rw [perform, Roster.turn, there]
      simp only [asking, if_neg (Nat.not_lt.2 due)]
      exact Roster.ended_answer there a
  | refused resting due answer =>
      rw [perform, Roster.turn, there]
      simp only [resting, if_neg (Nat.not_lt.2 due), answer, if_pos]
      exact Roster.ended_answer there _

/-- A call that starts an arm puts a live one of that holder in the next place. -/
theorem perform_starts (ask : Asking ε σ) (x : Roster ε × σ) {call : LeaseCall ε}
    {holder : String} (starts : call.Starts holder) :
    (perform ask x call).1.arms.length = x.1.arms.length + 1 ∧
      ∃ a, (perform ask x call).1.arms[x.1.arms.length]? = some a ∧ a.holder = holder ∧
        a.isLive = true := by
  cases call with
  | resume other period deadline watched errand =>
      cases starts
      exact ⟨x.1.length_start holder _ _ _ _, _, x.1.getElem?_start_length holder _ _ _ _, rfl, rfl⟩
  | pause | drop | interrupt | look | serve | advance => cases starts

/-! ### Runs -/

section

variable (ask : Asking ε σ) (s : σ)

theorem run_concat (calls : List (LeaseCall ε)) (call : LeaseCall ε) :
    run ask s (calls ++ [call]) = perform ask (run ask s calls) call := by
  rw [run, List.foldl_append, run]
  rfl

theorem sound_run (calls : List (LeaseCall ε)) : (run ask s calls).1.Sound := by
  induction calls using List.reverseRecOn with
  | nil => exact Roster.sound_empty
  | append_singleton calls call ih =>
      rw [run_concat]
      exact sound_perform ask ih call

/-- What later calls do to the arms there are. -/
theorem leads_run (before after : List (LeaseCall ε)) :
    (run ask s before).1.Leads (fun _ => True) (run ask s (before ++ after)).1 := by
  induction after using List.reverseRecOn with
  | nil =>
      rw [List.append_nil]
      exact .refl _ _
  | append_singleton after call ih =>
      rw [← List.append_assoc, run_concat]
      exact ih.trans ((leads_perform ask _ call).mono fun _ _ => trivial)

/-- An arm that has ended is there, and is not live. -/
theorem HasEnded.arm {calls : List (LeaseCall ε)} {i : Nat} (h : HasEnded ask s calls i) :
    ∃ a, (run ask s calls).1.arms[i]? = some a ∧ a.isLive = false := by
  rcases h with reported | ⟨before, call, after, a, rfl, there, off⟩
  · obtain ⟨p, mem⟩ := List.exists_mem_of_ne_nil _ reported
    obtain ⟨mem, same⟩ := List.mem_filter.1 mem
    rw [← beq_iff_eq.1 same]
    exact (sound_run ask s calls).reported p mem
  · obtain ⟨a', there', ended⟩ := (perform_callsOff ask _ there off).1
    rw [← run_concat] at there'
    have leads := leads_run ask s (before ++ [call]) after
    rw [List.append_assoc] at leads
    obtain ⟨a'', there'', -, stays, -⟩ := leads.arms there'
    obtain rfl := stays ended
    exact ⟨a'', there'', ended⟩

/-- What has ended has ended for good. -/
theorem HasEnded.append {before : List (LeaseCall ε)} {i : Nat} (h : HasEnded ask s before i)
    (after : List (LeaseCall ε)) : HasEnded ask s (before ++ after) i := by
  rcases h with reported | ⟨first, call, last, a, rfl, there, off⟩
  · exact .inl ((leads_run ask s before after).reported reported)
  · exact .inr ⟨first, call, last ++ after, a, by rw [List.append_assoc, List.cons_append], there,
      off⟩

/-- An arm is not live if it has failed or was called off, and in no other case. -/
theorem hasEnded_iff {calls : List (LeaseCall ε)} {i : Nat} {a : Arm ε}
    (there : (run ask s calls).1.arms[i]? = some a) :
    HasEnded ask s calls i ↔ a.isLive = false := by
  refine ⟨fun h => ?_, fun ended => ?_⟩
  · obtain ⟨a', there', ended⟩ := h.arm
    obtain rfl : a = a' := Option.some.inj (there.symm.trans there')
    exact ended
  induction calls using List.reverseRecOn generalizing a with
  | nil => cases there
  | append_singleton calls call ih =>
      rw [run_concat] at there
      -- An arm that was there before ended then or in this call; a new one is live.
      by_cases old : i < (run ask s calls).1.arms.length
      · have before := List.getElem?_eq_getElem old
        obtain ⟨a', there', -, -, ends⟩ := (leads_perform ask _ call).arms before
        obtain rfl : a = a' := Option.some.inj (there.symm.trans there')
        rcases ends ended with ended | off | reported
        · exact (ih before ended).append ask s [call]
        · exact .inr ⟨calls, call, [], _, rfl, before, off⟩
        · rw [← run_concat] at reported
          exact .inl reported
      · by_cases starts : ∃ holder, call.Starts holder
        · obtain ⟨holder, starts⟩ := starts
          obtain ⟨length, a', there', -, live⟩ := perform_starts ask (run ask s calls) starts
          have bound := (List.getElem?_eq_some_iff.1 there).1
          obtain rfl : i = (run ask s calls).1.arms.length := by omega
          obtain rfl : a = a' := Option.some.inj (there.symm.trans there')
          rw [live] at ended
          cases ended
        · have length := length_perform ask (run ask s calls) (not_exists.1 starts)
          have bound := (List.getElem?_eq_some_iff.1 there).1
          omega

/-- An arm is the latest of its holder if no later one is the holder's. -/
theorem isLatest_of_no_later {calls : List (LeaseCall ε)} {i : Nat} {a : Arm ε}
    (there : (run ask s calls).1.arms[i]? = some a)
    (last : ∀ j b, i < j → (run ask s calls).1.arms[j]? = some b → b.holder ≠ a.holder) :
    IsLatest ask s calls a.holder i := by
  induction calls using List.reverseRecOn generalizing a with
  | nil => cases there
  | append_singleton calls call ih =>
      rw [run_concat] at there last
      by_cases old : i < (run ask s calls).1.arms.length
      · have unchanged (j : Nat) (b : Arm ε) (mem : (run ask s calls).1.arms[j]? = some b) :
            ∃ b', (perform ask (run ask s calls) call).1.arms[j]? = some b' ∧
              b'.holder = b.holder := by
          obtain ⟨b', mem', same, -⟩ := (leads_perform ask _ call).arms mem
          exact ⟨b', mem', same⟩
        obtain ⟨a', there', holder⟩ := unchanged i _ (List.getElem?_eq_getElem old)
        obtain rfl : a = a' := Option.some.inj (there.symm.trans there')
        obtain ⟨before, first, after, rfl, starts, none, rfl⟩ :=
          ih (List.getElem?_eq_getElem old) fun j b later mem same => by
            obtain ⟨b', mem', same'⟩ := unchanged j b mem
            exact last j b' later mem' (same'.trans (same.trans holder.symm))
        rw [← holder] at starts none
        -- Had the call started an arm of this holder, that one would come later.
        refine ⟨before, first, after ++ [call], by simp, starts, fun c mem => ?_, rfl⟩
        rcases List.mem_append.1 mem with mem | mem
        · exact none c mem
        · obtain rfl := List.mem_singleton.1 mem
          intro again
          obtain ⟨-, b, mem, same, -⟩ := perform_starts ask _ again
          exact last _ b old mem same
      · by_cases starts : ∃ holder, call.Starts holder
        · obtain ⟨holder, starts⟩ := starts
          obtain ⟨length, a', there', held, -⟩ := perform_starts ask (run ask s calls) starts
          have bound := (List.getElem?_eq_some_iff.1 there).1
          obtain rfl : i = (run ask s calls).1.arms.length := by omega
          obtain rfl : a = a' := Option.some.inj (there.symm.trans there')
          rw [held]
          exact ⟨calls, call, [], rfl, starts, nofun, rfl⟩
        · have length := length_perform ask (run ask s calls) (not_exists.1 starts)
          have bound := (List.getElem?_eq_some_iff.1 there).1
          omega

/-- The latest arm of a holder is there. -/
theorem IsLatest.arm {calls : List (LeaseCall ε)} {holder : String} {i : Nat}
    (h : IsLatest ask s calls holder i) :
    ∃ a, (run ask s calls).1.arms[i]? = some a ∧ a.holder = holder := by
  obtain ⟨before, call, after, rfl, starts, -, rfl⟩ := h
  obtain ⟨-, a, there, held, -⟩ := perform_starts ask (run ask s before) starts
  rw [← run_concat] at there
  have leads := leads_run ask s (before ++ [call]) after
  rw [List.append_assoc] at leads
  obtain ⟨a', there', same, -⟩ := leads.arms there
  exact ⟨a', there', same.trans held⟩

end

end LeaseCall

/-! ### What can be seen of an arm -/

namespace Roster

variable {ε σ : Type}

theorem Sound.length_reportsOf {r : Roster ε} (h : r.Sound) (i : Nat) :
    (r.reportsOf i).length ≤ 1 := by
  have once := List.nodup_iff_count_le_one.1 h.once i
  rw [List.count, List.countP_map, List.countP_eq_length_filter] at once
  exact once

/-- A holder is active if it has a live arm. -/
theorem Sound.isActive_iff {r : Roster ε} (h : r.Sound) (holder : String) :
    r.isActive holder = true ↔
      ∃ (i : Nat) (a : Arm ε), r.arms[i]? = some a ∧ a.holder = holder ∧ a.isLive = true := by
  unfold isActive
  constructor
  · intro active
    cases last : (r.arms.filter (·.holder == holder)).getLast? with
    | none =>
        rw [last] at active
        cases active
    | some a =>
        rw [last] at active
        obtain ⟨mem, held⟩ := List.mem_filter.1 (List.mem_of_getLast? last)
        obtain ⟨i, there⟩ := List.mem_iff_getElem?.1 mem
        exact ⟨i, a, there, beq_iff_eq.1 held, active⟩
  · rintro ⟨i, a, there, held, live⟩
    -- All but the last arm of the holder have ended, so the live one is the last.
    have superseded : r.arms.Pairwise fun a b => a.holder = b.holder → a.isLive = false :=
      List.pairwise_iff_getElem.2 fun i j first second before =>
        h.latest before (List.getElem?_eq_getElem first) (List.getElem?_eq_getElem second)
    have mem : a ∈ r.arms.filter (·.holder == holder) :=
      List.mem_filter.2 ⟨List.mem_of_getElem? there, beq_iff_eq.2 held⟩
    obtain ⟨earlier, last, eq⟩ :=
      (List.eq_nil_or_concat _).resolve_left (List.ne_nil_of_mem mem)
    rw [List.concat_eq_append] at eq
    have superseded := superseded.filter (·.holder == holder)
    have lastHeld : last.holder = holder := by
      have mem : last ∈ r.arms.filter (·.holder == holder) := by
        rw [eq]
        simp
      exact beq_iff_eq.1 (List.mem_filter.1 mem).2
    rw [eq] at mem superseded ⊢
    rw [List.getLast?_concat, Option.any_some]
    rcases List.mem_append.1 mem with old | new
    · have ended := (List.pairwise_append.1 superseded).2.2 a old last List.mem_cons_self
        (held.trans lastHeld.symm)
      rw [live] at ended
      cases ended
    · rw [← List.mem_singleton.1 new]
      exact live

/-- To start an arm and let it see at once whether it is late is two calls. -/
theorem resume_eq_foldl (ask : Asking ε σ) (s : σ) (r : Roster ε) (holder : String)
    (period deadline : Nat) (watched : Bool) (errand : ε) :
    (r.resume holder period deadline watched errand, s) =
      [LeaseCall.resume holder period deadline watched errand, .look r.arms.length].foldl
        (LeaseCall.perform ask) (r, s) := rfl

/-- To interrupt and let every arm see it at once is to interrupt and let them look in turn. -/
theorem interrupt_eq_foldl (ask : Asking ε σ) (s : σ) (r : Roster ε) : ∃ order : List Nat,
    (r.interrupt, s) =
      (LeaseCall.interrupt :: order.map LeaseCall.look).foldl (LeaseCall.perform ask) (r, s) := by
  have looks (order : List Nat) (r : Roster ε) :
      (order.map LeaseCall.look).foldl (LeaseCall.perform ask) (r, s) =
        (order.foldl look r, s) := by
    induction order generalizing r with
    | nil => rfl
    | cons i order ih => exact ih (r.look i)
  exact ⟨_, (looks _ r.cut).symm⟩

end Roster

/-! ### The life of an arm -/

/-- Whatever is called and in whatever order tasks take turns: of an arm one failure at most is
reported, and none once it is called off; an arm that has ended stays as it is, the attempts it
made included, and an arm that has to fail when it gets a turn has ended; the arms that are live are
those that have not ended, and of each holder the latest one at most; and a holder is active
exactly if its latest arm has not ended. -/
theorem LeaseCall.run_lifecycle {ε σ : Type} (ask : Asking ε σ) (s : σ)
    (calls : List (LeaseCall ε)) :
    let r := (run ask s calls).1
    (∀ i, (r.reportsOf i).length ≤ 1) ∧
    (∀ before call after i a, calls = before ++ call :: after →
      (run ask s before).1.arms[i]? = some a → call.CallsOff a.holder →
        r.reportsOf i = (run ask s before).1.reportsOf i) ∧
    (∀ before after i, calls = before ++ after → HasEnded ask s before i →
      r.arms[i]? = (run ask s before).1.arms[i]? ∧
        r.reportsOf i = (run ask s before).1.reportsOf i) ∧
    (∀ before call after i a, calls = before ++ call :: after →
      (run ask s before).1.arms[i]? = some a → call.Dooms ask (run ask s before) i a →
        HasEnded ask s calls i) ∧
    (∀ i a, r.arms[i]? = some a → (a.isLive = true ↔ ¬ HasEnded ask s calls i)) ∧
    (∀ i a, r.arms[i]? = some a → a.isLive = true → IsLatest ask s calls a.holder i) ∧
    ∀ holder, r.isActive holder = true ↔
      ∃ i, IsLatest ask s calls holder i ∧ ¬ HasEnded ask s calls i := by
  intro r
  have sound : r.Sound := sound_run ask s calls
  have stays (before after : List (LeaseCall ε)) (i : Nat) (eq : calls = before ++ after)
      (ended : HasEnded ask s before i) : r.arms[i]? = (run ask s before).1.arms[i]? ∧
        r.reportsOf i = (run ask s before).1.reportsOf i := by
    subst eq
    obtain ⟨a, there, ended⟩ := ended.arm
    have leads := leads_run ask s before after
    obtain ⟨a', there', -, same, -⟩ := leads.arms there
    obtain rfl := same ended
    exact ⟨there'.trans there.symm, leads.reportsOf_eq there ended⟩
  have live (i : Nat) (a : Arm ε) (there : r.arms[i]? = some a) :
      a.isLive = true ↔ ¬ HasEnded ask s calls i := by
    rw [hasEnded_iff ask s there, Bool.not_eq_false]
  have latest (i : Nat) (a : Arm ε) (there : r.arms[i]? = some a) (live : a.isLive = true) :
      IsLatest ask s calls a.holder i := by
    refine isLatest_of_no_later ask s there fun j b later there' same => ?_
    have ended := sound.latest later there there' same.symm
    rw [live] at ended
    cases ended
  have split {before after : List (LeaseCall ε)} {call : LeaseCall ε}
      (eq : calls = before ++ call :: after) : calls = (before ++ [call]) ++ after := by
    rw [eq, List.append_assoc]
    rfl
  refine ⟨sound.length_reportsOf, ?_, stays, ?_, live, latest, fun holder => ?_⟩
  · intro before call after i a eq there off
    have ended : HasEnded ask s (before ++ [call]) i :=
      .inr ⟨before, call, [], a, rfl, there, off⟩
    rw [(stays _ after i (split eq) ended).2, run_concat, Roster.reportsOf,
      (perform_callsOff ask _ there off).2, Roster.reportsOf]
  · intro before call after i a eq there dooms
    obtain ⟨a', there', ended⟩ := perform_dooms ask _ there dooms
    rw [← run_concat] at there'
    rw [split eq]
    exact ((hasEnded_iff ask s there').2 ended).append ask s after
  · rw [sound.isActive_iff]
    constructor
    · rintro ⟨i, a, there, rfl, lives⟩
      exact ⟨i, latest i a there lives, (live i a there).1 lives⟩
    · rintro ⟨i, newest, running⟩
      obtain ⟨a, there, held⟩ := newest.arm
      exact ⟨i, a, there, held, (live i a there).2 running⟩

end BuildWorker
