import BuildWorker.Proofs.Lease.Punctual

/-!
# When an arm fails

In a run of calls an arm that nobody calls off is on time at every moment, as long as the clock is
patient with it (`LeaseCall.Patient`): each call keeps it so (`LeaseCall.punctual_perform`).
Everything else is left open, what other holders do, whose turn it is, and how often turns come. So
the times at which the arm asks for renewal and fails are those that its terms and the interrupt
give (`LeaseCall.run_failsOnTime`).

The answers to its attempts count only as far as they are refusals or come late. Where these are the
same, everything that happens is the same (`LeaseCall.run_alike`).
-/

namespace BuildWorker

/-! ### Answers that are alike -/

/-- Two ways of asking differ in answers only that come at once and are no refusals. -/
def Asking.Alike {ε σ : Type} (ask ask' : Asking ε σ) : Prop :=
  ∀ now errand s, (ask' now errand s).2 = (ask now errand s).2 ∧
    ((ask' now errand s).1 = (ask now errand s).1 ∨
      (ask' now errand s).1.delay = 0 ∧ (ask now errand s).1.delay = 0 ∧
        (ask' now errand s).1.status ≠ .lost ∧ (ask now errand s).1.status ≠ .lost)

namespace Roster

variable {ε σ : Type} {ask ask' : Asking ε σ}

theorem turn_alike (alike : Asking.Alike ask ask') (t : Turn) (r : Roster ε) (s : σ) :
    r.turn ask' t s = r.turn ask t s := by
  unfold turn
  split
  · rfl
  next a there =>
    split
    · rfl
    · rfl
    · split
      · rfl
      · obtain ⟨rest, same⟩ := alike r.now a.errand s
        generalize ask r.now a.errand s = asked at rest same ⊢
        generalize ask' r.now a.errand s = asked' at rest same ⊢
        obtain ⟨answer, errand, s'⟩ := asked
        obtain ⟨answer', errand', s''⟩ := asked'
        cases rest
        dsimp only at same ⊢
        rcases same with rfl | ⟨atOnce', atOnce, granted', granted⟩
        · rfl
        · rw [if_pos atOnce', if_pos atOnce, Roster.answer, Roster.answer, if_neg granted',
            if_neg granted]
    · rfl

theorem turns_alike (alike : Asking.Alike ask ask') (ts : List Turn) (r : Roster ε) (s : σ) :
    r.turns ask' ts s = r.turns ask ts s := by
  induction ts generalizing r s with
  | nil => rfl
  | cons t ts ih =>
      rw [turns, turns, turn_alike alike]
      exact ih _ _

theorem advanceTo_alike (alike : Asking.Alike ask ask') (order : Roster ε → List Turn)
    (target : Nat) (r : Roster ε) (s : σ) :
    r.advanceTo ask' order target s = r.advanceTo ask order target s := by
  fun_induction advanceTo ask order target r s with
  | case1 r s next before r' served ih =>
      rw [advanceTo, dif_pos before]
      dsimp only
      rw [turns_alike alike]
      exact ih
  | case2 r s next before => rw [advanceTo, dif_neg before]

end Roster

namespace LeaseCall

variable {ε σ : Type}

theorem run_alike {ask ask' : Asking ε σ} (alike : Asking.Alike ask ask') (s : σ)
    (calls : List (LeaseCall ε)) : run ask' s calls = run ask s calls := by
  have same : perform ask' = perform ask := by
    funext x call
    cases call with
    | resume | pause | drop | interrupt | look => rfl
    | serve t => exact Roster.turn_alike alike t x.1 x.2
    | advance order target => exact Roster.advanceTo_alike alike order target x.1 x.2
  rw [run, run, same]

/-! ### Calls -/

/-- When everything was interrupted first, as far as is known after a call. -/
def cutAfter (x : Roster ε × σ) (cut : Option Nat) : LeaseCall ε → Option Nat
  | .interrupt => cut.or (some x.1.now)
  | _ => cut

/-- The clock goes on only when the arm at a position has nothing to do, and wherever it stops both
tasks of the arm get a turn. -/
def Patient (x : Roster ε × σ) (i : Nat) : LeaseCall ε → Prop
  | .advance order _ => x.1.Idle i ∧ ∀ r : Roster ε, i < r.arms.length →
    ⟨i, .renewal⟩ ∈ order r ∧ ⟨i, .expiry⟩ ∈ order r
  | _ => True

theorem punctual_perform {ask : Asking ε σ} {x : Roster ε × σ} {t : Terms} {e : Nat → ε}
    {lost cut : Option Nat} {i : Nat} {holder : String}
    (h : x.1.Punctual t e lost cut i holder) (tell : t.Tell ask e lost) {call : LeaseCall ε}
    (alone : ¬ call.CallsOff holder) (patient : call.Patient x i) :
    (perform ask x call).1.Punctual t e lost (cutAfter x cut call) i holder := by
  cases call with
  | resume other period deadline watched errand =>
      exact h.start alone period deadline watched errand
  | pause other | drop other => exact h.pause alone
  | interrupt => exact h.cut_now
  | look j => exact h.look tell.first j
  | serve turn => exact h.turn tell turn x.2
  | advance order target =>
      obtain ⟨idle, fair⟩ := patient
      exact h.advanceTo tell fair idle target x.2

/-- When everything was interrupted first, in a run of calls. -/
def interruptedAt? (ask : Asking ε σ) (x : Roster ε × σ) : List (LeaseCall ε) → Option Nat
  | [] => none
  | .interrupt :: _ => some x.1.now
  | call :: rest => interruptedAt? ask (perform ask x call) rest

theorem interruptedAt?_concat (ask : Asking ε σ) (x : Roster ε × σ) (calls : List (LeaseCall ε))
    (call : LeaseCall ε) : interruptedAt? ask x (calls ++ [call]) =
      cutAfter (calls.foldl (perform ask) x) (interruptedAt? ask x calls) call := by
  induction calls generalizing x with
  | nil => cases call <;> rfl
  | cons first rest ih =>
      cases first with
      | interrupt => cases call <;> rfl
      | resume | pause | drop | look | serve | advance => exact ih _

theorem noted_perform (ask : Asking ε σ) {x : Roster ε × σ} {cut : Option Nat}
    (h : x.1.Noted cut) (call : LeaseCall ε) :
    (perform ask x call).1.Noted (cutAfter x cut call) := by
  cases call with
  | resume | pause | drop => exact ⟨h.interrupted, h.past⟩
  | interrupt => exact h.cut_now
  | look i => exact h.of_later (x.1.interrupted_look i) (Nat.le_of_eq (x.1.now_look i).symm)
  | serve t =>
      exact h.of_later (Roster.interrupted_turn ask t x.1 x.2)
        (Nat.le_of_eq (Roster.now_turn ask t x.1 x.2).symm)
  | advance order target =>
      exact h.of_later (Roster.interrupted_advanceTo ask order target x.1 x.2)
        (Nat.le_trans (Nat.le_max_left _ _)
          (Nat.le_of_eq (Roster.now_advanceTo ask order target x.1 x.2).symm))

theorem noted_run (ask : Asking ε σ) (s : σ) (calls : List (LeaseCall ε)) :
    (run ask s calls).1.Noted (interruptedAt? ask ({}, s) calls) := by
  induction calls using List.reverseRecOn with
  | nil => exact ⟨rfl, nofun⟩
  | append_singleton calls call ih =>
      rw [run_concat, interruptedAt?_concat]
      exact noted_perform ask ih call

/-- An arm is on time when it is started. -/
theorem punctual_start {t : Terms} {r : Roster ε} {cut : Option Nat} (sound : r.Sound)
    (noted : r.Noted cut) (starts : r.now = t.start) (e : Nat → ε) (lost : Option Nat)
    (holder : String) (watched : Bool) :
    (r.start holder t.period t.deadline watched (e 0)).Punctual t e lost cut r.arms.length
      holder := by
  have tick : t.tick 0 = r.now := by
    rw [starts, Terms.tick, Nat.zero_mul, Nat.add_zero]
  refine ⟨⟨noted.interrupted, noted.past⟩, Nat.le_of_eq starts.symm, _,
    r.getElem?_start_length holder t.period t.deadline watched (e 0), ⟨rfl, rfl, rfl⟩, ?_⟩
  refine .resting 0 (congrArg _ tick.symm) rfl (fun n positive le => by omega) ⟨rfl, ?_, ?_, ?_, ?_⟩
  · refine List.filter_eq_nil_iff.2 fun p mem same => ?_
    obtain ⟨a, there, -⟩ := sound.reported p mem
    have inside := (List.getElem?_eq_some_iff.1 there).1
    rw [beq_iff_eq.1 same] at inside
    exact Nat.lt_irrefl _ inside
  · exact Nat.le_of_eq tick
  · exact Nat.le_trans (Nat.le_of_eq tick.symm) (t.tick_le (Nat.le_succ 0))
  · exact Nat.le_trans (Nat.le_of_eq starts) (t.start_le_failureTime lost cut)

/-! ### The time of failure -/

/-- An arm that is alone is on time in every run. -/
theorem punctual_run (ask : Asking ε σ) (s : σ) {t : Terms} {e : Nat → ε} {lost : Option Nat}
    {holder : String} (watched : Bool) (before after : List (LeaseCall ε))
    (starts : (run ask s before).1.now = t.start) (tell : t.Tell ask e lost)
    (alone : ∀ call ∈ after, ¬ call.CallsOff holder) :
    let i := (run ask s before).1.arms.length
    let arming : LeaseCall ε := .resume holder t.period t.deadline watched (e 0)
    (∀ earlier call later, after = earlier ++ call :: later →
      call.Patient (run ask s (before ++ arming :: earlier)) i) →
    (run ask s (before ++ arming :: after)).1.Punctual t e lost
      (interruptedAt? ask ({}, s) (before ++ arming :: after)) i holder := by
  intro i arming patient
  induction after using List.reverseRecOn with
  | nil =>
      rw [run_concat, interruptedAt?_concat]
      exact punctual_start (sound_run ask s before) (noted_run ask s before) starts e lost holder
        watched
  | append_singleton after call ih =>
      have split : before ++ arming :: (after ++ [call]) =
          (before ++ arming :: after) ++ [call] := by
        rw [List.append_assoc, List.cons_append]
      rw [split, run_concat, interruptedAt?_concat]
      refine punctual_perform (ih (fun call mem => alone call (List.mem_append_left _ mem))
        fun earlier call' later eq => ?_) tell
        (alone call (List.mem_append_right _ List.mem_cons_self)) (patient after call [] rfl)
      exact patient earlier call' (later ++ [call]) (by rw [eq, List.append_assoc]; rfl)

/-- **An arm that nobody calls off fails on time.** Let it be started at some time, with a period of
at least one millisecond, a deadline, and attempts that are answered at once, in whatever way. Let
`time` be the earliest of the first attempt that is refused, the deadline and the interrupt, or the
start if that is later. Whatever else happens, as long as the clock goes on only when the tasks of
the arm have nothing to do and lets both have their turns where it stops: no failure is reported
before `time`, exactly one is reported as soon as that instant is over, and it is reported of that
instant. By then the arm has made its attempts, one at each period from the start, all that are due
before `time` and none after it. Were attempts answered otherwise that are not refused, everything
would happen as it does. -/
theorem run_failsOnTime (ask : Asking ε σ) (s : σ) (t : Terms) (e : Nat → ε) (lost : Option Nat)
    (holder : String) (watched : Bool) (before after : List (LeaseCall ε))
    (starts : (run ask s before).1.now = t.start) (tell : t.Tell ask e lost)
    (alone : ∀ call ∈ after, ¬ call.CallsOff holder)
    (patient : ∀ earlier call later, after = earlier ++ call :: later →
      call.Patient (run ask s
        (before ++ .resume holder t.period t.deadline watched (e 0) :: earlier))
        (run ask s before).1.arms.length) :
    let i := (run ask s before).1.arms.length
    let calls := before ++ .resume holder t.period t.deadline watched (e 0) :: after
    let r := (run ask s calls).1
    let time := t.failureTime lost (interruptedAt? ask ({}, s) calls)
    (r.now < time → r.reportsOf i = []) ∧
    (time < r.now ∨ time = r.now ∧ r.Idle i → r.reportsOf i = [(i, time)]) ∧
    (r.reportsOf i = [] ∨ r.reportsOf i = [(i, time)]) ∧
    (∃ a m, r.arms[i]? = some a ∧ a.attempts = (List.range' 1 m).map t.tick ∧
      t.tick m ≤ time ∧ t.tick m ≤ r.now ∧
      ∀ n, t.tick n < time → t.tick n < r.now ∨ t.tick n = r.now ∧ r.Idle i → n ≤ m) ∧
    ∀ ask', Asking.Alike ask ask' → run ask' s calls = run ask s calls := by
  intro i calls r time
  have punctual : r.Punctual t e lost (interruptedAt? ask ({}, s) calls) i holder :=
    punctual_run ask s watched before after starts tell alone patient
  obtain ⟨a, there, fit, stage⟩ := punctual.arm
  refine ⟨?_, ?_, ?_, ?_, fun ask' alike => run_alike alike s calls⟩
  · intro early
    cases stage with
    | resting m _ _ _ underway => exact underway.quiet
    | failed m _ _ _ past => exact absurd early (Nat.not_lt.2 past)
  · intro late
    cases stage with
    | failed m _ _ report => exact report
    | resting m phase errand held underway =>
        rcases late with late | ⟨now, idle⟩
        · exact absurd late (Nat.not_lt.2 underway.before)
        · exact absurd idle (punctual.not_idle tell.first tell.period there phase held
            (Nat.le_of_eq now))
  · cases stage with
    | resting m _ _ _ underway => exact .inl underway.quiet
    | failed m _ _ report => exact .inr report
  · cases stage with
    | resting m phase errand held underway =>
        refine ⟨a, m, there, underway.attempts, Nat.le_trans underway.rested underway.before,
          underway.rested, fun n _ due => Nat.le_of_not_lt fun lt => ?_⟩
        have next : r.now ≤ t.tick n := Nat.le_trans underway.early (t.tick_le lt)
        rcases due with due | ⟨due, idle⟩
        · exact absurd due (Nat.not_lt.2 next)
        · have left := idle.settled a _ there (fit.due tell.period phase)
          have le : t.tick (m + 1) ≤ r.now := due ▸ t.tick_le lt
          omega
    | failed m _ attempts _ past le ge =>
        refine ⟨a, m, there, attempts, le, Nat.le_trans le past,
          fun n lt _ => Nat.le_of_not_lt fun more => ?_⟩
        exact absurd (Nat.le_trans ge (t.tick_le more)) (Nat.not_le.2 lt)

/-- An arm with a period of ten milliseconds whose third attempt is refused fails after thirty,
while another holder has an arm as well. -/
theorem run_failsOnTime_refused :
    let outcome (n : Nat) : LeaseStatus :=
      if n = 3 then .lost else if n = 2 then .unreachable else .renewed
    let t : Terms := { start := 0, period := 10, deadline := 100, outcome }
    let ask : Asking Nat Unit := fun _ n s => (⟨outcome (n + 1), 0⟩, n + 1, s)
    let after : List (LeaseCall Nat) := [.resume "b" 7 50 false 4, .advance Roster.inTurn 31]
    let r := (run ask () (.resume "a" 10 100 true 0 :: after)).1
    t.Tell ask id (some 3) ∧ (∀ call ∈ after, ¬ call.CallsOff "a") ∧
      (∀ earlier call later, after = earlier ++ call :: later →
        call.Patient (run ask () (.resume "a" 10 100 true 0 :: earlier)) 0) ∧
      r.now = 31 ∧ r.reportsOf 0 = [(0, 30)] := by
  intro outcome t ask after r
  have tell : t.Tell ask id (some 3) := by
    refine ⟨by decide, fun _ _ _ => ⟨rfl, rfl⟩, by decide, rfl, fun n positive lt => ?_⟩
    have small : n = 1 ∨ n = 2 := by omega
    rcases small with rfl | rfl <;> decide
  have alone : ∀ call ∈ after, ¬ call.CallsOff "a" := by
    intro call mem
    simp only [after, List.mem_cons, List.not_mem_nil, or_false] at mem
    rcases mem with rfl | rfl <;> simp [CallsOff]
  have patient (earlier : List (LeaseCall Nat)) (call : LeaseCall Nat)
      (later : List (LeaseCall Nat)) (eq : after = earlier ++ call :: later) :
      call.Patient (run ask () (.resume "a" 10 100 true 0 :: earlier)) 0 := by
    rcases earlier with _ | ⟨_, _ | ⟨_, earlier⟩⟩
    · obtain ⟨rfl, -⟩ := List.cons.inj eq
      trivial
    · obtain ⟨rfl, rest⟩ := List.cons.inj eq
      obtain ⟨rfl, -⟩ := List.cons.inj rest
      refine ⟨⟨fun a d found due => ?_, nofun⟩, fun r inside => ?_⟩
      · cases found
        cases due
        decide
      · constructor <;> exact List.mem_flatMap.2 ⟨0, List.mem_range.2 inside, by simp⟩
    · simp [after] at eq
  have now : r.now = 31 := Roster.now_advanceTo ask Roster.inTurn 31 _ _
  obtain ⟨-, fails, -⟩ := run_failsOnTime ask () t id (some 3) "a" true [] after rfl tell alone
    patient
  have late : t.failureTime (some 3) none < 31 := by decide
  exact ⟨tell, alone, patient, now, fails (.inl (Nat.lt_of_lt_of_eq late now.symm))⟩

end LeaseCall

end BuildWorker
