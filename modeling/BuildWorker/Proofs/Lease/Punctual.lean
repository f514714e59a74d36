import BuildWorker.Proofs.Dispatch.Round
import BuildWorker.Proofs.Lease.Lifecycle
import BuildWorker.Proofs.Lease.Service

/-!
# Arms that are on time

An arm that nobody calls off has three reasons to fail: an attempt at renewal is refused, its
deadline has come, everything is interrupted. `Terms` are what the first two hang on, and
`Terms.failureTime` is when the earliest of the three is there, or when the arm is started if that
is later.

`Roster.Punctual` says that an arm has been on time so far: it has made the attempts that were due,
and it has failed if and only if there was a reason, at the instant when it came. Whatever happens
to the roster keeps an arm so. Only the clock must not run ahead: it goes on when the tasks of the
arm have nothing to do (`Roster.Idle`), and where it stops on the way it gives both of them a turn,
in any order (`Roster.Punctual.advanceTo`).
-/

namespace BuildWorker

/-! ### The terms of an arm -/

/-- The earlier of a time and another one, if there is another. -/
def sooner (time : Nat) : Option Nat → Nat
  | none => time
  | some other => min time other

theorem sooner_le_iff {time now : Nat} {other : Option Nat} :
    sooner time other ≤ now ↔ time ≤ now ∨ ∃ o, other = some o ∧ o ≤ now := by
  cases other with
  | none => simp [sooner]
  | some o =>
      simp only [sooner, Option.some.injEq, exists_eq_left']
      omega

/-- What an arm is started with, and what its attempts at renewal will come to. -/
structure Terms where
  /-- When the arm is started. -/
  start : Nat
  period : Nat
  deadline : Nat
  /-- What attempts come to, by their numbers from 1 on. -/
  outcome : Nat → LeaseStatus

namespace Terms

/-- When attempt number `n` is due. -/
def tick (t : Terms) (n : Nat) : Nat := t.start + n * t.period

/-- The number of the first attempt that is refused, if one is. -/
def FirstLost (t : Terms) : Option Nat → Prop
  | some k => 1 ≤ k ∧ t.outcome k = .lost ∧ ∀ n, 1 ≤ n → n < k → t.outcome n ≠ .lost
  | none => ∀ n, 1 ≤ n → t.outcome n ≠ .lost

/-- When the arm fails, given the number of the first refusal and the time of the interrupt. -/
def failureTime (t : Terms) (lost interrupted : Option Nat) : Nat :=
  max t.start (sooner (sooner t.deadline (lost.map t.tick)) interrupted)

variable {t : Terms} {lost cut : Option Nat} {n m now : Nat}

theorem tick_succ (t : Terms) (n : Nat) : t.tick (n + 1) = t.tick n + t.period := by
  rw [tick, tick, Nat.succ_mul, Nat.add_assoc]

theorem tick_le (t : Terms) (le : n ≤ m) : t.tick n ≤ t.tick m :=
  Nat.add_le_add_left (Nat.mul_le_mul_right _ le) _

theorem FirstLost.le {k : Option Nat} (first : t.FirstLost k) (positive : 1 ≤ n)
    (refused : t.outcome n = .lost) : ∃ l, k = some l ∧ l ≤ n := by
  cases k with
  | none => exact absurd refused (first n positive)
  | some l => exact ⟨l, rfl, Nat.le_of_not_lt fun lt => first.2.2 n positive lt refused⟩

/-- A reason to fail that is there at some time. -/
inductive Cause (t : Terms) (cut : Option Nat) (now : Nat) : Prop
  | late (due : t.deadline ≤ now)
  | refused {n : Nat} (positive : 1 ≤ n) (refused : t.outcome n = .lost) (due : t.tick n ≤ now)
  | interrupted {c : Nat} (eq : cut = some c) (due : c ≤ now)

/-- An arm fails as soon as there is a reason. -/
theorem failureTime_le_iff (first : t.FirstLost lost) (started : t.start ≤ now) :
    t.failureTime lost cut ≤ now ↔ t.Cause cut now := by
  rw [failureTime, Nat.max_le, and_iff_right started, sooner_le_iff, sooner_le_iff]
  constructor
  · intro le
    rcases le with (due | ⟨_, eq, due⟩) | ⟨c, eq, due⟩
    · exact .late due
    · obtain ⟨k, rfl, rfl⟩ := Option.map_eq_some_iff.1 eq
      exact .refused first.1 first.2.1 due
    · exact .interrupted eq due
  · intro cause
    cases cause with
    | late due => exact .inl (.inl due)
    | refused positive refused due =>
        obtain ⟨l, rfl, le⟩ := first.le positive refused
        exact .inl (.inr ⟨_, rfl, Nat.le_trans (t.tick_le le) due⟩)
    | interrupted eq due => exact .inr ⟨_, eq, due⟩

/-- An interrupt now comes too late for what is past. -/
theorem failureTime_cut (t : Terms) (lost : Option Nat) (started : t.start ≤ now)
    (past : ∀ c, cut = some c → c ≤ now) :
    t.failureTime lost (cut.or (some now)) = min (t.failureTime lost cut) now := by
  cases cut with
  | none =>
      simp only [failureTime, sooner, Option.none_or]
      omega
  | some c =>
      have le := past c rfl
      simp only [failureTime, sooner, Option.some_or]
      omega

/-- Without an interrupt, an arm does not fail before its deadline and the first refusal. -/
theorem le_failureTime (deadline : now ≤ t.deadline)
    (refused : ∀ k, lost = some k → now ≤ t.tick k) : now ≤ t.failureTime lost none := by
  cases lost with
  | none =>
      simp only [failureTime, sooner, Option.map_none]
      omega
  | some k =>
      have le := refused k rfl
      simp only [failureTime, sooner, Option.map_some]
      omega

theorem start_le_failureTime (t : Terms) (lost cut : Option Nat) :
    t.start ≤ t.failureTime lost cut := Nat.le_max_left _ _

variable {ε σ : Type}

/-- The terms tell what comes of asking: attempts on some errands, one after the other, are answered
at once, and as `t.outcome` says. The first refusal is that of attempt `lost`. -/
structure Tell (t : Terms) (ask : Asking ε σ) (e : Nat → ε) (lost : Option Nat) : Prop where
  period : 1 ≤ t.period
  answered : ∀ n now s,
    (ask now (e n) s).1 = ⟨t.outcome (n + 1), 0⟩ ∧ (ask now (e n) s).2.1 = e (n + 1)
  first : t.FirstLost lost

/-- What of an arm is as the terms say. -/
structure Fit (t : Terms) (holder : String) (a : Arm ε) : Prop where
  holder : a.holder = holder
  period : a.period = t.period
  deadline : a.deadline = t.deadline

/-- A resting arm makes its next attempt when that is due. -/
theorem Fit.renewal {holder : String} {a : Arm ε} (fit : t.Fit holder a) (positive : 1 ≤ t.period) :
    t.tick m + a.rest = t.tick (m + 1) := by
  rw [t.tick_succ, Arm.rest, fit.period, Nat.max_eq_right positive]

/-- A resting arm wants a turn at its deadline or for its next attempt. -/
theorem Fit.due {holder : String} {a : Arm ε} (fit : t.Fit holder a) (positive : 1 ≤ t.period)
    (resting : a.phase = .resting (t.tick m)) :
    a.due? = some (min t.deadline (t.tick (m + 1))) := by
  rw [Arm.due?, Arm.renewalDue?, resting, ← fit.renewal positive, ← fit.deadline]
  rfl

end Terms

theorem Arm.isLive_of_resting {ε : Type} {a : Arm ε} {since : Nat}
    (resting : a.phase = .resting since) : a.isLive = true := by
  rw [isLive, resting]
  rfl

namespace Roster

variable {ε σ : Type}

@[simp] theorem now_look (r : Roster ε) (i : Nat) : (r.look i).now = r.now := by
  unfold look
  split
  · rfl
  · split
    · exact now_fail r i
    · rfl

@[simp] theorem interrupted_look (r : Roster ε) (i : Nat) :
    (r.look i).interrupted = r.interrupted := by
  unfold look
  split
  · rfl
  · split
    · exact interrupted_fail r i
    · rfl

/-- The clock stops at the instant it was to reach, or stays if that is past. -/
@[simp] theorem now_advanceTo (ask : Asking ε σ) (order : Roster ε → List Turn) (target : Nat)
    (r : Roster ε) (s : σ) : (r.advanceTo ask order target s).1.now = max r.now target := by
  fun_induction advanceTo ask order target r s with
  | case1 r s next before r' served ih =>
      rw [ih, now_turns]
      change max next target = max r.now target
      omega
  | case2 r s next before => rfl

/-! ### Arms that are on time -/

/-- Everything was interrupted at `cut`, or not at all. -/
structure Noted (r : Roster ε) (cut : Option Nat) : Prop where
  interrupted : r.interrupted = cut.isSome
  past : ∀ c, cut = some c → c ≤ r.now

theorem Noted.of_later {r r' : Roster ε} {cut : Option Nat} (h : r.Noted cut)
    (interrupted : r'.interrupted = r.interrupted) (le : r.now ≤ r'.now) : r'.Noted cut :=
  ⟨interrupted.trans h.interrupted, fun c eq => Nat.le_trans (h.past c eq) le⟩

theorem Noted.cut_now {r : Roster ε} {cut : Option Nat} (h : r.Noted cut) :
    r.cut.Noted (cut.or (some r.now)) := by
  cases cut with
  | none =>
      refine ⟨rfl, fun c eq => ?_⟩
      cases eq
      exact Nat.le_refl _
  | some c => exact ⟨rfl, h.past⟩

/-- The arm at a position has nothing to do: no task wants a turn, and there is no interrupt to be
seen. -/
structure Idle (r : Roster ε) (i : Nat) : Prop where
  settled : r.Settled i
  calm : r.interrupted = true → ∀ a, r.arms[i]? = some a → a.isLive = false

section

variable (t : Terms) (e : Nat → ε) (lost cut : Option Nat) (i : Nat) (r : Roster ε)

/-- An arm that has not failed has made `m` attempts, all that were due. -/
structure Underway (a : Arm ε) (m : Nat) : Prop where
  attempts : a.attempts = (List.range' 1 m).map t.tick
  quiet : r.reportsOf i = []
  rested : t.tick m ≤ r.now
  early : r.now ≤ t.tick (m + 1)
  /-- It is not past the time to fail. -/
  before : r.now ≤ t.failureTime lost cut

/-- What an arm that is on time may be doing. -/
inductive Stage (a : Arm ε) : Prop
  /-- It rests after `m` attempts. -/
  | resting (m : Nat) (phase : a.phase = .resting (t.tick m)) (errand : a.errand = e m)
      (held : ∀ n, 1 ≤ n → n ≤ m → t.outcome n ≠ .lost) (underway : Underway t lost cut i r a m)
  /-- It has failed after `m` attempts. -/
  | failed (m : Nat) (phase : a.phase = .ended)
      (attempts : a.attempts = (List.range' 1 m).map t.tick)
      (report : r.reportsOf i = [(i, t.failureTime lost cut)])
      (past : t.failureTime lost cut ≤ r.now) (le : t.tick m ≤ t.failureTime lost cut)
      (ge : t.failureTime lost cut ≤ t.tick (m + 1))

/-- The arm at a position has been on time so far. -/
structure Punctual (holder : String) : Prop extends Noted r cut where
  started : t.start ≤ r.now
  arm : ∃ a, r.arms[i]? = some a ∧ t.Fit holder a ∧ Stage t e lost cut i r a

end

variable {t : Terms} {ask : Asking ε σ} {e : Nat → ε} {lost cut : Option Nat} {i : Nat}
  {r r' : Roster ε} {holder : String}

/-- What spares the arm keeps it on time. -/
theorem Punctual.spared (h : Punctual t e lost cut i r holder) (spares : Spares i r r')
    (now : r'.now = r.now) (interrupted : r'.interrupted = r.interrupted) :
    Punctual t e lost cut i r' holder := by
  obtain ⟨a, there, fit, stage⟩ := h.arm
  refine ⟨h.of_later interrupted (Nat.le_of_eq now.symm), now ▸ h.started,
    a, spares.arm.trans there, fit, ?_⟩
  cases stage with
  | resting m phase errand held underway =>
      exact .resting m phase errand held ⟨underway.attempts, spares.reports.trans underway.quiet,
        now ▸ underway.rested, now ▸ underway.early, now ▸ underway.before⟩
  | failed m phase attempts report past le ge =>
      exact .failed m phase attempts (spares.reports.trans report) (now ▸ past) le ge

/-- An arm that fails for a reason fails on time. -/
theorem punctual_fail {a : Arm ε} {m : Nat} (first : t.FirstLost lost) (noted : r.Noted cut)
    (started : t.start ≤ r.now) (there : r.arms[i]? = some a) (live : a.isLive = true)
    (fit : t.Fit holder a) (underway : Underway t lost cut i r a m) (cause : t.Cause cut r.now) :
    Punctual t e lost cut i (r.fail i) holder := by
  have now : t.failureTime lost cut = r.now :=
    Nat.le_antisymm ((Terms.failureTime_le_iff first started).2 cause) underway.before
  have fails : r.fail i = { r with
      arms := r.arms.set i { a with phase := .ended }, reports := r.reports ++ [(i, r.now)] } := by
    rw [fail, there]
    exact if_pos live
  rw [fails]
  refine ⟨⟨noted.interrupted, noted.past⟩, started, { a with phase := .ended },
    List.getElem?_set_self (List.getElem?_eq_some_iff.1 there).1,
    ⟨fit.holder, fit.period, fit.deadline⟩, ?_⟩
  refine .failed m rfl underway.attempts ?_ (Nat.le_of_eq now) (now ▸ underway.rested)
    (now ▸ underway.early)
  have quiet := underway.quiet
  rw [reportsOf] at quiet
  rw [reportsOf, List.filter_append, quiet, now]
  simp

/-- The answer to an attempt that was made on time. -/
theorem punctual_answer {a : Arm ε} {m : Nat} (first : t.FirstLost lost) (noted : r.Noted cut)
    (started : t.start ≤ r.now) (inside : i < r.arms.length) (fit : t.Fit holder a)
    (errand : a.errand = e (m + 1)) (kept : ∀ n, 1 ≤ n → n ≤ m → t.outcome n ≠ .lost)
    (now : r.now = t.tick (m + 1)) (underway : Underway t lost cut i r a (m + 1)) :
    Punctual t e lost cut i (r.answer i a (t.outcome (m + 1))) holder := by
  have noted' (arms : List (Arm ε)) : Noted { r with arms } cut := ⟨noted.interrupted, noted.past⟩
  have underway' (arms : List (Arm ε)) (phase : Phase) :
      Underway t lost cut i { r with arms } { a with phase } (m + 1) :=
    ⟨underway.attempts, underway.quiet, underway.rested, underway.early, underway.before⟩
  have fit' (phase : Phase) : t.Fit holder { a with phase } :=
    ⟨fit.holder, fit.period, fit.deadline⟩
  unfold Roster.answer
  dsimp only
  split
  next refused =>
    exact punctual_fail first (noted' _) started (List.getElem?_set_self inside) rfl (fit' _)
      (underway' _ _) (.refused (Nat.le_add_left 1 m) refused (Nat.le_of_eq now.symm))
  next granted =>
    refine ⟨noted' _, started, _, List.getElem?_set_self inside, fit' _, ?_⟩
    refine .resting (m + 1) (congrArg _ now) errand (fun n positive le => ?_) (underway' _ _)
    rcases Nat.le_succ_iff.1 le with le | rfl
    · exact kept n positive le
    · exact granted

/-- A turn for the renewal of an arm that is on time. -/
theorem Punctual.renewal (h : Punctual t e lost cut i r holder) (tell : t.Tell ask e lost) (s : σ) :
    Punctual t e lost cut i (r.turn ask ⟨i, .renewal⟩ s).1 holder := by
  obtain ⟨a, there, fit, stage⟩ := h.arm
  unfold turn
  dsimp only
  rw [there]
  dsimp only
  cases stage with
  | failed m phase =>
      rw [phase]
      exact h
  | resting m phase errand kept underway =>
      rw [phase]
      dsimp only
      rw [fit.renewal tell.period]
      split
      · exact h
      next due =>
        have now : r.now = t.tick (m + 1) :=
          Nat.le_antisymm underway.early (Nat.le_of_not_lt due)
        have attempts : a.attempts ++ [r.now] = (List.range' 1 (m + 1)).map t.tick := by
          rw [List.range'_1_concat, List.map_append, ← underway.attempts, now, Nat.add_comm 1 m]
          rfl
        obtain ⟨attempt, next⟩ := tell.answered m r.now s
        rw [errand]
        rcases asked : ask r.now (e m) s with ⟨answer, errand', s'⟩
        rw [asked] at attempt next
        dsimp only at attempt next
        subst attempt next
        dsimp only
        rw [if_pos rfl]
        exact punctual_answer tell.first h.toNoted h.started (List.getElem?_eq_some_iff.1 there).1
          ⟨fit.holder, fit.period, fit.deadline⟩ rfl kept now
          ⟨attempts, underway.quiet, Nat.le_of_eq now.symm, now ▸ t.tick_le (Nat.le_succ _),
            underway.before⟩

/-- A turn for the expiry of an arm that is on time. -/
theorem Punctual.expiry (ask : Asking ε σ) (h : Punctual t e lost cut i r holder)
    (first : t.FirstLost lost) (s : σ) :
    Punctual t e lost cut i (r.turn ask ⟨i, .expiry⟩ s).1 holder := by
  obtain ⟨a, there, fit, stage⟩ := h.arm
  unfold turn
  dsimp only
  rw [there]
  dsimp only
  cases stage with
  | failed m phase =>
      rw [phase]
      exact h
  | resting m phase errand kept underway =>
      rw [phase]
      dsimp only
      split
      next due =>
        rw [fit.deadline] at due
        exact punctual_fail first h.toNoted h.started there (Arm.isLive_of_resting phase) fit
          underway (.late due)
      next => exact h

/-- **Turns keep an arm on time.** -/
theorem Punctual.turn (h : Punctual t e lost cut i r holder) (tell : t.Tell ask e lost)
    (turn : Turn) (s : σ) : Punctual t e lost cut i (r.turn ask turn s).1 holder := by
  obtain ⟨j, task⟩ := turn
  by_cases same : j = i
  · subst same
    cases task with
    | renewal => exact h.renewal tell s
    | expiry => exact h.expiry ask tell.first s
  · exact h.spared (spares_turn same r s) (now_turn ask _ r s) (interrupted_turn ask _ r s)

theorem Punctual.turns (h : Punctual t e lost cut i r holder) (tell : t.Tell ask e lost)
    (turns : List Turn) (s : σ) : Punctual t e lost cut i (r.turns ask turns s).1 holder := by
  induction turns generalizing r s with
  | nil => exact h
  | cons turn turns ih => exact ih (h.turn tell turn s) _

/-- So does a look at the interrupt and the deadline. -/
theorem Punctual.look (h : Punctual t e lost cut i r holder) (first : t.FirstLost lost)
    (j : Nat) : Punctual t e lost cut i (r.look j) holder := by
  unfold Roster.look
  split
  · exact h
  next a found =>
    split
    next doomed =>
      by_cases same : j = i
      · subst same
        obtain ⟨b, there, fit, stage⟩ := h.arm
        obtain rfl : a = b := Option.some.inj (found.symm.trans there)
        cases stage with
        | failed m phase =>
            have idle : r.fail j = r := by
              rw [fail, there]
              exact if_neg (by simp [Arm.isLive, phase])
            rw [idle]
            exact h
        | resting m phase errand kept underway =>
            refine punctual_fail first h.toNoted h.started there (Arm.isLive_of_resting phase) fit
              underway ?_
            rcases Bool.or_eq_true_iff.1 doomed with interrupted | late
            · rw [h.interrupted] at interrupted
              obtain ⟨c, eq⟩ := Option.isSome_iff_exists.1 interrupted
              exact .interrupted eq (h.past c eq)
            · rw [fit.deadline] at late
              exact .late (of_decide_eq_true late)
      · exact h.spared (spares_fail same r) (now_fail r j) (interrupted_fail r j)
    · exact h

/-- An interrupt brings the time to fail forward to now, unless it has come. -/
theorem Punctual.cut_now (h : Punctual t e lost cut i r holder) :
    Punctual t e lost (cut.or (some r.now)) i r.cut holder := by
  have time := t.failureTime_cut lost h.started h.past
  obtain ⟨a, there, fit, stage⟩ := h.arm
  refine ⟨h.toNoted.cut_now, h.started, a, there, fit, ?_⟩
  cases stage with
  | resting m phase errand kept underway =>
      refine .resting m phase errand kept ⟨underway.attempts, underway.quiet, underway.rested,
        underway.early, ?_⟩
      rw [time, Nat.min_eq_right underway.before]
      exact Nat.le_refl _
  | failed m phase attempts report past le ge =>
      rw [Nat.min_eq_left past] at time
      refine .failed m phase attempts ?_ ?_ ?_ ?_
      all_goals rw [time]
      · exact report
      · exact past
      · exact le
      · exact ge

theorem Punctual.pause (h : Punctual t e lost cut i r holder) {other : String}
    (ne : holder ≠ other) : Punctual t e lost cut i (r.pause other) holder := by
  obtain ⟨a, there, fit, -⟩ := h.arm
  refine h.spared ⟨?_, rfl⟩ rfl rfl
  rw [getElem?_pause other there, if_neg (fit.holder ▸ ne), there]

theorem Punctual.start (h : Punctual t e lost cut i r holder) {other : String}
    (ne : holder ≠ other) (period deadline : Nat) (watched : Bool) (errand : ε) :
    Punctual t e lost cut i (r.start other period deadline watched errand) holder := by
  have paused := h.pause ne
  obtain ⟨a, there, -⟩ := paused.arm
  refine paused.spared ⟨?_, rfl⟩ rfl rfl
  rw [getElem?_start period deadline watched errand there, there]

/-- When there is a reason to fail, a resting arm has something to do. -/
theorem Punctual.not_idle (h : Punctual t e lost cut i r holder) (first : t.FirstLost lost)
    (positive : 1 ≤ t.period) {a : Arm ε} {m : Nat} (there : r.arms[i]? = some a)
    (phase : a.phase = .resting (t.tick m))
    (kept : ∀ n, 1 ≤ n → n ≤ m → t.outcome n ≠ .lost) (come : t.failureTime lost cut ≤ r.now) :
    ¬ r.Idle i := by
  intro idle
  obtain ⟨b, found, fit, -⟩ := h.arm
  obtain rfl : a = b := Option.some.inj (there.symm.trans found)
  obtain ⟨early, rests⟩ := Nat.lt_min.1 (idle.settled a _ there (fit.due positive phase))
  cases (Terms.failureTime_le_iff first h.started).1 come with
  | late due => exact absurd due (Nat.not_le.2 early)
  | @refused n positive refused due =>
      have later : m < n := Nat.lt_of_not_le fun le => kept n positive le refused
      exact absurd (Nat.le_trans (t.tick_le later) due) (Nat.not_le.2 rests)
  | interrupted eq due =>
      have ended := idle.calm (by rw [h.interrupted, eq]; rfl) a there
      rw [Arm.isLive_of_resting phase] at ended
      cases ended

/-! ### Time that passes -/

/-- An arm that has nothing to do stays on time until it wants a turn. -/
theorem Punctual.clock (h : Punctual t e lost cut i r holder) (first : t.FirstLost lost)
    (positive : 1 ≤ t.period) (idle : r.Idle i) {now : Nat} (le : r.now ≤ now)
    (bound : ∀ a d, r.arms[i]? = some a → a.due? = some d → now ≤ d) :
    Punctual t e lost cut i { r with now } holder := by
  obtain ⟨a, there, fit, stage⟩ := h.arm
  refine ⟨h.of_later rfl le, Nat.le_trans h.started le, a, there,
    ⟨fit.holder, fit.period, fit.deadline⟩, ?_⟩
  cases stage with
  | failed m phase attempts report past le' ge =>
      exact .failed m phase attempts report (Nat.le_trans past le) le' ge
  | resting m phase errand kept underway =>
      obtain ⟨late, early⟩ := Nat.le_min.1 (bound a _ there (fit.due positive phase))
      have calm : cut = none := by
        rw [← Option.not_isSome_iff_eq_none, ← h.interrupted]
        intro interrupted
        have ended := idle.calm interrupted a there
        rw [Arm.isLive_of_resting phase] at ended
        cases ended
      refine .resting m phase errand kept ⟨underway.attempts, underway.quiet,
        Nat.le_trans underway.rested le, early, ?_⟩
      rw [calm]
      refine Terms.le_failureTime late fun k eq => Nat.le_trans early (t.tick_le ?_)
      rw [eq] at first
      exact Nat.lt_of_not_le fun le => kept k first.1 le first.2.1

/-- What a task sees to in its turn, and other turns do not undo, is so after some turns of which
one is that of the task. -/
theorem turns_of_mem {P Q : Roster ε → Prop} {turn : Turn}
    (sees : ∀ r s, Q r → P (r.turn ask turn s).1)
    (stays : ∀ r (other : Turn) s, P r → P (r.turn ask other s).1)
    (keeps : ∀ r (other : Turn) s, Q r → Q (r.turn ask other s).1) {turns : List Turn}
    (mem : turn ∈ turns) (s : σ) (start : Q r) : P (r.turns ask turns s).1 := by
  have stay (turns : List Turn) (r : Roster ε) (s : σ) (h : P r) : P (r.turns ask turns s).1 := by
    induction turns generalizing r s with
    | nil => exact h
    | cons other turns ih => exact ih _ _ (stays r other s h)
  induction turns generalizing r s with
  | nil => cases mem
  | cons other turns ih =>
      rcases List.mem_cons.1 mem with rfl | mem
      · exact stay turns _ _ (sees r s start)
      · exact ih mem _ (keeps r other s start)

theorem Renewed.turn {i : Nat} (h : r.Renewed i) (ask : Asking ε σ) (turn : Turn) (s : σ) :
    (r.turn ask turn s).1.Renewed i := by
  obtain ⟨j, task⟩ := turn
  by_cases same : j = i
  · subst same
    cases task with
    | renewal => exact renewed_turn ask j r s
    | expiry =>
        unfold Roster.turn
        split
        · exact h
        · split
          · exact h
          · dsimp only
            split
            · exact h.fail j
            · exact h
          next task _ => cases task
          next task _ => cases task
  · intro a d found due
    rw [(spares_turn same r s).arm] at found
    rw [now_turn]
    exact h a d found due

/-- An arm that is live after a turn was live before. -/
theorem live_of_turn {turn : Turn} {s : σ} {a' : Arm ε}
    (there' : (r.turn ask turn s).1.arms[i]? = some a') (live : a'.isLive = true) :
    ∃ a, r.arms[i]? = some a ∧ a.isLive = true := by
  have steps := steps_turn ask turn r s
  have inside : i < r.arms.length := by
    rw [← steps.length_eq]
    exact (List.getElem?_eq_some_iff.1 there').1
  refine ⟨r.arms[i], List.getElem?_eq_getElem inside, Bool.of_not_eq_false fun ended => ?_⟩
  obtain ⟨b, found, -, same, -⟩ := steps.leads.arms (List.getElem?_eq_getElem inside)
  obtain rfl : a' = b := Option.some.inj (there'.symm.trans found)
  rw [same ended, ended] at live
  cases live

/-- The arm at a position has ended or has some time left until its deadline. -/
def Timely (r : Roster ε) (i deadline : Nat) : Prop :=
  ∀ a, r.arms[i]? = some a → a.isLive = true → r.now < deadline

theorem Timely.turn {deadline : Nat} (h : r.Timely i deadline) (ask : Asking ε σ) (turn : Turn)
    (s : σ) : (r.turn ask turn s).1.Timely i deadline := by
  intro a' there' live
  obtain ⟨a, there, live⟩ := live_of_turn there' live
  rw [now_turn]
  exact h a there live

/-- After its turn for the expiry, an arm is timely. -/
theorem Punctual.timely_turn (h : Punctual t e lost cut i r holder) (ask : Asking ε σ) (s : σ) :
    (r.turn ask ⟨i, .expiry⟩ s).1.Timely i t.deadline := by
  intro a' there' live
  obtain ⟨a, there, fit, -⟩ := h.arm
  rw [now_turn]
  refine Nat.lt_of_not_le fun late => ?_
  obtain ⟨b, found, ended⟩ :=
    LeaseCall.perform_dooms ask (r, s) there (.expired (fit.deadline ▸ late))
  obtain rfl : a' = b := Option.some.inj (there'.symm.trans found)
  rw [ended] at live
  cases live

/-- An arm that is on time has nothing to do once both of its tasks have had a turn. -/
theorem Punctual.idle_turns (h : Punctual t e lost cut i r holder) (tell : t.Tell ask e lost)
    (calm : r.interrupted = true → ∀ a, r.arms[i]? = some a → a.isLive = false) {turns : List Turn}
    (renewal : ⟨i, .renewal⟩ ∈ turns) (expiry : ⟨i, .expiry⟩ ∈ turns) (s : σ) :
    (r.turns ask turns s).1.Idle i := by
  have rested : (r.turns ask turns s).1.Renewed i :=
    turns_of_mem (P := fun r => r.Renewed i) (Q := fun _ => True)
      (fun r s _ => renewed_turn ask i r s) (fun r other s h => h.turn ask other s)
      (fun _ _ _ h => h) renewal s trivial
  have timely : (r.turns ask turns s).1.Timely i t.deadline :=
    turns_of_mem (P := fun r => r.Timely i t.deadline)
      (Q := fun r => Punctual t e lost cut i r holder) (fun r s h => h.timely_turn ask s)
      (fun r other s h => h.turn ask other s)
      (fun r other s h => h.turn tell other s) expiry s h
  have leads := (steps_turns ask turns r s).leads
  obtain ⟨b, there, -⟩ := h.arm
  obtain ⟨b', found', -, same, -⟩ := leads.arms there
  refine ⟨fun a d found due => ?_, fun interrupted a found => ?_⟩
  · obtain ⟨a', there', fit, -⟩ := (h.turns tell turns s).arm
    obtain rfl : a = a' := Option.some.inj (found.symm.trans there')
    obtain ⟨renewal, at?, rfl⟩ := Arm.due?_eq_some_iff.1 due
    have live : a.isLive = true := by
      rw [Arm.isLive, bne_iff_ne]
      intro ended
      rw [Arm.due?_of_ended ended] at due
      cases due
    exact Nat.lt_min.2 ⟨fit.deadline ▸ timely a found live, rested a renewal found at?⟩
  · rw [interrupted_turns] at interrupted
    obtain rfl : a = b' := Option.some.inj (found.symm.trans found')
    have ended := calm interrupted b there
    rw [same ended]
    exact ended

/-- **Time that passes keeps an arm on time**, if both of its tasks get a turn wherever the clock
stops. -/
theorem Punctual.advanceTo (h : Punctual t e lost cut i r holder) (tell : t.Tell ask e lost)
    {order : Roster ε → List Turn} (fair : ∀ r, i < r.arms.length →
      ⟨i, .renewal⟩ ∈ order r ∧ ⟨i, .expiry⟩ ∈ order r) (idle : r.Idle i) (target : Nat) (s : σ) :
    Punctual t e lost cut i (r.advanceTo ask order target s).1 holder := by
  fun_induction Roster.advanceTo ask order target r s with
  | case1 r s next before r' served ih =>
      have ticks : Punctual t e lost cut i r' holder := by
        refine h.clock tell.first tell.period idle ?_ fun a d found due => ?_
        · exact Nat.le_trans (Nat.le_succ _) (Nat.le_max_left _ _)
        · obtain ⟨next', eq, le⟩ := nextDue_le found due
          refine Nat.max_le.2 ⟨idle.settled a d found due, ?_⟩
          rw [eq]
          exact le
      obtain ⟨a, there, -⟩ := h.arm
      obtain ⟨renewal, expiry⟩ := fair r' (List.getElem?_eq_some_iff.1 there).1
      exact ih (ticks.turns tell _ s) (ticks.idle_turns tell idle.calm renewal expiry s)
  | case2 r s next before =>
      refine h.clock tell.first tell.period idle (Nat.le_max_left _ _) fun a d found due => ?_
      obtain ⟨next', eq, le⟩ := nextDue_le found due
      have after : r.now < d := idle.settled a d found due
      have beyond : target < max (r.now + 1) (r.nextDue?.getD (target + 1)) :=
        Nat.lt_of_not_le before
      rw [eq, Option.getD_some] at beyond
      omega

end Roster

end BuildWorker
