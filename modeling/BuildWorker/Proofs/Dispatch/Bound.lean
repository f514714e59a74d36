import BuildWorker.Proofs.Dispatch.Interruption

/-!
# Matching ends

A round of matching that goes on has used up a unit of the queue, or the listener has refused
idleness in it. A failure of the backplane does neither: a round that meets one ends matching, or
offers idleness as if the queue were empty. So the units that wait and the refusals of idleness
bound the number of rounds, however many failures there are (`Match.run_returns`).

Others need not stand still while the worker matches. In a `Matching.Course` they may do anything
between two acts of the worker, such as interrupt it, claim units, change the listener's mind or
make the backplane fail, as long as they queue no unit.
-/

namespace BuildWorker

namespace MatchAct

/-- Whether others have their turn. The next round begins behind it. -/
def isPause : MatchAct → Bool
  | paused => true
  | _ => false

/-- Whether the listener refuses idleness. -/
def refusesIdle : MatchAct → Bool
  | offered none taken => !taken
  | _ => false

/-- How many rounds acts have begun. -/
def rounds (acts : List MatchAct) : Nat := acts.countP isPause + 1

/-- How often acts have refused idleness. -/
def refusals (acts : List MatchAct) : Nat := acts.countP refusesIdle

end MatchAct

namespace MatchStage

/-- What a round has used up: a unit of the queue, or a refusal. -/
def used : MatchStage → Nat
  | answered answer | received answer => Match.handed answer
  | settled => 1
  | _ => 0

/-- How many acts are left at most, up to the next pause or to the end. -/
def left : MatchStage → Nat
  | ready => 8
  | begun => 7
  | waiting => 6
  | answered _ => 5
  | received _ => 4
  | claimed _ => 3
  | refused _ => 2
  | settled | ending _ => 1
  | finished => 0

end MatchStage

/-! ### Courses -/

namespace Matching

/-- The units that wait. -/
def queue (c : Matching) : List QueueEntry := c.state.exchange.backplane.queue

/-- What others can do to a worker between two of its acts: anything but queue units. What matching
has come to is the worker's own. -/
structure Undergoes (c c' : Matching) : Prop where
  stage : c'.stage = c.stage
  queue : c'.queue.length ≤ c.queue.length

/-- Some acts, one after the other, with others acting in between. -/
inductive Course : Matching → List MatchAct → Matching → Prop
  | nil (c : Matching) : Course c [] c
  | act {c c' c'' : Matching} {act : MatchAct} {acts : List MatchAct}
    (step : c.step? = some (act, c')) (rest : Course c' acts c'') : Course c (act :: acts) c''
  | others {c c' c'' : Matching} {acts : List MatchAct} (undergoes : c.Undergoes c')
    (rest : Course c' acts c'') : Course c acts c''

variable {c c' c'' : Matching} {act : MatchAct} {acts : List MatchAct} {m m' : Match}

/-- Acts between which others do nothing are a course. -/
theorem Path.course (path : Path c acts c') : Course c acts c' := by
  induction path with
  | nil => exact .nil _
  | cons step _ ih => exact .act step ih

end Matching

/-! ### What an act uses up -/

theorem Exchange.Waits.queue {x y : Exchange} (h : x.Waits y) :
    y.backplane.queue = x.backplane.queue := by
  obtain ⟨_, _, backplane⟩ := h.backplane
  rw [backplane]

theorem Match.queue_reject (m : Match) (e : QueueEntry) :
    (m.reject e).2.exchange.backplane.queue = m.exchange.backplane.queue := by
  unfold reject Backplane.reject
  dsimp only
  split
  · rfl
  · rfl

namespace Matching

variable {c c' c'' : Matching} {act : MatchAct} {acts : List MatchAct} {m m' : Match}

/-- What an act uses up. What the round has used up goes into the pause behind it, so a pause is
paid for by a unit or by a refusal. -/
structure Spends (c : Matching) (act : MatchAct) (c' : Matching) : Prop where
  stock : c'.queue.length + c'.stage.used + (if act.isPause then 1 else 0) ≤
    c.queue.length + c.stage.used + (if act.refusesIdle then 1 else 0)
  left : c'.stage.left + 1 ≤ c.stage.left + 8 * (if act.isPause then 1 else 0)

/-- An act that leaves the queue alone. -/
theorem Spends.of_queue {stage next : MatchStage}
    (queue : m'.exchange.backplane.queue = m.exchange.backplane.queue)
    (used : next.used + (if act.isPause then 1 else 0) ≤
      stage.used + (if act.refusesIdle then 1 else 0))
    (left : next.left + 1 ≤ stage.left + 8 * (if act.isPause then 1 else 0)) :
    Spends ⟨stage, m⟩ act ⟨next, m'⟩ := by
  refine ⟨?_, left⟩
  have same : (Matching.mk next m').queue.length = (Matching.mk stage m).queue.length :=
    congrArg List.length queue
  rw [same]
  dsimp only
  omega

/-- A refusal of idleness pays for the next round. -/
theorem offer_spends {answer : Dispatched} (offers : offer m none .settled = (act, c')) :
    Spends ⟨.received answer, m⟩ act c' := by
  have waits := (m.waits_ask none).queue
  unfold offer at offers
  generalize m.ask none = asked at offers waits
  obtain ⟨taken, m₁⟩ := asked
  cases offers
  cases taken with
  | true => exact .of_queue waits (Nat.zero_le _) (Nat.le_of_ble_eq_true rfl)
  | false => exact .of_queue waits (Nat.le_add_left _ _) (Nat.le_of_ble_eq_true rfl)

/-- A unit that is given back or dropped pays for the next round. -/
theorem deal_spends (e : QueueEntry) (deals : deal m e = (act, c')) :
    Spends ⟨.received (.ok (some e)), m⟩ act c' := by
  unfold deal at deals
  split at deals
  · have back := m.queue_reject e
    generalize m.reject e = returned at deals back
    obtain ⟨_ | _, m₁⟩ := returned
    next f =>
      cases deals
      cases f.isUnavailable with
      | true => exact .of_queue back (Nat.le_refl 1) (Nat.le_of_ble_eq_true rfl)
      | false => exact .of_queue back (Nat.zero_le _) (Nat.le_of_ble_eq_true rfl)
    next =>
      cases deals
      exact .of_queue back (Nat.le_refl 1) (Nat.le_of_ble_eq_true rfl)
  · split at deals
    · cases deals
      exact .of_queue rfl (Nat.le_refl 1) (Nat.le_of_ble_eq_true rfl)
    · cases deals
      exact .of_queue rfl (Nat.zero_le _) (Nat.le_of_ble_eq_true rfl)

/-- The unit that the backplane hands out leaves the queue. -/
theorem answer_spends (m : Match) :
    Spends ⟨.waiting, m⟩ (.answered m.dispatch.1) ⟨.answered m.dispatch.1, m.dispatch.2⟩ := by
  obtain ⟨x, waits, answer, -, exchange⟩ := m.dispatch_eq
  have handed := Match.length_dispatch x.backplane
  rw [waits.queue, ← answer] at handed
  have queue : m.dispatch.2.exchange.backplane.queue = x.backplane.dispatch.2.queue := by
    rw [exchange]
  rw [← queue] at handed
  exact ⟨Nat.le_of_eq handed, Nat.le_refl 6⟩

/-- An act spends from the queue, the refusals and the round. -/
theorem step_spends (step : c.step? = some (act, c')) : Spends c act c' := by
  obtain ⟨stage, m⟩ := c
  cases stage with
  | ready =>
      simp only [step?] at step
      split at step
      · cases step
        exact .of_queue rfl (Nat.zero_le _) (Nat.le_of_ble_eq_true rfl)
      · cases step
        exact .of_queue (m.waits_tell _).queue (Nat.le_refl 0) (Nat.le_refl 8)
  | begun =>
      simp only [step?] at step
      split at step
      · cases step
        exact .of_queue (m.waits_tell _).queue (Nat.le_refl 0) (Nat.le_of_ble_eq_true rfl)
      · cases step
        exact .of_queue m.waits_wait.queue (Nat.le_refl 0) (Nat.le_refl 7)
  | waiting =>
      simp only [step?] at step
      split at step
      · cases step
        exact .of_queue (m.waits_tell _).queue (Nat.le_refl 0) (Nat.le_of_ble_eq_true rfl)
      · cases step
        exact answer_spends m
  | answered answer =>
      cases step
      exact .of_queue (m.waits_tell _).queue (Nat.le_refl _) (Nat.le_refl 5)
  | received answer =>
      obtain f | _ | e := answer
      · simp only [step?] at step
        split at step
        · cases step
          exact .of_queue rfl (Nat.zero_le _) (Nat.le_of_ble_eq_true rfl)
        · split at step
          · cases step
            exact .of_queue rfl (Nat.zero_le _) (Nat.le_of_ble_eq_true rfl)
          · exact offer_spends (Option.some.inj step)
      · simp only [step?] at step
        split at step
        · cases step
          exact .of_queue rfl (Nat.zero_le _) (Nat.le_of_ble_eq_true rfl)
        · exact offer_spends (Option.some.inj step)
      · simp only [step?] at step
        split at step
        · cases step
          exact .of_queue (m.queue_reject e) (Nat.zero_le _) (Nat.le_of_ble_eq_true rfl)
        · exact deal_spends e (Option.some.inj step)
  | claimed e =>
      have waits := (m.waits_ask (some e)).queue
      simp only [step?, offer] at step
      generalize m.ask (some e) = asked at step waits
      obtain ⟨taken, m₁⟩ := asked
      cases step
      cases taken with
      | true => exact .of_queue waits (Nat.zero_le _) (Nat.le_of_ble_eq_true rfl)
      | false => exact .of_queue waits (Nat.zero_le _) (Nat.le_refl 3)
  | refused e =>
      cases step
      exact .of_queue (Exchange.queue_requeue _ _) (Nat.le_refl 0) (Nat.le_refl 2)
  | settled =>
      cases step
      exact .of_queue (Exchange.queue_waitUntil _ _) (Nat.le_refl 1) (Nat.le_refl 9)
  | ending result =>
      cases step
      exact .of_queue rfl (Nat.le_refl 0) (Nat.le_refl 1)
  | finished => cases step

/-- Rounds are paid for by the units that wait and by the refusals of idleness. -/
theorem Course.stock (course : Course c acts c') :
    c'.queue.length + c'.stage.used + acts.countP MatchAct.isPause ≤
      c.queue.length + c.stage.used + MatchAct.refusals acts := by
  unfold MatchAct.refusals
  induction course with
  | nil => exact Nat.le_refl _
  | act step _ ih =>
      have spent := (step_spends step).stock
      rw [List.countP_cons, List.countP_cons]
      omega
  | others undergoes _ ih =>
      have queue := undergoes.queue
      rw [undergoes.stage] at ih
      omega

/-- A round is at most eight acts, the pause behind it included. -/
theorem Course.left (course : Course c acts c') :
    c'.stage.left + acts.length ≤ c.stage.left + 8 * acts.countP MatchAct.isPause := by
  induction course with
  | nil => exact Nat.le_refl _
  | act step _ ih =>
      have spent := (step_spends step).left
      rw [List.countP_cons, List.length_cons]
      omega
  | others undergoes _ ih =>
      rw [undergoes.stage] at ih
      exact ih

/-! ### Where matching ends -/

/-- As long as matching has not ended there is an act to do. -/
theorem finished_of_step? (stuck : c.step? = none) : c.stage = .finished := by
  obtain ⟨stage, m⟩ := c
  cases stage with
  | finished => rfl
  | received answer => obtain _ | _ | _ := answer <;> cases stuck
  | _ => cases stuck

/-- Only an end finishes matching. -/
theorem Does.ended (does : c.Does act c') (finished : c'.stage = .finished) :
    ∃ result, act = .ended result := by
  cases does with
  | ends result => exact ⟨result, rfl⟩
  | @idles _ _ _ taken => cases taken <;> cases finished
  | @offers _ _ _ taken => cases taken <;> cases finished
  | returns goes =>
      obtain settled | ⟨_, ending⟩ := goes
      · cases settled.symm.trans finished
      · cases ending.symm.trans finished
  | _ => cases finished

/-- Nothing is done when matching has ended. -/
theorem Course.nil_of_finished (course : Course c acts c') (finished : c.stage = .finished) :
    acts = [] := by
  induction course with
  | nil => rfl
  | @act c _ _ _ _ step _ _ =>
      obtain ⟨stage, m⟩ := c
      cases finished
      cases step
  | others undergoes _ ih => exact ih (undergoes.stage.trans finished)

/-- The last act of matching is its end. -/
theorem Course.ended (course : Course c acts c') (unfinished : c.stage ≠ .finished)
    (finished : c'.stage = .finished) : ∃ before result, acts = before ++ [.ended result] := by
  induction course with
  | nil => exact (unfinished finished).elim
  | @act c c₁ _ act acts step rest ih =>
      by_cases now : c₁.stage = .finished
      · obtain ⟨result, rfl⟩ := (step_does step).ended now
        rw [rest.nil_of_finished now]
        exact ⟨[], result, rfl⟩
      · obtain ⟨before, result, rfl⟩ := ih now finished
        exact ⟨act :: before, result, rfl⟩
  | others undergoes _ ih =>
      exact ih (fun now => unfinished (undergoes.stage.symm.trans now)) finished

end Matching

namespace Match

/-- **Matching ends.** However often the backplane fails, and whatever others do between two acts as
long as they queue nothing, matching begins at most one round for each unit that waits, one for each
refusal of idleness, and one more. The acts of a round are eight at most, and where none is left
matching has ended with a result. A run is such a course. -/
theorem run_returns (m : Match) (r : Nat) :
    (∀ acts c, Matching.Course ⟨.ready, m⟩ acts c → MatchAct.refusals acts ≤ r →
      MatchAct.rounds acts ≤ m.exchange.backplane.queue.length + r + 1 ∧
      acts.length ≤ 8 * (m.exchange.backplane.queue.length + r + 1) ∧
      (c.step? = none → ∃ before result, acts = before ++ [.ended result])) ∧
    ∃ acts, Matching.Path ⟨.ready, m⟩ (acts ++ [.ended m.run.1]) ⟨.finished, m.run.2⟩ ∧
      (MatchAct.refusals acts ≤ r →
        MatchAct.rounds acts ≤ m.exchange.backplane.queue.length + r + 1) := by
  have bound (acts : List MatchAct) (c : Matching) (course : Matching.Course ⟨.ready, m⟩ acts c)
      (few : MatchAct.refusals acts ≤ r) :
      acts.countP MatchAct.isPause ≤ m.exchange.backplane.queue.length + r := by
    have stock : _ ≤ m.exchange.backplane.queue.length + 0 + MatchAct.refusals acts := course.stock
    omega
  refine ⟨fun acts c course few => ?_, ?_⟩
  · have pauses := bound acts c course few
    have left : _ ≤ 8 + 8 * acts.countP MatchAct.isPause := course.left
    refine ⟨Nat.succ_le_succ pauses, by omega, fun stuck => ?_⟩
    exact course.ended nofun (Matching.finished_of_step? stuck)
  · obtain ⟨acts, path⟩ := run_leads m
    refine ⟨acts, path, fun few => Nat.succ_le_succ ?_⟩
    have pauses := bound _ _ path.course
    -- An end is neither a pause nor a refusal.
    rw [MatchAct.refusals, List.countP_append, List.countP_append] at pauses
    exact pauses few

/-- A listener that refuses idleness once, and a backplane that cannot be reached. -/
def sampleOutage : Match :=
  { platform := {}, listener := { answers := [false] },
    exchange := { backplane := { dispatchFailures := [⟨.unavailable, "lost"⟩] } } }

/-- Two rounds in which the backplane cannot be reached. -/
def sampleOutage.acts : List MatchAct :=
  let round (taken : Bool) : List MatchAct :=
    [.told .waitStart, .asked, .answered (.error ⟨.unavailable, "lost"⟩), .told .waitEnd,
      .offered none taken]
  round false ++ [.paused] ++ round true ++ [.ended (.ok ())]

/-- In the pause the backplane is made to fail once more, and that costs no further round. -/
theorem sampleOutage_returns :
    ∃ z, Matching.Course ⟨.ready, sampleOutage⟩ sampleOutage.acts ⟨.finished, z⟩ ∧
      MatchAct.refusals sampleOutage.acts ≤ 1 ∧ MatchAct.rounds sampleOutage.acts ≤ 0 + 1 + 1 ∧
      ∃ before result, sampleOutage.acts = before ++ [.ended result] := by
  let again : Match := { sampleOutage with listener := {} }
  have others (m : Match) : Matching.Undergoes ⟨.ready, m⟩ ⟨.ready, again⟩ :=
    ⟨rfl, Nat.zero_le _⟩
  have course : Matching.Course ⟨.ready, sampleOutage⟩ sampleOutage.acts ⟨.finished, _⟩ :=
    .act rfl (.act rfl (.act rfl (.act rfl (.act rfl (.act rfl (.others (others _)
      (.act rfl (.act rfl (.act rfl (.act rfl (.act rfl (.act rfl (.nil _)))))))))))))
  have few : MatchAct.refusals sampleOutage.acts ≤ 1 := by decide
  obtain ⟨rounds, -, ends⟩ := (run_returns sampleOutage 1).1 _ _ course few
  exact ⟨_, course, few, rounds, ends rfl⟩

end Match

end BuildWorker
