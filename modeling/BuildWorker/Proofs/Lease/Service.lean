import BuildWorker.Proofs.Lease.History

/-!
# Waiting, as a history

When the clock of a roster stands at an instant, every arm that is due gets its turns before the
clock goes on, and an arm that has had its turns is not due any more: it rests for some time, or an
answer is still under way, or it has ended (`Roster.settled_turns`). So between two instants no arm
wants a turn (`Exchange.Served`), which is why the clock may go on from one to the next.

`Exchange.Proceeds` says that something is done in moves and leaves every arm served. It holds of
all that an exchange does, and tells the acts that are noted besides the renewals.
-/

namespace BuildWorker

theorem Arm.due?_of_ended {ε : Type} {a : Arm ε} (ended : a.phase = .ended) : a.due? = none := by
  rw [due?, renewalDue?, ended]
  rfl

/-- A live arm wants a turn at its deadline or for its renewal, whichever is first. -/
theorem Arm.due?_eq_some_iff {ε : Type} {a : Arm ε} {d : Nat} :
    a.due? = some d ↔ ∃ renewal, a.renewalDue? = some renewal ∧ min a.deadline renewal = d := by
  rw [due?, Option.map_eq_some_iff]

namespace Roster

variable {ε σ : Type} {r : Roster ε}

/-! ### Turns at an instant -/

/-- The arm at a position wants no turn yet. -/
def Settled (r : Roster ε) (i : Nat) : Prop :=
  ∀ a d, r.arms[i]? = some a → a.due? = some d → r.now < d

/-- The arm at a position wants no turn for its renewal yet. -/
def Renewed (r : Roster ε) (i : Nat) : Prop :=
  ∀ a d, r.arms[i]? = some a → a.renewalDue? = some d → r.now < d

/-- What fails has ended, and other arms stay. -/
theorem getElem?_fail {i j : Nat} {b : Arm ε} (found : (r.fail i).arms[j]? = some b) :
    b.phase = .ended ∨ i ≠ j ∧ r.arms[j]? = some b := by
  by_cases same : i = j
  · subst same
    left
    unfold fail at found
    split at found
    next gone =>
      rw [gone] at found
      cases found
    next a there =>
      split at found
      · dsimp only at found
        rw [List.getElem?_set_self (List.getElem?_eq_some_iff.1 there).1] at found
        cases found
        rfl
      next ended =>
        obtain rfl : a = b := Option.some.inj (there.symm.trans found)
        rw [Arm.isLive, bne_iff_ne, not_not] at ended
        exact ended
  · right
    refine ⟨same, ?_⟩
    unfold fail at found
    split at found
    · exact found
    · split at found
      · exact (List.getElem?_set_ne same).symm.trans found
      · exact found

theorem Settled.fail {i : Nat} (h : r.Settled i) (j : Nat) : (r.fail j).Settled i := by
  intro b d found due
  rcases getElem?_fail found with ended | ⟨-, found⟩
  · rw [Arm.due?_of_ended ended] at due
    cases due
  · rw [now_fail]
    exact h b d found due

theorem Renewed.fail {i : Nat} (h : r.Renewed i) (j : Nat) : (r.fail j).Renewed i := by
  intro b d found due
  rcases getElem?_fail found with ended | ⟨-, found⟩
  · rw [Arm.renewalDue?, ended] at due
    cases due
  · rw [now_fail]
    exact h b d found due

/-- An arm that has its answer rests first. -/
theorem renewed_answer {i : Nat} {a : Arm ε} (inside : i < r.arms.length) (status : LeaseStatus) :
    (r.answer i a status).Renewed i := by
  have rests : Renewed { r with arms := r.arms.set i { a with phase := .resting r.now } } i := by
    intro b d found due
    rw [List.getElem?_set_self inside] at found
    cases found
    cases due
    exact Nat.lt_add_of_pos_right (Nat.lt_of_lt_of_le Nat.one_pos (Nat.le_max_left 1 a.period))
  unfold answer
  dsimp only
  split
  · exact rests.fail i
  · exact rests

/-- After its turn for a renewal, an arm wants none yet. -/
theorem renewed_turn (ask : Asking ε σ) (i : Nat) (r : Roster ε) (s : σ) :
    (r.turn ask ⟨i, .renewal⟩ s).1.Renewed i := by
  unfold turn
  cases there : r.arms[i]? with
  | none =>
      intro b d found
      rw [there] at found
      cases found
  | some a =>
      have inside := (List.getElem?_eq_some_iff.1 there).1
      have early (d : Nat) (at? : a.renewalDue? = some d) (before : r.now < d) : r.Renewed i := by
        intro b d' found due
        obtain rfl : a = b := Option.some.inj (there.symm.trans found)
        rw [at?] at due
        cases due
        exact before
      dsimp only
      cases phase : a.phase with
      | ended =>
          intro b d found due
          obtain rfl : a = b := Option.some.inj (there.symm.trans found)
          rw [Arm.renewalDue?, phase] at due
          cases due
      | resting since =>
          dsimp only
          split
          next before => exact early _ (by rw [Arm.renewalDue?, phase]) before
          · split
            · exact renewed_answer inside _
            next delayed =>
              intro b d found due
              rw [List.getElem?_set_self inside] at found
              cases found
              cases due
              exact Nat.lt_add_of_pos_right (Nat.pos_of_ne_zero delayed)
      | asking since arrival status =>
          dsimp only
          split
          next before => exact early _ (by rw [Arm.renewalDue?, phase]) before
          · exact renewed_answer inside _

/-- After both of its turns, an arm wants none yet. -/
theorem settled_expiry (ask : Asking ε σ) {i : Nat} {r : Roster ε} (h : r.Renewed i) (s : σ) :
    (r.turn ask ⟨i, .expiry⟩ s).1.Settled i := by
  unfold turn
  cases there : r.arms[i]? with
  | none =>
      intro b d found
      rw [there] at found
      cases found
  | some a =>
      have stays (before : r.now < a.deadline) : r.Settled i := by
        intro b d found due
        obtain rfl : a = b := Option.some.inj (there.symm.trans found)
        obtain ⟨renewal, renews, rfl⟩ := Arm.due?_eq_some_iff.1 due
        exact Nat.lt_min.2 ⟨before, h a renewal there renews⟩
      have expires : (if a.deadline ≤ r.now then r.fail i else r).Settled i := by
        split
        · intro b d found due
          rcases getElem?_fail found with ended | ⟨other, -⟩
          · rw [Arm.due?_of_ended ended] at due
            cases due
          · exact absurd rfl other
        next before => exact stays (Nat.lt_of_not_le before)
      dsimp only
      cases phase : a.phase with
      | ended =>
          intro b d found due
          obtain rfl : a = b := Option.some.inj (there.symm.trans found)
          rw [Arm.due?_of_ended phase] at due
          cases due
      | resting | asking => exact expires

/-- A turn that comes too early does nothing. -/
theorem Settled.turn {i : Nat} (h : r.Settled i) (ask : Asking ε σ) (t : Turn) (s : σ) :
    (r.turn ask t s).1.Settled i := by
  by_cases other : t.position = i
  · subst other
    have idle : (r.turn ask t s).1 = r := by
      unfold Roster.turn
      cases there : r.arms[t.position]? with
      | none => rfl
      | some a =>
          have early (renewal : Nat) (at? : a.renewalDue? = some renewal) :
              r.now < a.deadline ∧ r.now < renewal :=
            Nat.lt_min.1 (h a _ there (Arm.due?_eq_some_iff.2 ⟨renewal, at?, rfl⟩))
          obtain ⟨position, task⟩ := t
          dsimp only
          cases phase : a.phase with
          | ended => rfl
          | resting since =>
              obtain ⟨deadline, renewal⟩ := early _ (by rw [Arm.renewalDue?, phase])
              cases task with
              | renewal => exact congrArg Prod.fst (if_pos renewal)
              | expiry => exact if_neg (Nat.not_le.2 deadline)
          | asking since arrival status =>
              obtain ⟨deadline, renewal⟩ := early _ (by rw [Arm.renewalDue?, phase])
              cases task with
              | renewal => exact if_pos renewal
              | expiry => exact if_neg (Nat.not_le.2 deadline)
    rw [idle]
    exact h
  · intro a d found due
    rw [(spares_turn other r s).arm] at found
    rw [now_turn]
    exact h a d found due

theorem Settled.turns {i : Nat} (h : r.Settled i) (ask : Asking ε σ) (ts : List Turn) (s : σ) :
    (r.turns ask ts s).1.Settled i := by
  induction ts generalizing r s with
  | nil => exact h
  | cons t ts ih => exact ih (h.turn ask t s) _

/-- Once the arms at some positions have had their turns, they are settled. -/
theorem settled_flatMap (ask : Asking ε σ) (positions : List Nat) (r : Roster ε) (s : σ) :
    ∀ i ∈ positions, (r.turns ask
      (positions.flatMap fun i => [⟨i, .renewal⟩, ⟨i, .expiry⟩]) s).1.Settled i := by
  induction positions generalizing r s with
  | nil => exact nofun
  | cons j positions ih =>
      intro i mem
      rcases List.mem_cons.1 mem with rfl | mem
      · exact (settled_expiry ask (renewed_turn ask i r s) _).turns ask _ _
      · exact ih _ _ i mem

/-- **After everybody's turns, nobody wants one.** -/
theorem settled_turns (ask : Asking ε σ) (r : Roster ε) (s : σ) (i : Nat) :
    (r.turns ask r.inTurn s).1.Settled i := by
  by_cases inside : i < r.arms.length
  · exact settled_flatMap ask _ r s i (List.mem_range.2 inside)
  · intro a d found
    have inside' := (List.getElem?_eq_some_iff.1 found).1
    rw [(steps_turns ask r.inTurn r s).length_eq] at inside'
    exact absurd inside' inside

/-- The next instant is not after that at which an arm wants a turn. -/
theorem nextDue_le {i d : Nat} {a : Arm ε}
    (found : r.arms[i]? = some a) (due : a.due? = some d) :
    ∃ next, r.nextDue? = some next ∧ next ≤ d := by
  have mem : d ∈ r.arms.filterMap Arm.due? :=
    List.mem_filterMap.2 ⟨a, List.mem_of_getElem? found, due⟩
  cases next : r.nextDue? with
  | none =>
      rw [Roster.nextDue?, List.min?_eq_none_iff] at next
      rw [next] at mem
      cases mem
  | some next' => exact ⟨next', rfl, (List.min?_eq_some_iff.1 next).2 d mem⟩

/-! ### Starting and calling off -/

theorem Settled.pause {i : Nat} (h : r.Settled i) (holder : String) :
    (r.pause holder).Settled i := by
  intro b d found due
  rw [Roster.pause, List.getElem?_map, Option.map_eq_some_iff] at found
  obtain ⟨a, there, rfl⟩ := found
  split at due
  · rw [Arm.due?_of_ended rfl] at due
    cases due
  · exact h a d there due

/-- An arm that is started has time until its first renewal, unless it is late already and fails. -/
theorem settled_resume (h : ∀ i, r.Settled i) (holder : String) (period deadline : Nat)
    (watched : Bool) (errand : ε) (i : Nat) :
    (r.resume holder period deadline watched errand).Settled i := by
  have old (other : r.arms.length ≠ i) :
      (r.start holder period deadline watched errand).Settled i := by
    intro a d found due
    have inside := (List.getElem?_eq_some_iff.1 found).1
    rw [length_start] at inside
    have before : i < (r.pause holder).arms.length := by
      rw [length_pause]
      omega
    rw [start, List.getElem?_append_left before] at found
    exact (h i).pause holder a d found due
  unfold resume look
  rw [getElem?_start_length]
  dsimp only
  split
  · by_cases new : r.arms.length = i
    · subst new
      intro a d found due
      rcases getElem?_fail found with ended | ⟨other, -⟩
      · rw [Arm.due?_of_ended ended] at due
        cases due
      · exact absurd rfl other
    · exact (old new).fail _
  next timely =>
    by_cases new : r.arms.length = i
    · subst new
      intro a d found due
      rw [getElem?_start_length] at found
      cases found
      cases due
      rw [Bool.or_eq_true, not_or, decide_eq_true_eq, Nat.not_le] at timely
      refine Nat.lt_min.2 ⟨timely.2, ?_⟩
      exact Nat.lt_add_of_pos_right (Nat.lt_of_lt_of_le Nat.one_pos (Nat.le_max_left 1 period))
    · exact old new

/-- In what phase an arm takes its answer does not matter. -/
theorem answer_set (r : Roster ε) (i : Nat) (a : Arm ε) (phase : Phase) (status : LeaseStatus) :
    Roster.answer { r with arms := r.arms.set i { a with phase } } i { a with phase } status =
      r.answer i a status := by
  unfold answer
  dsimp only
  rw [List.set_set]

end Roster

namespace Exchange

/-! ### Moves that a task makes -/

section

variable {allowed : Exchange → Nat → LeaseErrand → Prop} {x y z : Exchange}
  {acts acts' : List LeaseEvent}

/-- Something is done in moves. They are noted by some acts, and by the renewals that arms ask for
meanwhile. -/
def Reaches (allowed : Exchange → Nat → LeaseErrand → Prop) (x : Exchange)
    (acts : List LeaseEvent) (y : Exchange) : Prop :=
  ∃ events, Course allowed x events y ∧ events.filter LeaseEvent.isAct = acts

theorem Reaches.refl (x : Exchange) : Reaches allowed x [] x := ⟨[], ⟨.start, trivial, rfl⟩, rfl⟩

theorem Reaches.append (h : Reaches allowed x acts y) (h' : Reaches allowed y acts' z) :
    Reaches allowed x (acts ++ acts') z := by
  obtain ⟨_, course, rfl⟩ := h
  obtain ⟨_, course', rfl⟩ := h'
  exact ⟨_, course.trans course', List.filter_append ..⟩

theorem Reaches.trans (h : Reaches allowed x [] y) (h' : Reaches allowed y acts z) :
    Reaches allowed x acts z := h.append h'

theorem Move.reaches (move : Move allowed x [] y)
    (left : y.backplane.pollAnswers = x.backplane.pollAnswers) : Reaches allowed x [] y :=
  ⟨[], move.course left, rfl⟩

/-- An answer is taken, and a refusal fails the arm. -/
theorem answer_reaches {i : Nat} {a : Arm LeaseErrand} {since arrival : Nat} {status : LeaseStatus}
    (there : x.roster.arms[i]? = some a) (asking : a.phase = .asking since arrival status)
    (arrived : arrival ≤ x.now) :
    Reaches allowed x [] { x with roster := x.roster.answer i a status } := by
  have rests : Reaches allowed x [] _ := (Move.answer there asking arrived).reaches rfl
  unfold Roster.answer
  dsimp only
  split
  · exact rests.trans ((Move.fail i).reaches rfl)
  · exact rests

/-- The exchange after a turn. -/
def turn (x : Exchange) (t : Turn) : Exchange :=
  let (roster, backplane) := x.roster.turn LeaseErrand.ask t x.backplane
  { x with roster, backplane }

/-- A turn is made of moves. -/
theorem turn_reaches (x : Exchange) (t : Turn) : Reaches allowed x [] (x.turn t) := by
  unfold turn Roster.turn
  split
  next roster backplane eq =>
  split at eq
  · cases eq
    exact .refl x
  next a there =>
    split at eq
    · cases eq
      exact .refl x
    · cases eq
      split
      · exact (Move.fail t.position).reaches rfl
      · exact .refl x
    next since resting =>
      split at eq
      · cases eq
        exact .refl x
      next rested =>
        rcases polled : x.backplane.poll a.errand.entry a.errand.stage a.errand.timeout x.now
          with ⟨answer, b⟩
        have asked : LeaseErrand.ask x.roster.now a.errand x.backplane =
            (answer.attempt a.errand.timeout, a.errand, b) := by
          rw [LeaseErrand.ask, show x.roster.now = x.now from rfl, polled]
        have asks : Reaches allowed x [] _ :=
          ⟨_, course_ask there resting (Nat.le_of_not_lt rested) polled, rfl⟩
        rw [asked] at eq
        dsimp only at eq
        split at eq
        next immediate =>
          cases eq
          rw [← Roster.answer_set]
          refine asks.trans (@answer_reaches _ _ _ _ x.now _ _ ?_ rfl ?_)
          · exact List.getElem?_set_self (List.getElem?_eq_some_iff.1 there).1
          · exact Nat.le_of_eq (congrArg (x.now + ·) immediate)
        · cases eq
          exact asks
    next since arrival status asking =>
      cases eq
      split
      · exact .refl x
      next arrived => exact answer_reaches there asking (Nat.le_of_not_lt arrived)

theorem turns_reaches (ts : List Turn) (x : Exchange) :
    Reaches allowed x [] { x with
      roster := (x.roster.turns LeaseErrand.ask ts x.backplane).1
      backplane := (x.roster.turns LeaseErrand.ask ts x.backplane).2 } := by
  induction ts generalizing x with
  | nil => exact .refl x
  | cons t ts ih => exact (turn_reaches x t).trans (ih (x.turn t))

/-! ### Waiting -/

/-- No arm wants a turn yet. -/
def Served (x : Exchange) : Prop := ∀ i, x.roster.Settled i

theorem served_of_arms_nil (idle : x.roster.arms = []) : x.Served := by
  intro i a d found
  rw [idle] at found
  cases found

/-- Something is done in moves, and if every arm was served before, it is afterwards. -/
def Proceeds (allowed : Exchange → Nat → LeaseErrand → Prop) (x : Exchange)
    (acts : List LeaseEvent) (y : Exchange) : Prop :=
  x.Served → Reaches allowed x acts y ∧ y.Served

theorem Proceeds.refl (x : Exchange) : Proceeds allowed x [] x :=
  fun served => ⟨.refl x, served⟩

theorem Proceeds.append (h : Proceeds allowed x acts y) (h' : Proceeds allowed y acts' z) :
    Proceeds allowed x (acts ++ acts') z := by
  intro served
  obtain ⟨reaches, served⟩ := h served
  obtain ⟨reaches', served⟩ := h' served
  exact ⟨reaches.append reaches', served⟩

theorem Proceeds.trans (h : Proceeds allowed x [] y) (h' : Proceeds allowed y acts z) :
    Proceeds allowed x acts z := h.append h'

/-- Something that leaves the clock and the arms. -/
theorem Course.proceeds {events : List LeaseEvent} (course : Course allowed x events y)
    (now : y.now = x.now) (arms : y.roster.arms = x.roster.arms) :
    Proceeds allowed x (events.filter LeaseEvent.isAct) y := by
  refine fun served => ⟨⟨_, course, rfl⟩, fun i a d found due => ?_⟩
  rw [arms] at found
  have before : x.now < d := served i a d found due
  rw [← now] at before
  exact before

/-- **Time passes in moves.** Whoever waits lets everybody have their turns. -/
theorem advanceTo_proceeds (x : Exchange) (target : Nat) :
    Proceeds allowed x [] (x.advanceTo target) := by
  suffices h : ∀ (r : Roster LeaseErrand) (b : Backplane),
      Proceeds allowed { x with roster := r, backplane := b } [] { x with
        roster := (r.advanceTo LeaseErrand.ask Roster.inTurn target b).1
        backplane := (r.advanceTo LeaseErrand.ask Roster.inTurn target b).2 } from
    h x.roster x.backplane
  intro r b
  fun_induction Roster.advanceTo LeaseErrand.ask Roster.inTurn target r b with
  | case1 r b next before r' served ih =>
      refine Proceeds.trans (fun settled => ?_) ih
      have ticks : Reaches allowed { x with roster := r, backplane := b } []
          { x with roster := r', backplane := b } := by
        refine (Move.clock next ?_ fun i a d found due => ?_).reaches rfl
        · exact Nat.le_trans (Nat.le_succ _) (Nat.le_max_left _ _)
        · obtain ⟨next', eq, le⟩ := Roster.nextDue_le found due
          have after : r.now < d := settled i a d found due
          refine Nat.max_le.2 ⟨after, ?_⟩
          rw [eq]
          exact le
      exact ⟨ticks.trans (turns_reaches _ _), Roster.settled_turns _ r' b⟩
  | case2 r b next before =>
      intro settled
      -- The clock stops before the next instant at which somebody wants a turn.
      have early (i : Nat) (a : Arm LeaseErrand) (d : Nat) (found : r.arms[i]? = some a)
          (due : a.due? = some d) : max r.now target < d := by
        obtain ⟨next', eq, le⟩ := Roster.nextDue_le found due
        have after : r.now < d := settled i a d found due
        have beyond : target < max (r.now + 1) (r.nextDue?.getD (target + 1)) :=
          Nat.lt_of_not_le before
        rw [eq, Option.getD_some] at beyond
        omega
      exact ⟨(Move.clock _ (Nat.le_max_left _ _) fun i a d found due =>
        Nat.le_of_lt (early i a d found due)).reaches rfl, early⟩

theorem look_proceeds (x : Exchange) (i : Nat) :
    Proceeds allowed x [] { x with roster := x.roster.look i } := by
  unfold Roster.look
  split
  · exact .refl x
  · split
    · exact fun served => ⟨(Move.fail i).reaches rfl, fun j => (served j).fail i⟩
    · exact .refl x

theorem interrupt_proceeds (x : Exchange) : Proceeds allowed x [] x.interrupt := by
  have looks (positions : List Nat) (x : Exchange) :
      Proceeds allowed x [] { x with roster := positions.foldl Roster.look x.roster } := by
    induction positions generalizing x with
    | nil => exact .refl x
    | cons i positions ih => exact (look_proceeds x i).trans (ih _)
  have signalled : Course allowed x [] _ := (Move.signal true none).course rfl
  exact (signalled.proceeds rfl rfl).trans (looks _ _)

theorem waitUntil_proceeds (x : Exchange) (target : Nat) :
    Proceeds allowed x [] (x.waitUntil target) := by
  unfold waitUntil
  split
  · exact advanceTo_proceeds x target
  · split
    · exact (advanceTo_proceeds x _).trans (interrupt_proceeds _)
    · exact advanceTo_proceeds x target

theorem pass_proceeds (x : Exchange) (ms : Nat) : Proceeds allowed x [] (x.pass ms) :=
  (waitUntil_proceeds x _).trans (advanceTo_proceeds _ _)

theorem pause_proceeds (x : Exchange) (holder : String) :
    Proceeds allowed x [] { x with roster := x.roster.pause holder } :=
  fun served => ⟨(Move.pause holder).reaches rfl, fun i => (served i).pause holder⟩

theorem resume_proceeds (x : Exchange) (holder : String) (period deadline : Nat) (watched : Bool)
    (errand : LeaseErrand) (may : allowed x period errand) :
    Proceeds allowed x [] { x with
      roster := x.roster.resume holder period deadline watched errand } := by
  intro served
  refine ⟨((Move.start holder period deadline watched errand may).reaches rfl).trans ?_,
    Roster.settled_resume served holder period deadline watched errand⟩
  unfold Roster.resume Roster.look
  rw [Roster.getElem?_start_length]
  dsimp only
  split
  · exact (Move.fail (x := { x with
      roster := x.roster.start holder period deadline watched errand }) _).reaches rfl
  · exact .refl _

end

end Exchange

end BuildWorker
