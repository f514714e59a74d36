import BuildWorker.Proofs.Dispatch.Round

/-!
# Interrupting a worker while it matches

Matching is a sequence of acts: the listener is told of a wait, the backplane is asked and answers,
a unit is given back, dropped, claimed or offered, and so on. `Matching.step?` says which act comes
next and what it does, given what matching has come to (`MatchStage`), and `Match.run_leads` says
that a run is made of these acts.

An interrupt can come during any act. `Match.run_halts` says what is left to do then: nothing but to
end the wait and to give back the unit that was handed out in it, whatever that unit is.
-/

namespace BuildWorker

/-! ### Acts -/

/-- What the backplane says when it is asked for a unit. -/
abbrev Dispatched := Except BackplaneError (Option QueueEntry)

/-- What matching does, act by act. -/
inductive MatchAct
  /-- The listener is told that a wait begins or ends. -/
  | told (n : Notice)
  /-- The backplane is asked for a unit, and the worker waits. -/
  | asked
  | answered (answer : Dispatched)
  | gaveBack (e : QueueEntry)
  /-- A unit of a claimed name is dropped. -/
  | dropped (e : QueueEntry)
  | claimed (e : QueueEntry)
  /-- A unit, or idleness, is offered to the listener. -/
  | offered (unit : Option QueueEntry) (taken : Bool)
  | requeued (e : QueueEntry)
  /-- Others have their turn. -/
  | paused
  | ended (result : Except ExecutionError Unit)

namespace MatchAct

/-- Whether an act asks for a unit, gets an answer, claims or offers. -/
def takesOn : MatchAct → Bool
  | asked | answered _ | claimed _ | offered _ _ => true
  | _ => false

/-- Whether the listener takes idleness. -/
def takesIdle : MatchAct → Bool
  | offered none taken => taken
  | _ => false

/-- The unit that an act gives back. -/
def givenBack? : MatchAct → Option QueueEntry
  | gaveBack e => some e
  | _ => none

/-- What an act leaves of an answer about which nothing was done before. -/
def keeps (answer? : Option Dispatched) : MatchAct → Option Dispatched
  | answered answer => some answer
  | told .waitEnd => answer?
  | _ => none

/-- The answer about which acts have done nothing yet: only a wait that has just had its answer has
one. -/
def answer? (acts : List MatchAct) : Option Dispatched := acts.foldl keeps none

/-- The unit that acts have been handed and have done nothing with yet. -/
def unit? (acts : List MatchAct) : Option QueueEntry := (answer? acts).bind (·.toOption.join)

/-- How matching ends for an interrupted worker. A failure of the backplane comes first, unless it
only means that the backplane cannot be reached. -/
def cutResult : Option Dispatched → Except ExecutionError Unit
  | some (.error f) => if f.isUnavailable then .error .interrupted else .error (.backplane f)
  | _ => .error .interrupted

end MatchAct

/-- What matching has come to between two acts. -/
inductive MatchStage
  /-- A round begins. -/
  | ready
  /-- The listener knows that a wait begins. -/
  | begun
  /-- The backplane was asked. -/
  | waiting
  /-- The backplane has answered. -/
  | answered (answer : Dispatched)
  /-- The listener knows that the wait is over. -/
  | received (answer : Dispatched)
  /-- A unit was claimed. -/
  | claimed (e : QueueEntry)
  /-- A claimed unit was refused. -/
  | refused (e : QueueEntry)
  /-- The round is over, and matching goes on. -/
  | settled
  /-- Matching will end with a result. -/
  | ending (result : Except ExecutionError Unit)
  | finished

/-- Matching between two acts. -/
structure Matching where
  stage : MatchStage
  state : Match

namespace Matching

/-- What is done with a unit, and what matching comes to by it. -/
def deal (m : Match) (e : QueueEntry) : MatchAct × Matching :=
  if !m.platform.satisfies e.platform then
    match m.reject e with
    | (.ok (), m) => (.gaveBack e, ⟨.settled, m⟩)
    | (.error f, m) => (.gaveBack e,
        ⟨if f.isUnavailable then .settled else .ending (.error (.backplane f)), m⟩)
  else
    match m.exchange.registry.insertNew? e with
    | none => (.dropped e, ⟨.settled, m⟩)
    | some registry =>
      (.claimed e, ⟨.claimed e, { m with exchange := { m.exchange with registry } }⟩)

/-- An offer is made. If it is refused, matching comes to a given stage. -/
def offer (m : Match) (unit : Option QueueEntry) (refused : MatchStage) : MatchAct × Matching :=
  let (taken, m) := m.ask unit
  (.offered unit taken, ⟨if taken then .ending (.ok ()) else refused, m⟩)

/-- An interrupted worker ends matching. -/
def stop (m : Match) : MatchAct × Matching := (.ended (.error .interrupted), ⟨.finished, m⟩)

/-- An interrupted worker ends a wait. -/
def cutShort (m : Match) : MatchAct × Matching :=
  (.told .waitEnd, ⟨.ending (.error .interrupted), m.tell .waitEnd⟩)

/-- The next act, and what matching comes to by it. -/
def step? (c : Matching) : Option (MatchAct × Matching) :=
  let m := c.state
  match c.stage with
  | .ready => some (if m.interrupted then stop m
      else (.told .waitStart, ⟨.begun, m.tell .waitStart⟩))
  | .begun => some (if m.interrupted then cutShort m else (.asked, ⟨.waiting, m.wait⟩))
  | .waiting => some (if m.interrupted then cutShort m
      else (.answered m.dispatch.1, ⟨.answered m.dispatch.1, m.dispatch.2⟩))
  | .answered answer => some (.told .waitEnd, ⟨.received answer, m.tell .waitEnd⟩)
  | .received (.error f) => some (
      if !f.isUnavailable then (.ended (.error (.backplane f)), ⟨.finished, m⟩)
      else if m.interrupted then stop m else offer m none .settled)
  | .received (.ok none) => some (if m.interrupted then stop m else offer m none .settled)
  | .received (.ok (some e)) => some (
      if m.interrupted then (.gaveBack e, ⟨.ending (.error .interrupted), (m.reject e).2⟩)
      else deal m e)
  | .claimed e => some (offer m (some e) (.refused e))
  | .refused e => some (.requeued e,
      ⟨.ending (.ok ()), { m with exchange := m.exchange.requeue e.name }⟩)
  | .settled => some (.paused, ⟨.ready, m.pause⟩)
  | .ending result => some (.ended result, ⟨.finished, m⟩)
  | .finished => none

/-- Some acts, one after the other. -/
inductive Path : Matching → List MatchAct → Matching → Prop
  | nil (c : Matching) : Path c [] c
  | cons {c c' c'' : Matching} {act : MatchAct} {acts : List MatchAct}
    (step : c.step? = some (act, c')) (path : Path c' acts c'') : Path c (act :: acts) c''

variable {c c' c'' : Matching} {act : MatchAct} {acts more : List MatchAct} {m z : Match}

theorem Path.append (path : Path c acts c') (path' : Path c' more c'') :
    Path c (acts ++ more) c'' := by
  induction path with
  | nil => exact path'
  | cons step _ ih => exact .cons step (ih path')

/-- Acts follow from what matching has come to, so acts up to some point are the first of all. -/
theorem Path.continues (path : Path c acts c') (whole : Path c more ⟨.finished, z⟩) :
    ∃ rest, more = acts ++ rest ∧ Path c' rest ⟨.finished, z⟩ := by
  induction path generalizing more with
  | nil => exact ⟨more, rfl, whole⟩
  | cons step _ ih =>
      cases whole with
      | nil => cases step
      | cons step' whole =>
          obtain ⟨rfl, rfl⟩ := Prod.mk.inj (Option.some.inj (step.symm.trans step'))
          obtain ⟨rest, rfl, path⟩ := ih whole
          exact ⟨rest, rfl, path⟩

/-! ### A run is made of acts -/

/-- Acts lead to an end with a result, or to the end of a round. -/
def Leads (c : Matching) : Option (Except ExecutionError Unit) × Match → Prop
  | (some result, m) => ∃ acts, Path c (acts ++ [.ended result]) ⟨.finished, m⟩
  | (none, m) => ∃ acts, Path c acts ⟨.settled, m⟩

theorem Leads.step {r : Option (Except ExecutionError Unit) × Match} {next : MatchAct × Matching}
    (step : c.step? = some next) (leads : next.2.Leads r) : c.Leads r := by
  match r, leads with
  | (some _, _), ⟨acts, path⟩ => exact ⟨next.1 :: acts, .cons step path⟩
  | (none, _), ⟨acts, path⟩ => exact ⟨next.1 :: acts, .cons step path⟩

theorem leads_ended {result : Except ExecutionError Unit}
    (step : c.step? = some (.ended result, ⟨.finished, m⟩)) : c.Leads (some result, m) :=
  ⟨[], .cons step (.nil _)⟩

theorem leads_ending (result : Except ExecutionError Unit) (m : Match) :
    Leads ⟨.ending result, m⟩ (some result, m) :=
  leads_ended rfl

theorem leads_settled (m : Match) : Leads ⟨.settled, m⟩ (none, m) := ⟨[], .nil _⟩

theorem leads_idle (m : Match) : (offer m none .settled).2.Leads (m.place none) := by
  rw [offer, Match.place]
  generalize m.ask none = r
  obtain ⟨taken, m'⟩ := r
  cases taken with
  | true => exact leads_ending _ _
  | false => exact leads_settled _

/-- A claimed unit is offered, and requeued if it is refused. -/
theorem leads_claimed (e : QueueEntry) (m : Match) :
    Leads ⟨.claimed e, m⟩ (some (.ok ()), if (m.ask (some e)).1 then (m.ask (some e)).2
      else { (m.ask (some e)).2 with exchange := (m.ask (some e)).2.exchange.requeue e.name }) := by
  have step : (Matching.mk (.claimed e) m).step? = some (offer m (some e) (.refused e)) := rfl
  refine .step step ?_
  unfold offer
  generalize m.ask (some e) = r
  obtain ⟨taken, m'⟩ := r
  cases taken with
  | true => exact leads_ending _ _
  | false => exact .step rfl (leads_ending _ _)

theorem leads_deal (m : Match) (e : QueueEntry) : (deal m e).2.Leads (m.place (some e)) := by
  rw [deal, Match.place]
  split
  · generalize m.reject e = r
    obtain ⟨_ | _, m'⟩ := r
    · dsimp only
      split
      · exact leads_settled _
      · exact leads_ending _ _
    · exact leads_settled _
  · cases m.exchange.registry.insertNew? e with
    | none => exact leads_settled m
    | some registry => exact leads_claimed e _

theorem leads_received (m : Match) (answer : Dispatched) :
    Leads ⟨.received answer, m⟩ (m.receive answer) := by
  unfold Match.receive
  split
  next f =>
    have step : (Matching.mk (.received (.error f)) m).step? = some (
        if !f.isUnavailable then (.ended (.error (.backplane f)), ⟨.finished, m⟩)
        else if m.interrupted then stop m else offer m none .settled) := rfl
    split
    next lost =>
      rw [if_pos lost] at step
      exact leads_ended step
    next unavailable =>
      rw [if_neg unavailable] at step
      split
      next cut =>
        rw [if_pos cut] at step
        exact leads_ended step
      next calm =>
        rw [if_neg calm] at step
        exact .step step (leads_idle m)
  · have step : (Matching.mk (.received (.ok none)) m).step? = some (
        if m.interrupted then stop m else offer m none .settled) := rfl
    split
    next cut =>
      rw [if_pos cut] at step
      exact leads_ended step
    next calm =>
      rw [if_neg calm] at step
      exact .step step (leads_idle m)
  next e =>
    have step : (Matching.mk (.received (.ok (some e))) m).step? = some (
        if m.interrupted then (.gaveBack e, ⟨.ending (.error .interrupted), (m.reject e).2⟩)
        else deal m e) := rfl
    split
    next cut =>
      rw [if_pos cut] at step
      exact .step step (leads_ending _ _)
    next calm =>
      rw [if_neg calm] at step
      exact .step step (leads_deal m e)

theorem leads_waiting (m : Match) : Leads ⟨.waiting, m⟩ (
    if m.interrupted then (some (.error .interrupted), m.tell .waitEnd)
    else (m.dispatch.2.tell .waitEnd).receive m.dispatch.1) := by
  have step : (Matching.mk .waiting m).step? = some (if m.interrupted then cutShort m
      else (.answered m.dispatch.1, ⟨.answered m.dispatch.1, m.dispatch.2⟩)) := rfl
  split
  next cut =>
    rw [if_pos cut] at step
    exact .step step (leads_ending _ _)
  next calm =>
    rw [if_neg calm] at step
    exact .step step (.step rfl (leads_received _ _))

/-- A round is made of acts. -/
theorem leads_round (m : Match) : Leads ⟨.ready, m⟩ m.round := by
  have step : (Matching.mk .ready m).step? = some (if m.interrupted then stop m
      else (.told .waitStart, ⟨.begun, m.tell .waitStart⟩)) := rfl
  unfold Match.round
  split
  next cut =>
    rw [if_pos cut] at step
    exact leads_ended step
  next calm =>
    rw [if_neg calm] at step
    refine .step step ?_
    dsimp only
    generalize m.tell .waitStart = m
    have step : (Matching.mk .begun m).step? = some (
        if m.interrupted then cutShort m else (.asked, ⟨.waiting, m.wait⟩)) := rfl
    cases cut : m.interrupted with
    | true =>
        rw [cut, if_pos rfl] at step
        rw [if_pos rfl, cut, if_pos rfl]
        exact .step step (leads_ending _ _)
    | false =>
        rw [cut, if_neg Bool.false_ne_true] at step
        rw [if_neg Bool.false_ne_true]
        exact .step step (leads_waiting _)

end Matching

namespace Match

variable {m : Match}

/-- **A run is made of acts.** -/
theorem run_leads (m : Match) :
    ∃ acts, Matching.Path ⟨.ready, m⟩ (acts ++ [.ended m.run.1]) ⟨.finished, m.run.2⟩ := by
  have round (m : Match) : Matching.Leads ⟨.ready, m⟩ m.round := Matching.leads_round m
  induction m using run_induction with
  | ends m result m' ended =>
      have leads := round m
      rw [ended] at leads
      rw [run_ends ended]
      exact leads
  | goes m next going ih =>
      have leads := round m
      rw [going] at leads
      rw [run_goes going]
      obtain ⟨acts, path⟩ := leads
      obtain ⟨more, path'⟩ := ih
      refine ⟨acts ++ .paused :: more, ?_⟩
      rw [List.append_assoc]
      exact path.append (.cons rfl path')

end Match

/-! ### After an interrupt -/

/-- Who waits gives nothing back. -/
theorem Exchange.Waits.rejectCalls {x y : Exchange} (h : x.Waits y) :
    y.backplane.rejectCalls = x.backplane.rejectCalls := by
  obtain ⟨_, _, backplane⟩ := h.backplane
  rw [backplane]

namespace MatchStage

/-- The answer about which nothing was done yet. -/
def answer? : MatchStage → Option Dispatched
  | answered answer | received answer => some answer
  | _ => none

/-- The unit with which nothing was done yet. -/
def unit? (s : MatchStage) : Option QueueEntry := s.answer?.bind (·.toOption.join)

/-- Whether a unit is about to be offered, or was. -/
def isOffering : MatchStage → Bool
  | claimed _ | refused _ | finished => true
  | _ => false

/-- How an interrupted worker gets out of a wait or of a round. -/
def leaving : MatchStage → List MatchAct
  | begun | waiting | answered _ => [.told .waitEnd]
  | settled => [.paused]
  | _ => []

/-- What an interrupted worker does before it ends matching. -/
def closing (s : MatchStage) : List MatchAct := s.leaving ++ s.unit?.toList.map .gaveBack

theorem takesOn_closing (s : MatchStage) : ∀ a ∈ s.closing, a.takesOn = false := by
  intro a mem
  rcases List.mem_append.1 mem with mem | mem
  · cases s with
    | begun | waiting | answered | settled =>
        rw [List.mem_singleton.1 mem]
        rfl
    | _ => cases mem
  · obtain ⟨e, -, rfl⟩ := List.mem_map.1 mem
    rfl

theorem givenBack_closing (s : MatchStage) :
    s.closing.filterMap MatchAct.givenBack? = s.unit?.toList := by
  have none : s.leaving.filterMap MatchAct.givenBack? = [] := by cases s <;> rfl
  rw [closing, List.filterMap_append, none, List.nil_append]
  cases s.unit? <;> rfl

/-- How an interrupted worker ends matching. -/
def result : MatchStage → Except ExecutionError Unit
  | ending result => result
  | s => MatchAct.cutResult s.answer?

end MatchStage

namespace Matching

variable {m : Match}

/-- An interrupted worker that has its answer gives back what was handed out. -/
theorem unwinds_received (cut : m.interrupted = true) (answer : Dispatched) :
    ∃ z, Path ⟨.received answer, m⟩ ((MatchStage.received answer).closing ++
        [.ended (MatchStage.received answer).result]) ⟨.finished, z⟩ ∧
      z.exchange.registry = m.exchange.registry ∧
      z.exchange.backplane.rejectCalls = m.exchange.backplane.rejectCalls ++
        (MatchStage.received answer).unit?.toList.map QueueEntry.name := by
  match answer with
  | .error f =>
      have step : (Matching.mk (.received (.error f)) m).step? =
          some (.ended (MatchStage.received (.error f)).result, ⟨.finished, m⟩) := by
        cases unavailable : f.isUnavailable <;>
          simp [step?, MatchStage.result, MatchAct.cutResult, MatchStage.answer?, unavailable, cut,
            stop]
      exact ⟨m, .cons step (.nil _), rfl, (List.append_nil _).symm⟩
  | .ok none =>
      have step : (Matching.mk (.received (.ok none)) m).step? =
          some (.ended (.error .interrupted), ⟨.finished, m⟩) := by
        simp [step?, cut, stop]
      exact ⟨m, .cons step (.nil _), rfl, (List.append_nil _).symm⟩
  | .ok (some e) =>
      have step : (Matching.mk (.received (.ok (some e))) m).step? =
          some (.gaveBack e, ⟨.ending (.error .interrupted), (m.reject e).2⟩) := by
        simp [step?, cut]
      refine ⟨(m.reject e).2, .cons step (.cons rfl (.nil _)), rfl, ?_⟩
      unfold Match.reject Backplane.reject
      dsimp only
      split <;> rfl

/-- An interrupted worker that has not offered a unit ends matching. -/
theorem unwinds {stage : MatchStage} (cut : m.interrupted = true)
    (unoffered : stage.isOffering = false) :
    ∃ z, Path ⟨stage, m⟩ (stage.closing ++ [.ended stage.result]) ⟨.finished, z⟩ ∧
      z.exchange.registry = m.exchange.registry ∧
      z.exchange.backplane.rejectCalls = m.exchange.backplane.rejectCalls ++
        stage.unit?.toList.map QueueEntry.name := by
  have told := m.waits_tell .waitEnd
  cases stage with
  | ready =>
      have step : (Matching.mk .ready m).step? =
          some (.ended (.error .interrupted), ⟨.finished, m⟩) := by
        simp [step?, cut, stop]
      exact ⟨m, .cons step (.nil _), rfl, (List.append_nil _).symm⟩
  | begun =>
      have step : (Matching.mk .begun m).step? = some (cutShort m) := by simp [step?, cut]
      exact ⟨_, .cons step (.cons rfl (.nil _)), told.registry,
        told.rejectCalls.trans (List.append_nil _).symm⟩
  | waiting =>
      have step : (Matching.mk .waiting m).step? = some (cutShort m) := by simp [step?, cut]
      exact ⟨_, .cons step (.cons rfl (.nil _)), told.registry,
        told.rejectCalls.trans (List.append_nil _).symm⟩
  | answered answer =>
      obtain ⟨z, path, registry, returned⟩ :=
        unwinds_received (Match.interrupted_tell .waitEnd cut) answer
      rw [told.rejectCalls] at returned
      exact ⟨z, .cons rfl path, registry.trans told.registry, returned⟩
  | received answer => exact unwinds_received cut answer
  | settled =>
      have waits := m.exchange.waits_waitUntil m.exchange.now
      have step : (Matching.mk .ready m.pause).step? =
          some (.ended (.error .interrupted), ⟨.finished, m.pause⟩) := by
        have cut : m.pause.interrupted = true := Exchange.interrupted_waitUntil _ cut
        simp [step?, cut, stop]
      exact ⟨m.pause, .cons rfl (.cons step (.nil _)), waits.registry,
        waits.rejectCalls.trans (List.append_nil _).symm⟩
  | ending result => exact ⟨m, .cons rfl (.nil _), rfl, (List.append_nil _).symm⟩
  | claimed | refused | finished => cases unoffered

variable {c c' : Matching} {act : MatchAct}

/-- All that an act can be. -/
inductive Does : Matching → MatchAct → Matching → Prop
  | ends {stage : MatchStage} {m : Match} (result : Except ExecutionError Unit) :
    Does ⟨stage, m⟩ (.ended result) ⟨.finished, m⟩
  | begins {m : Match} : Does ⟨.ready, m⟩ (.told .waitStart) ⟨.begun, m.tell .waitStart⟩
  /-- An interrupt cuts a wait short. -/
  | leaves {stage : MatchStage} {m : Match} (cut : m.interrupted = true)
    (unanswered : stage.answer? = none) :
    Does ⟨stage, m⟩ (.told .waitEnd) ⟨.ending (.error .interrupted), m.tell .waitEnd⟩
  | asks {m : Match} : Does ⟨.begun, m⟩ .asked ⟨.waiting, m.wait⟩
  | answers {m : Match} :
    Does ⟨.waiting, m⟩ (.answered m.dispatch.1) ⟨.answered m.dispatch.1, m.dispatch.2⟩
  | hears {m : Match} {answer : Dispatched} :
    Does ⟨.answered answer, m⟩ (.told .waitEnd) ⟨.received answer, m.tell .waitEnd⟩
  | idles {stage : MatchStage} {m m' : Match} {taken : Bool} :
    Does ⟨stage, m⟩ (.offered none taken) ⟨if taken then .ending (.ok ()) else .settled, m'⟩
  | returns {stage next : MatchStage} {m : Match} {e : QueueEntry}
    (goes : next = .settled ∨ ∃ result, next = .ending result) :
    Does ⟨stage, m⟩ (.gaveBack e) ⟨next, (m.reject e).2⟩
  | drops {stage : MatchStage} {m : Match} {e : QueueEntry} :
    Does ⟨stage, m⟩ (.dropped e) ⟨.settled, m⟩
  | claims {stage : MatchStage} {m : Match} {e : QueueEntry} {registry : Registry} :
    Does ⟨stage, m⟩ (.claimed e)
      ⟨.claimed e, { m with exchange := { m.exchange with registry } }⟩
  | offers {m m' : Match} {e : QueueEntry} {taken : Bool} :
    Does ⟨.claimed e, m⟩ (.offered (some e) taken)
      ⟨if taken then .ending (.ok ()) else .refused e, m'⟩
  | requeues {m m' : Match} {e : QueueEntry} :
    Does ⟨.refused e, m⟩ (.requeued e) ⟨.ending (.ok ()), m'⟩
  | pauses {m : Match} : Does ⟨.settled, m⟩ .paused ⟨.ready, m.pause⟩

theorem deal_does {stage : MatchStage} (e : QueueEntry) (deals : deal m e = (act, c')) :
    Does ⟨stage, m⟩ act c' := by
  unfold deal at deals
  split at deals
  · have returned {m' : Match} {next : MatchStage} (left : (m.reject e).2 = m')
        (goes : next = .settled ∨ ∃ result, next = .ending result) :
        Does ⟨stage, m⟩ (.gaveBack e) ⟨next, m'⟩ := left ▸ .returns goes
    split at deals
    next eq =>
      cases deals
      exact returned (congrArg Prod.snd eq) (.inl rfl)
    next f _ eq =>
      cases deals
      cases f.isUnavailable with
      | true => exact returned (congrArg Prod.snd eq) (.inl rfl)
      | false => exact returned (congrArg Prod.snd eq) (.inr ⟨_, rfl⟩)
  · split at deals
    · cases deals
      exact .drops
    · cases deals
      exact .claims

/-- An act is one of these. -/
theorem step_does (step : c.step? = some (act, c')) : c.Does act c' := by
  obtain ⟨stage, m⟩ := c
  cases stage with
  | ready =>
      simp only [step?] at step
      split at step
      · cases step
        exact .ends _
      · cases step
        exact .begins
  | begun =>
      simp only [step?] at step
      split at step
      next cut =>
        cases step
        exact .leaves cut rfl
      · cases step
        exact .asks
  | waiting =>
      simp only [step?] at step
      split at step
      next cut =>
        cases step
        exact .leaves cut rfl
      · cases step
        exact .answers
  | answered answer =>
      cases step
      exact .hears
  | received answer =>
      match answer with
      | .error f =>
          simp only [step?] at step
          split at step
          · cases step
            exact .ends _
          · split at step
            · cases step
              exact .ends _
            · cases step
              exact .idles
      | .ok none =>
          simp only [step?] at step
          split at step
          · cases step
            exact .ends _
          · cases step
            exact .idles
      | .ok (some e) =>
          simp only [step?] at step
          split at step
          · cases step
            exact .returns (.inr ⟨_, rfl⟩)
          · exact deal_does e (Option.some.inj step)
  | claimed e =>
      cases step
      exact .offers
  | refused e =>
      cases step
      exact .requeues
  | settled =>
      cases step
      exact .pauses
  | ending result =>
      cases step
      exact .ends result
  | finished => cases step

/-- An interrupt comes in an act that takes time or tells the listener something. It finds no unit
on offer if that act offers none. -/
theorem Does.cut (does : c.Does act c') (calm : c.state.interrupted = false)
    (cut : c'.state.interrupted = true) (unoffered : ∀ e taken, act ≠ .offered (some e) taken)
    (unrefused : ∀ e, c.stage ≠ .refused e) :
    c'.stage.isOffering = false ∧ c'.stage.result =
      if act.takesIdle then .ok () else MatchAct.cutResult c'.stage.answer? := by
  have no {p : Prop} (same : c'.state.interrupted = c.state.interrupted) : p :=
    (Bool.false_ne_true (calm.symm.trans (same.symm.trans cut))).elim
  cases does with
  | begins | asks | answers | hears | pauses => exact ⟨rfl, rfl⟩
  | @idles stage m m' taken => cases taken <;> exact ⟨rfl, rfl⟩
  | leaves already => exact (Bool.false_ne_true (calm.symm.trans already)).elim
  -- The other acts interrupt nobody, or come after a unit was offered.
  | ends | returns | drops | claims => exact no rfl
  | offers => exact (unoffered _ _ rfl).elim
  | requeues => exact (unrefused _ rfl).elim

/-- A unit is refused when it is offered. -/
theorem Does.refused {e : QueueEntry} (does : c.Does act c') (refused : c'.stage = .refused e) :
    act = .offered (some e) false := by
  cases does with
  | @idles stage m m' taken => cases taken <;> cases refused
  | @offers m m' e' taken =>
      cases taken with
      | true => cases refused
      | false =>
          cases refused
          rfl
  | returns goes =>
      obtain settled | ⟨_, ending⟩ := goes
      · cases settled.symm.trans refused
      · cases ending.symm.trans refused
  | _ => cases refused

/-- An act keeps an answer or does something about it. -/
theorem Does.answer? (does : c.Does act c') : act.keeps c.stage.answer? = c'.stage.answer? := by
  cases does with
  | leaves _ unanswered => exact unanswered
  | @idles stage m m' taken => cases taken <;> rfl
  | @offers m m' e taken => cases taken <;> rfl
  | returns goes => obtain rfl | ⟨_, rfl⟩ := goes <;> rfl
  | _ => rfl

/-- Who has refused a unit was offered one. -/
theorem Path.offered {acts : List MatchAct} {e : QueueEntry} (path : Path c acts c')
    (begun : ∀ e, c.stage ≠ .refused e) (refused : c'.stage = .refused e) :
    ∃ e taken, MatchAct.offered (some e) taken ∈ acts := by
  induction path with
  | nil => exact absurd refused (begun e)
  | @cons c c₁ c₂ act acts step path ih =>
      by_cases now : ∃ e, c₁.stage = .refused e
      · obtain ⟨e, now⟩ := now
        exact ⟨e, false, List.mem_cons.2 (.inl ((step_does step).refused now).symm)⟩
      · obtain ⟨e, taken, mem⟩ := ih (fun e eq => now ⟨e, eq⟩) refused
        exact ⟨e, taken, List.mem_cons_of_mem _ mem⟩

theorem Path.answer? {acts : List MatchAct} (path : Path c acts c') :
    acts.foldl MatchAct.keeps c.stage.answer? = c'.stage.answer? := by
  induction path with
  | nil => rfl
  | cons step _ ih =>
      rw [List.foldl_cons, (step_does step).answer?]
      exact ih

/-- Acts that lead to an end are all the acts. -/
theorem Path.unique {acts more : List MatchAct} {z z' : Match} (path : Path c acts ⟨.finished, z⟩)
    (path' : Path c more ⟨.finished, z'⟩) : more = acts ∧ z' = z := by
  obtain ⟨rest, rfl, left⟩ := path.continues path'
  cases left with
  | nil => exact ⟨List.append_nil _, rfl⟩
  | cons step => cases step

end Matching

/-! ### What the listener hears -/

namespace Match

theorem heard_tell (m : Match) (n : Notice) :
    (m.tell n).listener.heard = m.listener.heard ++ [n] := by
  unfold tell
  dsimp only
  split <;> rfl

/-- At most one offer follows a wait. -/
theorem heard_place (m : Match) (candidate : Option QueueEntry) :
    ∃ offer : Option (Option QueueEntry), (m.place candidate).2.listener.heard =
      m.listener.heard ++ (offer.map Notice.offer).toList := by
  have none : m.listener.heard = m.listener.heard ++ ((none : Option (Option QueueEntry)).map
      Notice.offer).toList := (List.append_nil _).symm
  match candidate with
  | .none => exact ⟨some .none, heard_tell m _⟩
  | some e =>
      unfold place
      dsimp only
      split
      · have back : (m.reject e).2.listener = m.listener := rfl
        generalize m.reject e = r at back
        obtain ⟨_ | _, m'⟩ := r
        · exact ⟨.none, (congrArg Listener.heard back).trans none⟩
        · exact ⟨.none, (congrArg Listener.heard back).trans none⟩
      · split
        · exact ⟨.none, none⟩
        · refine ⟨some (some e), ?_⟩
          dsimp only
          split
          · exact heard_tell _ _
          · exact heard_tell _ _

theorem heard_receive (m : Match) (answer : Dispatched) :
    ∃ offer : Option (Option QueueEntry), (m.receive answer).2.listener.heard =
      m.listener.heard ++ (offer.map Notice.offer).toList := by
  have none : ∃ offer : Option (Option QueueEntry), m.listener.heard =
      m.listener.heard ++ (offer.map Notice.offer).toList := ⟨none, (List.append_nil _).symm⟩
  unfold receive
  split
  · split
    · exact none
    · split
      · exact none
      · exact heard_place m _
  · split
    · exact none
    · exact heard_place m _
  · split
    · exact none
    · exact heard_place m _

/-- A round is at most one wait. -/
theorem heard_round (m : Match) :
    ∃ offers : List (Option (Option QueueEntry)),
      m.round.2.listener.heard = m.listener.heard ++ offers.flatMap Notice.block := by
  unfold round
  split
  · exact ⟨[], (List.append_nil _).symm⟩
  dsimp only
  generalize waited : (if (m.tell .waitStart).interrupted then m.tell .waitStart
    else (m.tell .waitStart).wait) = m₁
  have begun : m₁.listener.heard = m.listener.heard ++ [.waitStart] := by
    rw [← heard_tell, ← waited]
    split
    · rfl
    · rw [listener_wait]
  split
  · refine ⟨[none], ?_⟩
    rw [heard_tell, begun, List.append_assoc]
    rfl
  · obtain ⟨x, -, -, same, -⟩ := m₁.dispatch_eq
    obtain ⟨offer, heard⟩ := heard_receive (m₁.dispatch.2.tell .waitEnd) m₁.dispatch.1
    refine ⟨[offer], ?_⟩
    rw [heard, heard_tell, same, begun, List.flatMap_singleton, Notice.block]
    simp only [List.append_assoc, List.cons_append, List.nil_append]

/-- The listener hears of waits, each with at most one offer. -/
theorem heard_run (m : Match) :
    ∃ offers : List (Option (Option QueueEntry)),
      m.run.2.listener.heard = m.listener.heard ++ offers.flatMap Notice.block := by
  induction m using run_induction with
  | ends m result m' ended =>
      rw [run_ends ended]
      have round := heard_round m
      rw [ended] at round
      exact round
  | goes m next going ih =>
      rw [run_goes going]
      obtain ⟨offers, round⟩ := heard_round m
      obtain ⟨more, later⟩ := ih
      rw [going] at round
      refine ⟨offers ++ more, ?_⟩
      have paused : next.pause.listener.heard = next.listener.heard := rfl
      rw [later, paused, round, List.flatMap_append, List.append_assoc]

/-- **An interrupted worker claims nothing and strands nothing.** Whenever an interrupt comes while
matching, and no unit was offered up to then, matching asks for nothing more, claims nothing and
offers nothing. It gives back the unit that was handed out in the same wait, whatever that unit is,
and it ends as interrupted. If the listener took idleness in the act, it ends well instead, and if
the backplane failed in the same wait, it ends with that failure. Whether or not an interrupt comes,
the listener hears of waits, each of which is followed by at most one offer. -/
theorem run_halts (m : Match) :
    (m.interrupted = true → m.run = (.error .interrupted, m)) ∧
    (∀ before act c c', Matching.Path ⟨.ready, m⟩ before c → c.step? = some (act, c') →
      c.state.interrupted = false → c'.state.interrupted = true →
      (∀ e taken, MatchAct.offered (some e) taken ∉ before ++ [act]) →
      ∃ rest, Matching.Path c' (rest ++ [.ended m.run.1]) ⟨.finished, m.run.2⟩ ∧
        (∀ a ∈ rest, a.takesOn = false) ∧
        rest.filterMap MatchAct.givenBack? = (MatchAct.unit? (before ++ [act])).toList ∧
        m.run.2.exchange.backplane.rejectCalls = c'.state.exchange.backplane.rejectCalls ++
          (MatchAct.unit? (before ++ [act])).toList.map QueueEntry.name ∧
        m.run.2.exchange.registry = c'.state.exchange.registry ∧
        m.run.1 = if act.takesIdle then .ok ()
          else MatchAct.cutResult (MatchAct.answer? (before ++ [act]))) ∧
    ∃ offers : List (Option (Option QueueEntry)),
      m.run.2.listener.heard = m.listener.heard ++ offers.flatMap Notice.block := by
  refine ⟨run_interrupted, ?_, heard_run m⟩
  intro before act c c' path step calm cut unoffered
  have unrefused (e : QueueEntry) : c.stage ≠ .refused e := by
    intro refused
    obtain ⟨e, taken, mem⟩ := path.offered (fun _ => nofun) refused
    exact unoffered e taken (List.mem_append_left _ mem)
  have other (e : QueueEntry) (taken : Bool) : act ≠ .offered (some e) taken := by
    intro offered
    exact unoffered e taken (List.mem_append_right _ (List.mem_singleton.2 offered.symm))
  obtain ⟨stage, result⟩ := (Matching.step_does step).cut calm cut other unrefused
  obtain ⟨z, rest, registry, returned⟩ := Matching.unwinds cut stage
  -- The acts of the run go on from here, so they are those of the interrupted worker.
  obtain ⟨acts, whole⟩ := run_leads m
  obtain ⟨left, eq, left_path⟩ := (path.append (.cons step (.nil c'))).continues whole
  obtain ⟨rfl, rfl⟩ := rest.unique left_path
  rw [← List.append_assoc] at eq
  obtain ⟨-, ended⟩ := List.append_inj' eq rfl
  have ended : m.run.1 = c'.stage.result := MatchAct.ended.inj (List.cons.inj ended).1
  have answer : MatchAct.answer? (before ++ [act]) = c'.stage.answer? :=
    (path.append (.cons step (.nil c'))).answer?
  rw [MatchAct.unit?, answer]
  refine ⟨c'.stage.closing, ?_, c'.stage.takesOn_closing, c'.stage.givenBack_closing, returned,
    registry, ended.trans result⟩
  rw [ended]
  exact rest

/-- A unit that the worker cannot run, and of a name that is claimed. The listener interrupts when
the wait is over. -/
def sampleCut : Match :=
  let e : QueueEntry :=
    { executeEntry := ⟨"op", .empty, false⟩, queuedOperationDigest := .empty,
      platform := ⟨[⟨"os", "linux"⟩]⟩ }
  { platform := {}, listener := { interruptAtWait := some 2 },
    exchange := { backplane := { queue := [e] }, registry := ({} : Registry).insert e } }

theorem sampleCut_returns :
    sampleCut.run.1 = .error .interrupted ∧
    sampleCut.run.2.exchange.backplane.rejectCalls = ["op"] ∧
    sampleCut.run.2.exchange.registry = sampleCut.exchange.registry ∧
    ∃ offers : List (Option (Option QueueEntry)),
      sampleCut.run.2.listener.heard = offers.flatMap Notice.block := by
  obtain ⟨-, halts, offers⟩ := run_halts sampleCut
  let answered : Match := (sampleCut.tell .waitStart).wait.dispatch.2
  let answer := (sampleCut.tell .waitStart).wait.dispatch.1
  have path : Matching.Path ⟨.ready, sampleCut⟩ [.told .waitStart, .asked, .answered answer]
      ⟨.answered answer, answered⟩ := .cons rfl (.cons rfl (.cons rfl (.nil _)))
  obtain ⟨rest, -, -, -, returned, registry, result⟩ :=
    halts _ (.told .waitEnd) _ ⟨.received answer, answered.tell .waitEnd⟩ path rfl
      (by decide +kernel) (by decide +kernel) (by simp)
  refine ⟨result, returned, registry, offers⟩

end Match

end BuildWorker
