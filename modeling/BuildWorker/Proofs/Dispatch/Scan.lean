import BuildWorker.Proofs.Dispatch.Conservation

/-!
# Matching is a scan of the queue

While nothing interrupts the worker, matching goes through what the backplane has, from left to
right: first the failures that it is told to give, then the units of its queue, then the emptiness
behind them. `Match.scan` says what this comes to from the lists alone. It knows of no state, and
each of its three parts follows one list.

A round of matching either ends as the scan says, or leaves a state of which the scan says the same
(`Match.round_scans`). So a run is the scan (`Match.run_scans`).

The backplane is the one in memory, which takes back what it is given, and nobody renews leases.
-/

namespace BuildWorker

/-- Whether some required property is missing. -/
def Platform.lacks (p requirement : Platform) : Bool :=
  requirement.properties.any fun r => r ∉ p.properties

theorem Platform.lacks_eq (p requirement : Platform) :
    p.lacks requirement = !p.satisfies requirement := by
  simp [lacks, satisfies, contains, List.not_all_eq_any_not]

/-! ### The scan -/

/-- What matching comes to. -/
structure Scan where
  /-- How it ends. -/
  outcome : Except ExecutionError Unit
  /-- The failures that are left. -/
  failures : List BackplaneError := []
  /-- The units that were looked at, in order. -/
  scanned : List QueueEntry := []
  /-- The unit that the listener took. -/
  accepted : Option QueueEntry := none
  /-- The unit that the listener refused. -/
  refused : Option QueueEntry := none
  /-- What was offered after each of the waits, if anything. -/
  waits : List (Option (Option QueueEntry))

namespace Scan

/-- What a scan comes to when it looks at some units first, in one more wait. -/
def after (offer : Option (Option QueueEntry)) (units : List QueueEntry) (s : Scan) : Scan :=
  { s with scanned := units ++ s.scanned, waits := offer :: s.waits }

/-- Past the end of the queue there is idleness, until the listener takes it. -/
def idle : List Bool → Scan
  | false :: answers => (idle answers).after (some none) []
  | true :: _ | [] => { outcome := .ok (), waits := [some none] }

/-- What a scan comes to that ends with the offer of a unit. -/
def offered (e : QueueEntry) (taken : Bool) : Scan where
  outcome := .ok ()
  scanned := [e]
  accepted := if taken then some e else none
  refused := if taken then none else some e
  waits := [some (some e)]

/-- A unit is given back if the platform lacks something that it requires, and else dropped if its
name is claimed. The first unit of which neither is true is offered, and ends the scan. -/
def units (platform : Platform) (claimed : Registry) (answers : List Bool) :
    List QueueEntry → Scan
  | [] => idle answers
  | e :: queue =>
    if platform.lacks e.platform || claimed.contains e.name then
      (units platform claimed answers queue).after none [e]
    else offered e (answers.headD true)

/-- A backplane that cannot be reached is as good as an empty one. Any other failure ends the
scan. -/
def failing (platform : Platform) (claimed : Registry) (queue : List QueueEntry) :
    List BackplaneError → List Bool → Scan
  | [], answers => units platform claimed answers queue
  | f :: failures, answers =>
    if f.isUnavailable then
      if answers.headD true then { outcome := .ok (), failures, waits := [some none] }
      else (failing platform claimed queue failures answers.tail).after (some none) []
    else { outcome := .error (.backplane f), failures, waits := [none] }

end Scan

namespace Match

/-- What matching comes to, as far as nothing interrupts it. -/
def scan (m : Match) : Scan :=
  .failing m.platform m.exchange.registry m.exchange.backplane.queue
    m.exchange.backplane.dispatchFailures m.listener.answers

/-- The units among some that require what the platform lacks. -/
def unsatisfied (m : Match) (units : List QueueEntry) : List QueueEntry :=
  units.filter fun e => m.platform.lacks e.platform

/-- When the last wait of a scan is over. -/
def scanEnd (m : Match) (s : Scan) : Nat := m.exchange.now + s.waits.length * m.latency

/-- What a scan leaves. After a refusal the worker waits until the backplane has been told. -/
def afterScan (m : Match) (s : Scan) : Match :=
  let b := m.exchange.backplane
  let lag := s.refused.elim 0 fun _ => (b.pollAnswers.headD {}).latency
  { m with
    listener := { m.listener with
      answers := m.listener.answers.drop (s.waits.countP Option.isSome)
      heard := m.listener.heard ++ s.waits.flatMap Notice.block }
    exchange := { m.exchange with
      roster := { m.exchange.roster with now := m.scanEnd s + lag }
      registry := s.accepted.elim m.exchange.registry m.exchange.registry.insert
      backplane := { b with
        queue := b.queue.drop s.scanned.length
        dispatchFailures := s.failures
        rejectCalls := b.rejectCalls ++ (m.unsatisfied s.scanned).map QueueEntry.name
        rejected := b.rejected ++ m.unsatisfied s.scanned
        polls := b.polls ++ s.refused.toList.map fun e => ⟨e.name, .queued, 0, m.scanEnd s⟩
        pollAnswers := b.pollAnswers.drop s.refused.toList.length } } }

end Match

/-- One wait that does not end matching, as a scan of its own. -/
def Scan.wait (offer : Option (Option QueueEntry)) (units : List QueueEntry)
    (failures : List BackplaneError) : Scan where
  outcome := .ok ()
  failures := failures
  scanned := units
  waits := [offer]

namespace Match

/-- One wait takes the worker's time, and units from the queue. -/
theorem afterScan_wait (m : Match) (offer : Option (Option QueueEntry)) (units : List QueueEntry)
    (failures : List BackplaneError) :
    let b := m.exchange.backplane
    m.afterScan (.wait offer units failures) =
      { m with
        listener := { m.listener with
          answers := m.listener.answers.drop offer.toList.length
          heard := m.listener.heard ++ Notice.block offer }
        exchange := { m.exchange with
          roster := { m.exchange.roster with now := m.exchange.now + m.latency }
          backplane := { b with
            queue := b.queue.drop units.length
            dispatchFailures := failures
            rejectCalls := b.rejectCalls ++ (m.unsatisfied units).map QueueEntry.name
            rejected := b.rejected ++ m.unsatisfied units } } } := by
  cases offer <;> simp [afterScan, Scan.wait, scanEnd]

/-- What a scan leaves when it looks at some units first, it leaves when these have been looked
at. -/
theorem afterScan_after (m : Match) (offer : Option (Option QueueEntry))
    (units : List QueueEntry) (failures : List BackplaneError) (s : Scan) :
    m.afterScan (s.after offer units) =
      (m.afterScan (.wait offer units failures)).afterScan s := by
  have clock : m.scanEnd (s.after offer units) =
      (m.afterScan (.wait offer units failures)).scanEnd s := by
    show _ + (s.waits.length + 1) * m.latency =
      m.exchange.now + 1 * m.latency + 0 + s.waits.length * m.latency
    rw [Nat.succ_mul, Nat.one_mul, Nat.add_zero, Nat.add_right_comm, Nat.add_assoc]
  have answers : m.listener.answers.drop ((offer :: s.waits).countP Option.isSome) =
      (m.listener.answers.drop ([offer].countP Option.isSome)).drop
        (s.waits.countP Option.isSome) := by
    rw [List.drop_drop, ← List.countP_append]
    rfl
  rw [afterScan]
  simp only [clock]
  simp only [afterScan, Scan.after, Scan.wait, answers, unsatisfied, List.drop_drop,
    List.length_append, List.filter_append, List.map_append, List.append_assoc, List.flatMap_cons,
    List.flatMap_nil, List.append_nil, Option.toList_none, List.map_nil, List.length_nil,
    List.drop_zero, Option.elim_none]

end Match

/-! ### Without an interrupt -/

namespace Exchange

variable {x : Exchange}

/-- The exchange at another time. -/
def atTime (x : Exchange) (now : Nat) : Exchange := { x with roster := { x.roster with now } }

theorem advanceTo_alone (alone : x.roster.arms = []) (target : Nat) :
    x.advanceTo target = x.atTime (max x.now target) := by
  unfold advanceTo
  rw [Roster.advanceTo_of_arms_nil _ _ _ alone]
  rfl

theorem waitUntil_calm {target : Nat} (alone : x.roster.arms = [])
    (calm : (x.waitUntil target).interrupted = false) :
    x.waitUntil target = x.atTime (max x.now target) := by
  unfold waitUntil at calm ⊢
  split
  · exact advanceTo_alone alone target
  next alarm eq =>
    split
    next due =>
      rw [eq] at calm
      simp [due] at calm
    · exact advanceTo_alone alone target

theorem pass_calm {ms : Nat} (alone : x.roster.arms = [])
    (calm : (x.pass ms).interrupted = false) : x.pass ms = x.atTime (x.now + ms) := by
  have waits : (x.waitUntil (x.now + ms)).interrupted = false := by
    simpa only [pass, interrupted_advanceTo] using calm
  have later : (x.atTime (x.now + ms)).roster.arms = [] := alone
  rw [pass, waitUntil_calm alone waits, Nat.max_eq_right (Nat.le_add_right _ _),
    advanceTo_alone later]
  exact congrArg x.atTime (Nat.max_self _)

end Exchange

namespace Match

variable {m : Match}

theorem tell_calm {n : Notice} (calm : (m.tell n).interrupted = false) :
    m.tell n = { m with listener := m.listener.hear n } := by
  unfold tell at calm ⊢
  dsimp only at calm ⊢
  split
  next cuts =>
    rw [if_pos cuts] at calm
    simp [interrupted, interrupt] at calm
  · rfl

theorem wait_calm (alone : m.exchange.roster.arms = []) (calm : m.wait.interrupted = false) :
    m.wait = { m with exchange := m.exchange.atTime (m.exchange.now + m.latency) } := by
  unfold wait at calm ⊢
  split
  next immediate =>
    rw [immediate]
    cases m
    cases immediate
    rfl
  next slow =>
    rw [if_neg slow] at calm
    rw [Exchange.waitUntil_calm alone calm, Nat.max_eq_right (Nat.le_add_right _ _)]

theorem dispatch_calm (calm : m.dispatch.2.interrupted = false) :
    m.dispatch = (m.exchange.backplane.dispatch.1,
      { m with exchange := { m.exchange with backplane := m.exchange.backplane.dispatch.2 } }) := by
  unfold dispatch at calm ⊢
  dsimp only at calm ⊢
  split
  next cuts =>
    rw [if_pos cuts] at calm
    exact absurd (m.exchange.interrupted_interrupt.symm.trans calm) (by decide)
  · rfl

/-- An interrupted worker does nothing with an answer but give back a unit. -/
theorem interrupted_receive (answer : Except BackplaneError (Option QueueEntry))
    (cut : m.interrupted = true) : (m.receive answer).2.interrupted = true := by
  unfold receive
  split
  · split
    · exact cut
    · exact cut
  · rw [if_pos cut]
    exact cut
  · rw [if_pos cut]
    exact cut

/-- The state after a wait, when the backplane has answered. -/
def waited (m : Match) : Match where
  platform := m.platform
  latency := m.latency
  interruptsDispatch := m.interruptsDispatch
  listener := { m.listener with heard := m.listener.heard ++ [.waitStart, .waitEnd] }
  exchange := { m.exchange.atTime (m.exchange.now + m.latency) with
    backplane := m.exchange.backplane.dispatch.2 }

/-- A round that nothing interrupts waits, and deals with the backplane's answer. -/
theorem round_calm (alone : m.exchange.roster.arms = []) (calm : m.round.2.interrupted = false) :
    m.waited.interrupted = false ∧
      m.round = m.waited.receive m.exchange.backplane.dispatch.1 := by
  -- An interrupt at any point would still be there at the end.
  have begun : m.interrupted = false := by
    refine Bool.eq_false_iff.2 fun cut => ?_
    rw [round_interrupted cut] at calm
    exact Bool.eq_false_iff.1 calm cut
  unfold round at calm ⊢
  simp only [begun, Bool.false_eq_true, if_false] at calm ⊢
  have started : (m.tell .waitStart).interrupted = false := by
    refine Bool.eq_false_iff.2 fun cut => ?_
    simp only [cut, if_true] at calm
    exact Bool.eq_false_iff.1 calm (interrupted_tell _ cut)
  simp only [started, Bool.false_eq_true, if_false] at calm ⊢
  have slept : (m.tell .waitStart).wait.interrupted = false := by
    refine Bool.eq_false_iff.2 fun cut => ?_
    simp only [cut, if_true] at calm
    exact Bool.eq_false_iff.1 calm (interrupted_tell _ cut)
  simp only [slept, Bool.false_eq_true, if_false] at calm ⊢
  have ended : ((m.tell .waitStart).wait.dispatch.2.tell .waitEnd).interrupted = false :=
    Bool.eq_false_iff.2 fun cut => Bool.eq_false_iff.1 calm (interrupted_receive _ cut)
  have answered : (m.tell .waitStart).wait.dispatch.2.interrupted = false :=
    Bool.eq_false_iff.2 fun cut => Bool.eq_false_iff.1 ended (interrupted_tell _ cut)
  have told := tell_calm started
  have quiet : (m.tell .waitStart).exchange.roster.arms = [] := by
    rw [told]
    exact alone
  have served : (m.tell .waitStart).wait.dispatch = (m.exchange.backplane.dispatch.1,
      { m with
        listener := m.listener.hear .waitStart
        exchange := { m.exchange.atTime (m.exchange.now + m.latency) with
          backplane := m.exchange.backplane.dispatch.2 } }) := by
    rw [dispatch_calm answered, wait_calm quiet slept, told]
    rfl
  have heard : (m.tell .waitStart).wait.dispatch.2.tell .waitEnd = m.waited := by
    rw [tell_calm ended, served]
    simp only [waited, Listener.hear, List.append_assoc, List.cons_append, List.nil_append]
  rw [heard] at ended ⊢
  rw [served]
  exact ⟨ended, rfl⟩

theorem ask_calm {unit : Option QueueEntry} (calm : (m.ask unit).2.interrupted = false) :
    m.ask unit = (m.listener.answers.headD true, { m with listener := { m.listener with
      answers := m.listener.answers.drop 1, heard := m.listener.heard ++ [.offer unit] } }) := by
  rw [ask, tell_calm calm]
  rfl

/-- A round in which nothing is handed out offers idleness. -/
theorem place_idle {failures : List BackplaneError}
    (unhanded : m.exchange.backplane.dispatch.2 =
      { m.exchange.backplane with dispatchFailures := failures })
    (calm : (m.waited.place none).2.interrupted = false) :
    m.waited.place none = (if m.listener.answers.headD true then some (.ok ()) else none,
      m.afterScan (.wait (some none) [] failures)) := by
  rw [place, ask_calm calm, afterScan_wait]
  simp [waited, unhanded, Exchange.atTime, unsatisfied]

theorem receive_error (calm : m.interrupted = false) (e : BackplaneError) :
    m.receive (.error e) =
      if e.isUnavailable then m.place none else (some (.error (.backplane e)), m) := by
  cases unavailable : e.isUnavailable <;> simp [receive, unavailable, calm]

theorem receive_ok (calm : m.interrupted = false) (candidate : Option QueueEntry) :
    m.receive (.ok candidate) = m.place candidate := by
  cases candidate <;> simp [receive, calm]

/-- What a round does as the scan says: it ends, or it goes on with the rest of the scan. -/
def Scans (m : Match) (r : Option (Except ExecutionError Unit) × Match) : Prop :=
  r = (some m.scan.outcome, m.afterScan m.scan) ∨
  ∃ offer units failures, r = (none, m.afterScan (.wait offer units failures)) ∧
    m.scan = (m.afterScan (.wait offer units failures)).scan.after offer units

theorem Scans.ends {s : Scan} (scan : m.scan = s) : m.Scans (some s.outcome, m.afterScan s) := by
  rw [← scan]
  exact .inl rfl

/-- Idleness is offered where nothing is handed out. -/
theorem scans_idle {failures : List BackplaneError}
    (unhanded : m.exchange.backplane.dispatch.2 =
      { m.exchange.backplane with dispatchFailures := failures })
    (taken : m.listener.answers.headD true = true →
      m.scan = { outcome := .ok (), failures, waits := [some none] })
    (refused : m.listener.answers.headD true = false →
      m.scan = (m.afterScan (.wait (some none) [] failures)).scan.after (some none) [])
    (calm : (m.waited.place none).2.interrupted = false) : m.Scans (m.waited.place none) := by
  rw [place_idle unhanded calm]
  cases takes : m.listener.answers.headD true with
  | true => exact .ends (taken takes)
  | false => exact .inr ⟨some none, [], failures, rfl, refused takes⟩

/-- Where the backplane fails, so does the scan unless the backplane cannot be reached. -/
theorem scans_failure {f : BackplaneError} {rest : List BackplaneError}
    (fails : m.exchange.backplane.dispatchFailures = f :: rest)
    (begun : m.waited.interrupted = false)
    (calm : (m.waited.receive (.error f)).2.interrupted = false) :
    m.Scans (m.waited.receive (.error f)) := by
  have unhanded : m.exchange.backplane.dispatch.2 =
      { m.exchange.backplane with dispatchFailures := rest } := by
    rw [Backplane.dispatch, fails]
  rw [receive_error begun] at calm ⊢
  split
  next unavailable =>
    rw [if_pos unavailable] at calm
    refine scans_idle unhanded (fun takes => ?_) (fun takes => ?_) calm
    · rw [scan, fails, Scan.failing, if_pos unavailable, if_pos takes]
    · rw [scan, fails, Scan.failing, if_pos unavailable, takes, ← List.drop_one]
      rfl
  next otherwise =>
    have ends :
        m.scan = { outcome := .error (.backplane f), failures := rest, waits := [none] } := by
      rw [scan, fails, Scan.failing, if_neg otherwise]
    have left : m.waited = m.afterScan m.scan := by
      rw [ends]
      simp [waited, unhanded, afterScan, scanEnd, unsatisfied, Exchange.atTime]
    rw [left]
    exact .inl (by rw [ends])

/-- Where nothing is queued, the scan comes to idleness. -/
theorem scans_empty (reachable : m.exchange.backplane.dispatchFailures = [])
    (empty : m.exchange.backplane.queue = []) (begun : m.waited.interrupted = false)
    (calm : (m.waited.receive (.ok none)).2.interrupted = false) :
    m.Scans (m.waited.receive (.ok none)) := by
  have unhanded : m.exchange.backplane.dispatch.2 =
      { m.exchange.backplane with dispatchFailures := [] } := by
    generalize m.exchange.backplane = b at reachable empty
    cases b
    cases reachable
    cases empty
    rfl
  have idle : m.scan = .idle m.listener.answers := by
    rw [scan, reachable, empty, Scan.failing, Scan.units]
  have later : (m.afterScan (.wait (some none) [] [])).scan =
      .idle (m.listener.answers.drop 1) := by
    show Scan.failing _ _ (m.exchange.backplane.queue.drop 0) [] _ = _
    rw [empty, List.drop_zero, Scan.failing, Scan.units]
    rfl
  rw [receive_ok begun] at calm ⊢
  refine scans_idle unhanded (fun takes => ?_) (fun takes => ?_) calm
  · rw [idle]
    cases answers : m.listener.answers with
    | nil => rfl
    | cons answer rest =>
        rw [answers, List.headD_cons] at takes
        rw [takes, Scan.idle]
  · rw [later, idle]
    cases answers : m.listener.answers with
    | nil =>
        rw [answers] at takes
        cases takes
    | cons answer rest =>
        rw [answers, List.headD_cons] at takes
        rw [takes, Scan.idle]
        rfl

end Match

/-- A requeue that nothing interrupts waits until the backplane has been told. -/
theorem Exchange.requeue_calm {x : Exchange} {e : QueueEntry} (alone : x.roster.arms = [])
    (claimed : x.registry.get? e.name = some e) (calm : (x.requeue e.name).interrupted = false) :
    x.requeue e.name =
      { x with
        roster := { x.roster with
          now := x.now + (x.backplane.pollAnswers.headD {}).latency }
        registry := x.registry.erase e.name
        backplane := { x.backplane with
          polls := x.backplane.polls ++ [⟨e.name, .queued, 0, x.now⟩]
          pollAnswers := x.backplane.pollAnswers.drop 1 } } := by
  unfold requeue at calm ⊢
  rw [claimed] at calm ⊢
  simp only [Backplane.poll_eq] at calm ⊢
  exact pass_calm alone calm

namespace Match

variable {m : Match}

variable {e : QueueEntry} {queue : List QueueEntry}

/-- A unit that lacks something is given back. -/
theorem place_lacking (accepting : m.exchange.backplane.rejectFailures = [])
    (queued : m.exchange.backplane.queue = e :: queue)
    (handed : m.exchange.backplane.dispatch.2 =
      { m.exchange.backplane with queue := queue, dispatchFailures := [] })
    (lacks : m.platform.satisfies e.platform = false) :
    m.waited.place (some e) = (none, m.afterScan (.wait none [e] [])) := by
  have back : m.waited.reject e = (.ok (), m.afterScan (.wait none [e] [])) := by
    simp [reject, Backplane.reject, afterScan_wait, waited, handed, accepting, unsatisfied,
      Platform.lacks_eq, lacks, queued, Exchange.atTime]
  have lacks : (!m.waited.platform.satisfies e.platform) = true := Bool.not_eq_true' _ ▸ lacks
  simp only [place, lacks, if_true, back]

/-- A unit of a claimed name is dropped. -/
theorem place_claimed (queued : m.exchange.backplane.queue = e :: queue)
    (handed : m.exchange.backplane.dispatch.2 =
      { m.exchange.backplane with queue := queue, dispatchFailures := [] })
    (satisfied : m.platform.satisfies e.platform = true)
    (claimed : m.exchange.registry.contains e.name = true) :
    m.waited.place (some e) = (none, m.afterScan (.wait none [e] [])) := by
  have dropped : m.waited = m.afterScan (.wait none [e] []) := by
    simp [afterScan_wait, waited, handed, unsatisfied, Platform.lacks_eq, satisfied, queued,
      Exchange.atTime]
  rw [← dropped]
  have satisfied : m.waited.platform.satisfies e.platform = true := satisfied
  have claimed : m.waited.exchange.registry.contains e.name = true := claimed
  simp only [place, satisfied, Bool.not_true, Bool.false_eq_true, if_false, Registry.insertNew?,
    claimed, if_true]

/-- A unit that can be claimed is offered. -/
theorem place_offered (alone : m.exchange.roster.arms = [])
    (queued : m.exchange.backplane.queue = e :: queue)
    (handed : m.exchange.backplane.dispatch.2 =
      { m.exchange.backplane with queue := queue, dispatchFailures := [] })
    (satisfied : m.platform.satisfies e.platform = true)
    (free : m.exchange.registry.contains e.name = false)
    (calm : (m.waited.place (some e)).2.interrupted = false) :
    m.waited.place (some e) =
      (some (.ok ()), m.afterScan (.offered e (m.listener.answers.headD true))) := by
  let m₁ : Match := { m.waited with
    exchange := { m.waited.exchange with registry := m.exchange.registry.insert e } }
  have placed : m.waited.place (some e) = (some (.ok ()),
      if (m₁.ask (some e)).1 then (m₁.ask (some e)).2
      else { (m₁.ask (some e)).2 with
        exchange := (m₁.ask (some e)).2.exchange.requeue e.name }) := by
    have satisfied : m.waited.platform.satisfies e.platform = true := satisfied
    have free : m.waited.exchange.registry.contains e.name = false := free
    simp only [place, satisfied, Bool.not_true, Bool.false_eq_true, if_false, Registry.insertNew?,
      free]
    rfl
  rw [placed] at calm ⊢
  have asked : (m₁.ask (some e)).2.interrupted = false := by
    refine Bool.eq_false_iff.2 fun cut => Bool.eq_false_iff.1 calm ?_
    dsimp only
    split
    · exact cut
    · exact Exchange.interrupted_requeue e.name cut
  rw [ask_calm asked] at calm ⊢
  have answers : m₁.listener.answers = m.listener.answers := rfl
  rw [answers] at calm ⊢
  cases takes : m.listener.answers.headD true with
  | true =>
      simp [afterScan, Scan.offered, scanEnd, unsatisfied, Platform.lacks_eq, satisfied, queued, m₁,
        waited, handed, Exchange.atTime]
  | false =>
      simp only [takes, Bool.false_eq_true, if_false] at calm ⊢
      have claimed : m₁.exchange.registry.get? e.name = some e := by simp [m₁]
      rw [Exchange.requeue_calm (x := m₁.exchange) alone claimed calm]
      simp [afterScan, Scan.offered, scanEnd, unsatisfied, Platform.lacks_eq, satisfied, queued, m₁,
        waited, handed, Exchange.atTime, Registry.erase_insert free, Exchange.now]

/-- A unit is dealt with as the scan says. -/
theorem scans_unit (alone : m.exchange.roster.arms = [])
    (accepting : m.exchange.backplane.rejectFailures = [])
    (reachable : m.exchange.backplane.dispatchFailures = [])
    (queued : m.exchange.backplane.queue = e :: queue) (begun : m.waited.interrupted = false)
    (calm : (m.waited.receive (.ok (some e))).2.interrupted = false) :
    m.Scans (m.waited.receive (.ok (some e))) := by
  have handed : m.exchange.backplane.dispatch.2 =
      { m.exchange.backplane with queue := queue, dispatchFailures := [] } := by
    generalize m.exchange.backplane = b at reachable queued
    cases b
    cases reachable
    cases queued
    rfl
  have scan : m.scan = .units m.platform m.exchange.registry m.listener.answers (e :: queue) := by
    rw [scan, reachable, queued, Scan.failing]
  have later : (m.afterScan (.wait none [e] [])).scan =
      .units m.platform m.exchange.registry m.listener.answers queue := by
    show Scan.failing _ _ (m.exchange.backplane.queue.drop 1) [] (m.listener.answers.drop 0) = _
    rw [queued, Scan.failing]
    rfl
  rw [Scan.units, Platform.lacks_eq] at scan
  rw [receive_ok begun] at calm ⊢
  cases satisfied : m.platform.satisfies e.platform with
  | false =>
      rw [satisfied, Bool.not_false, Bool.true_or, if_pos rfl, ← later] at scan
      exact .inr ⟨none, [e], [], place_lacking accepting queued handed satisfied, scan⟩
  | true =>
      rw [satisfied, Bool.not_true, Bool.false_or] at scan
      cases claimed : m.exchange.registry.contains e.name with
      | true =>
          rw [if_pos claimed, ← later] at scan
          exact .inr ⟨none, [e], [], place_claimed queued handed satisfied claimed, scan⟩
      | false =>
          rw [claimed, if_neg Bool.false_ne_true] at scan
          rw [place_offered alone queued handed satisfied claimed calm]
          exact .ends scan

/-- **A round does the first step of the scan.** -/
theorem round_scans (alone : m.exchange.roster.arms = [])
    (accepting : m.exchange.backplane.rejectFailures = [])
    (calm : m.round.2.interrupted = false) : m.Scans m.round := by
  obtain ⟨begun, round⟩ := round_calm alone calm
  rw [round] at calm ⊢
  cases fails : m.exchange.backplane.dispatchFailures with
  | cons f rest =>
      have answer : m.exchange.backplane.dispatch.1 = .error f := by
        rw [Backplane.dispatch, fails]
      rw [answer] at calm ⊢
      exact scans_failure fails begun calm
  | nil =>
      cases queued : m.exchange.backplane.queue with
      | nil =>
          have answer : m.exchange.backplane.dispatch.1 = .ok none := by
            rw [Backplane.dispatch, fails, queued]
          rw [answer] at calm ⊢
          exact scans_empty fails queued begun calm
      | cons e queue =>
          have answer : m.exchange.backplane.dispatch.1 = .ok (some e) := by
            rw [Backplane.dispatch, fails, queued]
          rw [answer] at calm ⊢
          exact scans_unit alone accepting fails queued begun calm

/-! ### A run -/

/-- A run does what the scan says. -/
theorem run_scan (alone : m.exchange.roster.arms = [])
    (accepting : m.exchange.backplane.rejectFailures = [])
    (calm : m.run.2.interrupted = false) : m.run = (m.scan.outcome, m.afterScan m.scan) := by
  induction m using run_induction with
  | ends m result m' ended =>
      rw [run_ends ended] at calm ⊢
      have scans : m.Scans m.round := round_scans alone accepting (by rw [ended]; exact calm)
      rw [ended] at scans
      obtain scans | ⟨_, _, _, goes, -⟩ := scans
      · obtain ⟨same, left⟩ := Prod.mk.inj scans
        rw [Option.some.inj same, left]
      · cases goes
  | goes m next goes ih =>
      rw [run_goes goes] at calm ⊢
      -- The pause between two rounds interrupts nobody, or the next round would show it.
      have resumed : next.pause.interrupted = false := by
        refine Bool.eq_false_iff.2 fun cut => ?_
        rw [run_interrupted cut] at calm
        exact Bool.eq_false_iff.1 calm cut
      have rested : next.interrupted = false :=
        Bool.eq_false_iff.2 fun cut => Bool.eq_false_iff.1 resumed
          (Exchange.interrupted_waitUntil _ cut)
      have scans : m.Scans m.round := round_scans alone accepting (by rw [goes]; exact rested)
      rw [goes] at scans
      obtain ends | ⟨offer, units, failures, left, scan⟩ := scans
      · cases ends
      · obtain ⟨-, left⟩ := Prod.mk.inj left
        have quiet : next.exchange.roster.arms = [] := by
          rw [left]
          exact alone
        have same : next.pause = next := by
          rw [pause, Exchange.waitUntil_calm quiet resumed, Nat.max_self]
          rfl
        rw [same] at calm ih ⊢
        rw [left] at calm ih ⊢
        rw [ih alone accepting calm, scan, afterScan_after]
        rfl

/-- What a scan looks at is the beginning of the queue. -/
theorem scanned_scan (m : Match) : m.scan.scanned <+: m.exchange.backplane.queue := by
  have idle (answers : List Bool) : (Scan.idle answers).scanned = [] := by
    induction answers with
    | nil => rfl
    | cons taken rest ih =>
        cases taken with
        | true => rfl
        | false => exact ih
  have units (platform : Platform) (claimed : Registry) (answers : List Bool)
      (queue : List QueueEntry) :
      (Scan.units platform claimed answers queue).scanned <+: queue := by
    induction queue with
    | nil =>
        simp only [Scan.units, idle, List.nil_prefix]
    | cons e queue ih =>
        rw [Scan.units]
        split
        · exact (List.prefix_cons_inj e).2 ih
        · exact (List.prefix_cons_inj e).2 List.nil_prefix
  unfold scan
  generalize m.listener.answers = answers
  induction m.exchange.backplane.dispatchFailures generalizing answers with
  | nil => exact units _ _ _ _
  | cons f rest ih =>
      rw [Scan.failing]
      split
      · split
        · exact List.nil_prefix
        · exact ih answers.tail
      · exact List.nil_prefix

/-- **Matching is a scan of the queue.** While nothing interrupts the worker, a run ends as the scan
says, and the listener is told of its waits and offers. The queue loses what was scanned. The
backplane is given back the units among these that require what the platform lacks, each once and in
order, and it is told that the unit is queued again if the listener refused one; nothing else about
it changes but the failures it was told to give. The unit that the listener took is claimed. -/
theorem run_scans (alone : m.exchange.roster.arms = [])
    (accepting : m.exchange.backplane.rejectFailures = [])
    (calm : m.run.2.interrupted = false) :
    let s := m.scan
    let b := m.exchange.backplane
    m.run.1 = s.outcome ∧
    m.run.2.listener.heard = m.listener.heard ++ s.waits.flatMap Notice.block ∧
    m.run.2.exchange.registry = s.accepted.elim m.exchange.registry m.exchange.registry.insert ∧
    s.scanned ++ m.run.2.exchange.backplane.queue = b.queue ∧
    m.run.2.exchange.backplane = { b with
      queue := m.run.2.exchange.backplane.queue
      dispatchFailures := s.failures
      rejectCalls := b.rejectCalls ++ (m.unsatisfied s.scanned).map QueueEntry.name
      rejected := b.rejected ++ m.unsatisfied s.scanned
      polls := b.polls ++ s.refused.toList.map fun e => ⟨e.name, .queued, 0, m.scanEnd s⟩
      pollAnswers := b.pollAnswers.drop s.refused.toList.length } := by
  intro s b
  rw [run_scan alone accepting calm]
  exact ⟨rfl, rfl, rfl, (List.prefix_iff_eq_append.1 m.scanned_scan), rfl⟩

/-- A unit of some name that requires an operating system. -/
def sampleUnit (name os : String) : QueueEntry where
  executeEntry := ⟨name, .empty, false⟩
  queuedOperationDigest := .empty
  platform := ⟨[⟨"os", os⟩]⟩

/-- The backplane cannot be reached at first. Then it has a unit for another platform, a unit of a
claimed name, a unit that is refused and one more. -/
def sampleQueue : Match where
  platform := ⟨[⟨"os", "linux"⟩]⟩
  latency := 5
  listener := { answers := [false, false] }
  exchange := {
    backplane := {
      dispatchFailures := [⟨.unavailable, ""⟩]
      queue := [sampleUnit "op-1" "mac", sampleUnit "op-2" "linux", sampleUnit "op-3" "linux",
        sampleUnit "op-4" "linux"] }
    registry := ({} : Registry).insert (sampleUnit "op-2" "linux") }

theorem sampleQueue_scans :
    sampleQueue.run.2.interrupted = false ∧
    sampleQueue.run.1 = .ok () ∧
    sampleQueue.run.2.listener.heard = [.waitStart, .waitEnd, .offer none, .waitStart, .waitEnd,
      .waitStart, .waitEnd, .waitStart, .waitEnd, .offer (some (sampleUnit "op-3" "linux"))] ∧
    sampleQueue.run.2.exchange.registry = ({} : Registry).insert (sampleUnit "op-2" "linux") ∧
    sampleQueue.run.2.exchange.backplane.queue = [sampleUnit "op-4" "linux"] ∧
    sampleQueue.run.2.exchange.backplane.rejected = [sampleUnit "op-1" "mac"] ∧
    sampleQueue.run.2.exchange.backplane.polls = [⟨"op-3", .queued, 0, 20⟩] := by
  have calm : sampleQueue.run.2.interrupted = false := by decide +kernel
  obtain ⟨outcome, heard, registry, queue, backplane⟩ := run_scans rfl rfl calm
  refine ⟨calm, outcome, heard, registry, ?_, ?_, ?_⟩
  · exact List.append_cancel_left queue
  · rw [backplane]
    decide +kernel
  · rw [backplane]
    decide +kernel

end Match

end BuildWorker
