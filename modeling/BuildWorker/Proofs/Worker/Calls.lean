import BuildWorker.Proofs.Dispatch.Conservation
import BuildWorker.Proofs.Lease.Service
import BuildWorker.Proofs.Retry.Attempts
import BuildWorker.Worker

/-!
# Calls of a worker

Whatever is called on a worker happens in moves, and each call is noted by what it does
(`Worker.Notes`): matching by the unit that it offers to the listener, and by its return if the
listener refuses it; giving a unit back and forgetting it by the release; every other call by
nothing but the renewals that arms ask for meanwhile. Renewals are answered as the backplane was
going to answer before the call. So a run of calls is a history that is told call by call
(`Worker.run_noted`).

Only a call that makes or resumes a lease holder starts an arm, with the period and on the errand
that the settings give (`Worker.errand`); a run is orderly when all of these calls are allowed
(`Worker.Allows`).
-/

namespace BuildWorker

variable {allowed : Exchange → Nat → LeaseErrand → Prop}

namespace Exchange

/-! ### Claims -/

/-- What is noted when the unit of a name is forgotten. -/
def deactivateActs (x : Exchange) (name : String) : List LeaseEvent :=
  match x.registry.get? name with
  | none => []
  | some _ => [.released name (x.renewing name)]

/-- What is noted when the unit of a name is given back. -/
def requeueActs (x : Exchange) (name : String) : List LeaseEvent :=
  match x.registry.get? name with
  | none => []
  | some e => [.released name (x.renewing name), .queued ⟨e.name, .queued, 0, x.now⟩]

theorem requeue_proceeds (x : Exchange) (name : String) :
    Proceeds allowed x (x.requeueActs name) (x.requeue name) := by
  unfold requeue requeueActs
  cases held : x.registry.get? name with
  | none => exact .refl x
  | some e => exact ((course_requeue held).proceeds rfl rfl).append (pass_proceeds _ _)

theorem deactivate_proceeds (x : Exchange) (name : String) :
    Proceeds allowed x (x.deactivateActs name) (x.deactivate name) := by
  unfold deactivate deactivateActs
  cases held : x.registry.get? name with
  | some e =>
      have course : Course allowed x [.released name (x.renewing name)] _ :=
        ⟨(Move.deactivate held).history, trivial, rfl⟩
      exact course.proceeds rfl rfl
  | none =>
      have free : x.registry.contains name = false := by
        rw [Registry.contains, held]
        rfl
      rw [Registry.erase_of_free free]
      exact .refl x

end Exchange

namespace Backplane

theorem answers_dispatch (b : Backplane) :
    b.dispatch.2.polls = b.polls ∧ b.dispatch.2.pollAnswers = b.pollAnswers := by
  unfold dispatch
  split <;> exact ⟨rfl, rfl⟩

theorem answers_reject (b : Backplane) (e : QueueEntry) :
    (b.reject e).2.polls = b.polls ∧ (b.reject e).2.pollAnswers = b.pollAnswers := by
  unfold reject
  dsimp only
  split <;> exact ⟨rfl, rfl⟩

/-- Publications ask for no renewal. -/
theorem answers_publish {α : Type} (b : Backplane) (result : α) {change : Backplane → Backplane}
    (keeps : ∀ b, (change b).polls = b.polls ∧ (change b).pollAnswers = b.pollAnswers) :
    (b.publish result change).2.polls = b.polls ∧
      (b.publish result change).2.pollAnswers = b.pollAnswers := by
  unfold publish
  dsimp only
  split
  · exact ⟨rfl, rfl⟩
  · exact keeps _

end Backplane

/-- The backplane does something else than renew leases. -/
theorem Exchange.trade_proceeds {x : Exchange} {backplane : Backplane}
    (answers : backplane.polls = x.backplane.polls ∧
      backplane.pollAnswers = x.backplane.pollAnswers) :
    Proceeds allowed x [] { x with backplane } := by
  have course : Course allowed x [] _ := (Move.trade backplane answers.1).course answers.2
  exact course.proceeds rfl rfl

/-! ### Matching -/

/-- How the units that were offered to a listener are noted, when the exchange is `after`
afterwards. -/
inductive Dealt (after : Exchange) : List QueueEntry → List LeaseEvent → Prop
  /-- Nothing was offered. -/
  | nothing : Dealt after [] []
  /-- A unit is claimed, and the listener takes it. -/
  | taken {e : QueueEntry} (claimed : after.registry.get? e.name = some e) :
      Dealt after [e] [.claimed e]
  /-- A unit is claimed, and as the listener refuses it, it is given back. -/
  | refused {e : QueueEntry} {before : Exchange} (claimed : before.registry.get? e.name = some e)
      (back : before.requeue e.name = after) :
      Dealt after [e] (.claimed e :: before.requeueActs e.name)

namespace Match

/-- Nothing is offered, and leases are renewed at most. -/
structure Idles (allowed : Exchange → Nat → LeaseErrand → Prop) (m m' : Match) : Prop where
  units : m'.units = m.units
  proceeds : Exchange.Proceeds allowed m.exchange [] m'.exchange

/-- One unit is offered at most, and dealt with as the listener answers. -/
def Deals (allowed : Exchange → Nat → LeaseErrand → Prop) (m m' : Match) : Prop :=
  ∃ units acts, m'.units = m.units ++ units ∧ Dealt m'.exchange units acts ∧
    Exchange.Proceeds allowed m.exchange acts m'.exchange

variable {m m' m'' : Match}

theorem Idles.refl (m : Match) : Idles allowed m m := ⟨rfl, .refl _⟩

theorem Idles.trans (h : Idles allowed m m') (h' : Idles allowed m' m'') : Idles allowed m m'' :=
  ⟨h'.units.trans h.units, h.proceeds.trans h'.proceeds⟩

theorem Idles.deals (h : Idles allowed m m') : Deals allowed m m' :=
  ⟨[], [], h.units.trans (List.append_nil _).symm, .nothing, h.proceeds⟩

theorem Idles.trans_deals (h : Idles allowed m m') (h' : Deals allowed m' m'') :
    Deals allowed m m'' := by
  obtain ⟨units, acts, heard, dealt, proceeds⟩ := h'
  exact ⟨units, acts, h.units ▸ heard, dealt, h.proceeds.trans proceeds⟩

theorem tell_proceeds (m : Match) (n : Notice) :
    Exchange.Proceeds allowed m.exchange [] (m.tell n).exchange := by
  unfold tell
  dsimp only
  split
  · exact Exchange.interrupt_proceeds _
  · exact .refl _

theorem tell_idles (m : Match) {n : Notice} (silent : n = .waitStart ∨ n = .waitEnd) :
    Idles allowed m (m.tell n) := by
  refine ⟨?_, tell_proceeds m n⟩
  rw [units_tell]
  rcases silent with rfl | rfl <;> exact List.append_nil _

theorem ask_none_idles (m : Match) : Idles allowed m (m.ask none).2 :=
  ⟨(units_ask m none).trans (List.append_nil _), tell_proceeds m _⟩

theorem wait_idles (m : Match) : Idles allowed m m.wait := by
  refine ⟨congrArg Listener.units (listener_wait m), ?_⟩
  unfold wait
  split
  · exact .refl _
  · exact Exchange.waitUntil_proceeds _ _

theorem dispatch_idles (m : Match) : Idles allowed m m.dispatch.2 := by
  obtain ⟨-, -, -, listener, -⟩ := m.dispatch_eq
  refine ⟨congrArg Listener.units listener, ?_⟩
  unfold dispatch
  dsimp only
  split
  · exact (Exchange.interrupt_proceeds _).trans
      (Exchange.trade_proceeds (Backplane.answers_dispatch _))
  · exact Exchange.trade_proceeds (Backplane.answers_dispatch _)

theorem reject_idles (m : Match) (e : QueueEntry) : Idles allowed m (m.reject e).2 :=
  ⟨rfl, Exchange.trade_proceeds (Backplane.answers_reject _ e)⟩

/-- What an act of matching comes to: it deals with a unit at most, and offers none if matching goes
on after it. -/
structure Comes (allowed : Exchange → Nat → LeaseErrand → Prop) (m : Match)
    (r : Option (Except ExecutionError Unit) × Match) : Prop where
  deals : Deals allowed m r.2
  goes : r.1 = none → Idles allowed m r.2

theorem Idles.comes {r : Option (Except ExecutionError Unit) × Match}
    (h : Idles allowed m r.2) : Comes allowed m r := ⟨h.deals, fun _ => h⟩

theorem Idles.trans_comes {r : Option (Except ExecutionError Unit) × Match}
    (h : Idles allowed m m') (h' : Comes allowed m' r) : Comes allowed m r :=
  ⟨h.trans_deals h'.deals, fun goes => h.trans (h'.goes goes)⟩

/-- A unit of a free name is claimed and offered. -/
theorem place_free (m : Match) {e : QueueEntry}
    (free : m.exchange.registry.contains e.name = false) :
    let x := { m.exchange with registry := m.exchange.registry.insert e }
    let r := ({ m with exchange := x } : Match).ask (some e)
    Deals allowed m
      (if r.1 then r.2 else { r.2 with exchange := r.2.exchange.requeue e.name }) := by
  intro x r
  have claims : Exchange.Course allowed m.exchange [.claimed e] x :=
    ⟨(Exchange.Move.claim e free).history, trivial, rfl⟩
  have asks : Exchange.Proceeds allowed x [] r.2.exchange :=
    tell_proceeds { m with exchange := x } (.offer (some e))
  have claimed := (claims.proceeds rfl rfl).append asks
  have registry : r.2.exchange.registry = m.exchange.registry.insert e :=
    (waits_ask { m with exchange := x } (some e)).registry
  have held : r.2.exchange.registry.get? e.name = some e := by
    rw [registry, Registry.get?_insert, if_pos rfl]
  have units : r.2.units = m.units ++ [e] := units_ask { m with exchange := x } (some e)
  split
  · exact ⟨[e], _, units, .taken held, claimed⟩
  · exact ⟨[e], _, units, .refused held rfl,
      claimed.append (Exchange.requeue_proceeds r.2.exchange e.name)⟩

theorem place_comes (m : Match) (candidate : Option QueueEntry) :
    Comes allowed m (m.place candidate) := by
  match candidate with
  | none => exact (ask_none_idles m).comes
  | some e =>
      unfold place
      dsimp only
      split
      · have back : Idles allowed m (m.reject e).2 := reject_idles m e
        generalize m.reject e = returned at back
        obtain ⟨_ | _, m₁⟩ := returned
        · exact back.comes
        · exact back.comes
      · unfold Registry.insertNew?
        cases free : m.exchange.registry.contains e.name with
        | true => exact (Idles.refl m).comes
        | false => exact ⟨place_free m free, nofun⟩

theorem receive_comes (m : Match) (answer : Except BackplaneError (Option QueueEntry)) :
    Comes allowed m (m.receive answer) := by
  unfold receive
  split
  · split
    · exact (Idles.refl m).comes
    · split
      · exact (Idles.refl m).comes
      · exact place_comes m none
  · split
    · exact (Idles.refl m).comes
    · exact place_comes m none
  next e =>
    split
    · exact (reject_idles m e).comes
    · exact place_comes m (some e)

theorem round_comes (m : Match) : Comes allowed m m.round := by
  unfold round
  split
  · exact (Idles.refl m).comes
  dsimp only
  generalize waited : (if (m.tell .waitStart).interrupted then m.tell .waitStart
    else (m.tell .waitStart).wait) = m₁
  have begun : Idles allowed m m₁ := by
    rw [← waited]
    split
    · exact tell_idles m (.inl rfl)
    · exact (tell_idles m (.inl rfl)).trans (wait_idles _)
  refine begun.trans_comes ?_
  split
  · exact (tell_idles m₁ (.inr rfl)).comes
  · exact ((dispatch_idles m₁).trans (tell_idles _ (.inr rfl))).trans_comes (receive_comes _ _)

/-- **Matching deals with a unit at most.** -/
theorem run_deals (m : Match) : Deals allowed m m.run.2 := by
  have rounds (m : Match) : Comes allowed m m.round := round_comes m
  induction m using run_induction with
  | ends m result m' ended =>
      have round := (rounds m).deals
      rw [ended] at round
      rw [run_ends ended]
      exact round
  | goes m next going ih =>
      have round := rounds m
      rw [going] at round
      rw [run_goes going]
      have paused : Idles allowed next next.pause :=
        ⟨rfl, Exchange.waitUntil_proceeds next.exchange _⟩
      exact ((round.goes rfl).trans paused).trans_deals ih

end Match

/-! ### Publication -/

theorem Worker.publish_proceeds {α : Type} (w : Worker) (position : Nat → Float)
    {call : Backplane → Except BackplaneError α × Backplane}
    (answers : ∀ b, (call b).2.polls = b.polls ∧ (call b).2.pollAnswers = b.pollAnswers) :
    Exchange.Proceeds allowed w.exchange [] (w.publish position call).2.exchange :=
  RetryPolicy.attemptFrom_keeps _ _ _ _ (R := fun x y => Exchange.Proceeds allowed x [] y) .trans
    (fun _ => Exchange.trade_proceeds (answers _)) (fun _ _ => Exchange.pass_proceeds _ _) _ _ _

/-! ### Calls -/

/-- A call on a worker, or something that happens around it. -/
inductive WorkerCall
  /-- Units of work are matched. The given state says who listens and how the backplane behaves. -/
  | claim (m : Match)
  | createPoller (holder : String) (e : QueueEntry) (stage : ExecutionStage)
  | resumePoller (holder : String) (e : QueueEntry) (stage : ExecutionStage) (deadline : Nat)
    (watched : Bool)
  | pausePoller (holder : String)
  | dropPoller (holder : String)
  | requeue (name : String)
  | deactivate (name : String)
  | queuedOperation (e : QueueEntry)
  /-- Publications come with draws for the delays between their attempts. -/
  | putOperation (o : Operation) (position : Nat → Float)
  | putActionResult (key : ActionKey) (r : ActionResult) (position : Nat → Float)
  | blacklist (action : String) (position : Nat → Float)
  | captureOutputs (top : FileTree) (root : FileTree.Place) (action : Digest)
    (result : ActionResult) (files directories : List String)
  /-- Time passes. -/
  | pass (ms : Nat)
  | interrupt
  /-- An interrupt is set for some time, or called off. -/
  | alarm (time : Option Nat)
  /-- Others change the backplane, but not its record of renewals. -/
  | outside (backplane : Backplane)

namespace Worker

/-- The errand of the arms that the worker starts. -/
def errand (w : Worker) (e : QueueEntry) (stage : ExecutionStage) : LeaseErrand :=
  ⟨e, stage, 1000 * w.settings.pollTimeoutSeconds.toNat⟩

/-- Make a call. -/
def perform (w : Worker) : WorkerCall → Worker
  | .claim m => (w.claim m).2.2
  | .createPoller holder e stage => w.createPoller holder e stage
  | .resumePoller holder e stage deadline watched => w.resumePoller holder e stage deadline watched
  | .pausePoller holder => w.pausePoller holder
  | .dropPoller holder => w.dropPoller holder
  | .requeue name => w.requeue name
  | .deactivate name => w.deactivate name
  | .queuedOperation e => (w.queuedOperation e).2
  | .putOperation o position => (w.putOperation o position).2
  | .putActionResult key r position => (w.putActionResult key r position).2
  | .blacklist action position => (w.blacklist action position).2
  | .captureOutputs top root action result files directories =>
    (w.captureOutputs top root action result files directories).2.2
  | .pass ms => w.pass ms
  | .interrupt => w.interrupt
  | .alarm time => { w with exchange := { w.exchange with alarm := time } }
  | .outside backplane => { w with exchange := { w.exchange with
      backplane := { backplane with polls := w.exchange.backplane.polls } } }

/-- Make calls one after the other. -/
def run (w : Worker) (calls : List WorkerCall) : Worker := calls.foldl perform w

end Worker

/-- The unit and the stage for which a call starts an arm. -/
def WorkerCall.starts? : WorkerCall → Option (QueueEntry × ExecutionStage)
  | createPoller _ e stage | resumePoller _ e stage _ _ => some (e, stage)
  | _ => none

namespace Worker

/-- Whenever calls start an arm, it is allowed then. -/
def Allows (allowed : Exchange → Nat → LeaseErrand → Prop) (w : Worker) :
    List WorkerCall → Prop
  | [] => True
  | call :: calls =>
    (∀ e stage, call.starts? = some (e, stage) →
      allowed w.exchange w.settings.pollPeriodMs.toNat (w.errand e stage)) ∧
    Allows allowed (w.perform call) calls

/-- Calls that start no arm are always allowed. -/
theorem allows_of_starts? {calls : List WorkerCall} (idle : ∀ call ∈ calls, call.starts? = none)
    (w : Worker) : w.Allows allowed calls := by
  induction calls generalizing w with
  | nil => trivial
  | cons call calls ih =>
      rw [List.forall_mem_cons] at idle
      refine ⟨fun e stage starts => ?_, ih idle.2 _⟩
      rw [idle.1] at starts
      cases starts

/-! ### What is noted of calls -/

/-- The acts that a call is noted by. -/
def Acts (w : Worker) (acts : List LeaseEvent) : WorkerCall → Prop
  | .claim m => ∃ units, (w.claim m).2.1.units = m.units ++ units ∧
    Dealt (w.claim m).2.2.exchange units acts
  | .requeue name => acts = w.exchange.requeueActs name
  | .deactivate name => acts = w.exchange.deactivateActs name
  | _ => acts = []

/-- What is noted of a call. -/
structure Notes (allowed : Exchange → Nat → LeaseErrand → Prop) (w : Worker) (call : WorkerCall)
    (events : List LeaseEvent) : Prop where
  history : Exchange.History allowed w.exchange events (w.perform call).exchange
  /-- Claims and releases are those of the call. -/
  acts : w.Acts (events.filter LeaseEvent.isAct) call
  /-- Renewals are answered as the backplane was going to. -/
  answered : Answered w.exchange.backplane.pollAnswers events

/-- What is noted of calls that are made one after the other. -/
inductive Noted (allowed : Exchange → Nat → LeaseErrand → Prop) :
    Worker → List WorkerCall → List (List LeaseEvent) → Prop
  | nil (w : Worker) : Noted allowed w [] []
  | cons {w : Worker} {call : WorkerCall} {calls : List WorkerCall} {events : List LeaseEvent}
      {later : List (List LeaseEvent)} (first : w.Notes allowed call events)
      (rest : Noted allowed (w.perform call) calls later) :
      Noted allowed w (call :: calls) (events :: later)

/-- What is noted of calls, one after the other, is a history. -/
theorem Noted.history {w : Worker} {calls : List WorkerCall} {segments : List (List LeaseEvent)}
    (h : w.Noted allowed calls segments) :
    Exchange.History allowed w.exchange segments.flatten (w.run calls).exchange := by
  induction h with
  | nil w => exact .start
  | cons first _ ih => exact first.history.trans ih

/-- Something that is done in moves with the acts of a call is what is noted of it. -/
theorem notes_of_proceeds {w : Worker} {call : WorkerCall} {acts : List LeaseEvent}
    (served : w.exchange.Served) (proceeds : Exchange.Proceeds allowed w.exchange acts
      (w.perform call).exchange) (own : w.Acts acts call) :
    (∃ events, w.Notes allowed call events) ∧ (w.perform call).exchange.Served := by
  obtain ⟨⟨events, course, rfl⟩, served⟩ := proceeds served
  exact ⟨⟨events, course.history, own, course.answered⟩, served⟩

/-- What a call does is noted. -/
theorem perform_notes (w : Worker) (call : WorkerCall) (served : w.exchange.Served)
    (may : ∀ e stage, call.starts? = some (e, stage) →
      allowed w.exchange w.settings.pollPeriodMs.toNat (w.errand e stage)) :
    (∃ events, w.Notes allowed call events) ∧ (w.perform call).exchange.Served := by
  cases call with
  | claim m =>
      obtain ⟨units, acts, heard, dealt, proceeds⟩ :=
        Match.run_deals { m with platform := w.platform, exchange := w.exchange }
      exact notes_of_proceeds served proceeds ⟨units, heard, dealt⟩
  | createPoller holder e stage | resumePoller holder e stage =>
      exact notes_of_proceeds served
        (Exchange.resume_proceeds _ _ _ _ _ _ (may e stage rfl)) rfl
  | pausePoller holder | dropPoller holder =>
      exact notes_of_proceeds served (Exchange.pause_proceeds _ holder) rfl
  | requeue name => exact notes_of_proceeds served (Exchange.requeue_proceeds _ name) rfl
  | deactivate name => exact notes_of_proceeds served (Exchange.deactivate_proceeds _ name) rfl
  | queuedOperation e => exact notes_of_proceeds served (.refl _) rfl
  | putOperation o position =>
      exact notes_of_proceeds served (w.publish_proceeds position fun b =>
        b.answers_publish _ fun _ => ⟨rfl, rfl⟩) rfl
  | putActionResult key r position =>
      exact notes_of_proceeds served (w.publish_proceeds position fun b =>
        b.answers_publish _ fun _ => ⟨rfl, rfl⟩) rfl
  | blacklist action position =>
      exact notes_of_proceeds served (w.publish_proceeds position fun b =>
        b.answers_publish _ fun _ => ⟨rfl, rfl⟩) rfl
  | captureOutputs top root action result files directories =>
      have proceeds : Exchange.Proceeds allowed w.exchange []
          (w.captureOutputs top root action result files directories).2.2.exchange := by
        unfold captureOutputs
        dsimp only
        split
        · exact Exchange.interrupt_proceeds _
        · exact .refl _
      exact notes_of_proceeds served proceeds rfl
  | pass ms => exact notes_of_proceeds served (Exchange.pass_proceeds _ ms) rfl
  | interrupt => exact notes_of_proceeds served (Exchange.interrupt_proceeds _) rfl
  | alarm time =>
      have course : Exchange.Course allowed w.exchange [] _ :=
        (Exchange.Move.signal w.exchange.interrupted time).course rfl
      exact notes_of_proceeds served (course.proceeds rfl rfl) rfl
  | outside backplane =>
      -- The answers to come may be others after this, so it is no course.
      let backplane : Backplane := { backplane with polls := w.exchange.backplane.polls }
      exact ⟨⟨[], (Exchange.Move.trade backplane rfl).history, rfl, trivial⟩, served⟩

/-- **What calls do is noted, call by call.** -/
theorem run_noted {w : Worker} {calls : List WorkerCall} (served : w.exchange.Served)
    (allows : w.Allows allowed calls) : ∃ segments, w.Noted allowed calls segments := by
  induction calls generalizing w with
  | nil => exact ⟨[], .nil w⟩
  | cons call calls ih =>
      obtain ⟨⟨events, first⟩, served⟩ := w.perform_notes call served allows.1
      obtain ⟨later, rest⟩ := ih served allows.2
      exact ⟨events :: later, .cons first rest⟩

/-- A worker that has just begun, over an empty store. -/
def ofSettings (settings : WorkerSettings) : Worker where
  settings
  retry := .backplane
  depot := .ofStore (.ofLimit 0)

/-- A unit of work. -/
def leasedUnit : QueueEntry where
  executeEntry := ⟨"op", .empty, false⟩
  queuedOperationDigest := .empty
  requeueAttempts := 0

end Worker

end BuildWorker
