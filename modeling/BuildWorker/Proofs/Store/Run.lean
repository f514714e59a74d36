import BuildWorker.Proofs.Store.Integrity
import BuildWorker.Store.Desk
import Mathlib.Logic.Function.Basic

/-!
# The integrity of a desk over whole runs

Writers and readers make any calls, in any order. A `Watch` goes along and notes what they know
from the answers alone: the bytes that each session has taken and not lost again, and the blobs
that were put or whose writing was completed. That a digest is in the store and that a session has
taken certain bytes is tied together by one invariant (`Watch.Sound`), which every call preserves
(`Watch.Sound.perform`).

What holds of every run is in `Watch.run_integrity`.
-/

namespace BuildWorker

/-- A call of a writer or a reader. -/
inductive DeskCall
  /-- Store content under its own digest. -/
  | put (data : ByteArray)
  /-- Request the content under a digest. -/
  | get (digest : Digest)
  /-- Ask whether there is content under a digest. -/
  | contains (digest : Digest)
  /-- Ask which digests have no content. -/
  | missing (digests : List Digest)
  /-- Open a session, or join it, and hold it by a handle. -/
  | openSession (handle : String) (key : SessionKey)
  /-- Ask for a sink of a handle's session. -/
  | openSink (sink handle : String)
  | write (sink : String) (data : ByteArray)
  /-- Forget the bytes of a handle's session. -/
  | reset (handle : String)
  /-- Let go of a handle. -/
  | dropHandle (handle : String)
  /-- Let go of a sink. -/
  | dropSink (sink : String)
  /-- Count the sessions that can be joined. -/
  | activeWrites
  /-- Ask for the account. -/
  | account

namespace Desk

/-- What a call makes of the desk. -/
def perform (d : Desk) : DeskCall → Desk
  | .put data => (d.put (.ofBytes data)).2
  | .get digest => (d.get digest).2
  | .openSession handle key => d.openSession handle key
  | .openSink sink handle => (d.openSink sink handle).2
  | .write sink data => (d.write sink data).2
  | .reset handle => d.reset handle
  | .dropHandle handle => (d.dropHandle handle).2
  | .dropSink sink => (d.dropSink sink).2
  | .activeWrites => d.activeWrites.2
  | .contains _ | .missing _ | .account => d

/-- The session that a sink writes to. -/
def target? (d : Desk) (sink : String) : Option (Nat × Session) := do
  let i ← d.sinks.lookup sink
  return (i, ← d.session? i)

theorem session?_of_held {d : Desk} {handle : String} {i : Nat} {s : Session}
    (h : d.held? handle = some (i, s)) : d.session? i = some s := by
  obtain ⟨j, -, held⟩ := Option.bind_eq_some_iff.1 h
  obtain ⟨t, there, eq⟩ := Option.bind_eq_some_iff.1 held
  cases eq
  exact there

theorem mem_of_target {d : Desk} {sink : String} {i : Nat} {s : Session}
    (h : d.target? sink = some (i, s)) : (sink, i) ∈ d.sinks ∧ d.session? i = some s := by
  obtain ⟨j, named, held⟩ := Option.bind_eq_some_iff.1 h
  obtain ⟨t, there, eq⟩ := Option.bind_eq_some_iff.1 held
  cases eq
  exact ⟨mem_of_lookup named, there⟩

/-- A write appends to the session of the sink. -/
theorem write_eq (d : Desk) (sink : String) (data : ByteArray) :
    d.write sink data = match d.target? sink with
      | some (i, s) =>
        let (answer, s, store) := s.append d.store data
        (some answer, { d with store, sessions := d.sessions.set i s })
      | none => (none, d) := by
  unfold write target?
  cases d.sinks.lookup sink with
  | none => rfl
  | some i =>
      dsimp only [Option.bind_eq_bind, Option.bind_some]
      cases d.session? i <;> rfl

end Desk

/-- A desk, and what its users know from the answers. -/
structure Watch where
  desk : Desk
  /-- The bytes that each session has taken and not lost again. -/
  taken : Nat → ByteArray := fun _ => .empty
  /-- The blobs that were put or whose writing was completed. -/
  deposits : List Blob := []

namespace Watch

/-- A new desk. -/
def ofLimit (limit : UInt64) : Watch := { desk := .ofLimit limit }

/-- Note that a session has taken bytes, or lost them. -/
def note (w : Watch) (i : Nat) (bytes : ByteArray) : Watch :=
  { w with taken := Function.update w.taken i bytes }

/-- Whether a failure says that bytes were lost, since they were not what was declared. -/
def isLoss (e : IoError) : Bool :=
  match e.store? with
  | some (.digestMismatch _ _) => true
  | _ => false

/-- Note the answer to a write of bytes to the session at a position, as it was before. A complete
session takes nothing. -/
def noteWrite (w : Watch) (i : Nat) (before : Session) (data : ByteArray) :
    Option (Except IoError Nat) → Watch
  | some (.ok _) =>
    let bytes := w.taken i ++ data
    if before.complete then w
    else if (w.desk.session? i).any Session.complete then
      { w with deposits := ⟨before.digest, bytes⟩ :: w.deposits }
    else w.note i bytes
  | some (.error e) => if isLoss e then w.note i .empty else w
  | none => w

/-- A call, and what its answer tells. -/
def perform (w : Watch) (c : DeskCall) : Watch :=
  let w' := { w with desk := w.desk.perform c }
  match c with
  | .put data =>
    match (w.desk.put (.ofBytes data)).1 with
    | .ok () => { w' with deposits := .ofBytes data :: w.deposits }
    | .error _ => w'
  | .write sink data =>
    match w.desk.target? sink with
    | some (i, before) => w'.noteWrite i before data (w.desk.write sink data).1
    | none => w'
  | .reset handle =>
    match w.desk.held? handle with
    | some (i, s) => if s.complete then w' else w'.note i .empty
    | none => w'
  | _ => w'

/-- Any number of calls. -/
def run (w : Watch) (calls : List DeskCall) : Watch := calls.foldl perform w

/-! ### The invariant -/

/-- What holds at all times. -/
structure Sound (w : Watch) : Prop where
  /-- The store began empty. -/
  reachable : w.desk.store.Reachable
  complete : ∀ i s, w.desk.session? i = some s → s.complete = true →
    s.digest.isEmpty = true ∨ w.desk.store.contains s.digest = true
  /-- A sink writes to a session whose digest is within the limit. -/
  admitted : ∀ name i, (name, i) ∈ w.desk.sinks → ∃ s, w.desk.session? i = some s ∧
    w.desk.store.exceedsLimit s.digest = false
  gathered : ∀ i s, w.desk.session? i = some s → s.complete = false → w.taken i = s.buffer
  /-- Sessions to come have taken nothing. -/
  untaken : ∀ i, w.desk.session? i = none → w.taken i = .empty
  /-- Deposits went under their own digests, which are there. -/
  deposited : ∀ b ∈ w.deposits, b.digest = .ofBytes b.data ∧
    w.desk.store.contains b.digest = true

theorem sound_ofLimit (limit : UInt64) : (ofLimit limit).Sound where
  reachable := ⟨limit, .refl⟩
  complete := nofun
  admitted := nofun
  gathered := nofun
  untaken _ _ := rfl
  deposited := nofun

variable {w w' : Watch}

/-- A call that leaves the sessions alone and adds no sink. -/
theorem Sound.of_sessions_eq (h : w.Sound) (evolves : w.desk.store.Evolves w'.desk.store)
    (sessions : w'.desk.sessions = w.desk.sessions)
    (sinks : ∀ name i, (name, i) ∈ w'.desk.sinks → (name, i) ∈ w.desk.sinks)
    (taken : w'.taken = w.taken) (deposits : w'.deposits = w.deposits) : w'.Sound := by
  have session (i : Nat) : w'.desk.session? i = w.desk.session? i := by
    rw [Desk.session?, sessions, ← Desk.session?]
  refine ⟨?_, fun i s there complete => ?_, fun name i mem => ?_, fun i s there isOpen => ?_,
    fun i none_ => ?_, fun b mem => ?_⟩
  · obtain ⟨limit, before⟩ := h.reachable
    exact ⟨limit, before.trans evolves⟩
  · exact (h.complete i s (session i ▸ there) complete).imp_right evolves.contains
  · obtain ⟨s, there, within⟩ := h.admitted name i (sinks name i mem)
    refine ⟨s, (session i).trans there, ?_⟩
    rw [Store.exceedsLimit, evolves.limit_eq]
    exact within
  · rw [taken]
    exact h.gathered i s (session i ▸ there) isOpen
  · rw [taken]
    exact h.untaken i (session i ▸ none_)
  · obtain ⟨own, there⟩ := h.deposited b (deposits ▸ mem)
    exact ⟨own, evolves.contains there⟩

/-- A call that changes one session. -/
theorem Sound.of_set (h : w.Sound) {i : Nat} {s s' : Session}
    (here : w.desk.session? i = some s) (sessions : w'.desk.sessions = w.desk.sessions.set i s')
    (digest : s'.digest = s.digest) (evolves : w.desk.store.Evolves w'.desk.store)
    (complete : s'.complete = true →
      s.digest.isEmpty = true ∨ w'.desk.store.contains s.digest = true)
    (gathered : s'.complete = false → w'.taken i = s'.buffer)
    (sinks : w'.desk.sinks = w.desk.sinks)
    (taken : ∀ j, j ≠ i → w'.taken j = w.taken j)
    (deposited : ∀ b ∈ w'.deposits, b ∈ w.deposits ∨
      b.digest = .ofBytes b.data ∧ w'.desk.store.contains b.digest = true) : w'.Sound := by
  -- Only position `i` is touched; `same` and `other` say what is found at it and elsewhere.
  have same : w'.desk.session? i = some s' := by
    have lt : i < w.desk.sessions.length := (List.getElem?_eq_some_iff.1 here).1
    rw [Desk.session?, sessions, List.getElem?_set_self lt]
  have other {j : Nat} (ne : j ≠ i) : w'.desk.session? j = w.desk.session? j := by
    rw [Desk.session?, sessions, List.getElem?_set_ne ne.symm, ← Desk.session?]
  refine ⟨?_, fun j t there done => ?_, fun name j mem => ?_, fun j t there isOpen => ?_,
    fun j none_ => ?_, fun b mem => ?_⟩
  · obtain ⟨limit, before⟩ := h.reachable
    exact ⟨limit, before.trans evolves⟩
  · by_cases eq : j = i
    · subst eq
      cases same.symm.trans there
      rw [digest]
      exact complete done
    · exact (h.complete j t (other eq ▸ there) done).imp_right evolves.contains
  · obtain ⟨t, there, within⟩ := h.admitted name j (sinks ▸ mem)
    have within : w'.desk.store.exceedsLimit t.digest = false := by
      rw [Store.exceedsLimit, evolves.limit_eq]
      exact within
    by_cases eq : j = i
    · subst eq
      cases here.symm.trans there
      exact ⟨s', same, digest ▸ within⟩
    · exact ⟨t, (other eq).trans there, within⟩
  · by_cases eq : j = i
    · subst eq
      cases same.symm.trans there
      exact gathered isOpen
    · rw [taken j eq]
      exact h.gathered j t (other eq ▸ there) isOpen
  · by_cases eq : j = i
    · subst eq
      rw [same] at none_
      cases none_
    · rw [taken j eq]
      exact h.untaken j (other eq ▸ none_)
  · rcases deposited b mem with mem | new
    · exact (h.deposited b mem).imp_right evolves.contains
    · exact new

/-! ### Every call preserves it -/

theorem Sound.put (h : w.Sound) (data : ByteArray) : (w.perform (.put data)).Sound := by
  have step : Store.Step w.desk.store (w.desk.store.put (.ofBytes data)).2 := .put _ data
  have kept : ({ w with desk := w.desk.perform (.put data) } : Watch).Sound :=
    h.of_sessions_eq (.single step) rfl (fun _ _ => id) rfl rfl
  unfold perform
  dsimp only
  split
  next stored =>
    refine { kept with deposited := fun b mem => ?_ }
    rcases List.mem_cons.1 mem with rfl | mem
    · refine ⟨rfl, ?_⟩
      change (w.desk.store.put _).1 = _ at stored
      change (w.desk.store.put _).2.contains _ = true
      unfold Store.put at stored ⊢
      split at stored
      · cases stored
      next accepted =>
        rw [if_neg accepted]
        exact Store.contains_commit _ _ _
    · exact kept.deposited b mem
  next => exact kept

theorem Sound.openSession (h : w.Sound) (handle : String) (key : SessionKey) :
    (w.perform (.openSession handle key)).Sound := by
  change ({ w with desk := w.desk.openSession handle key } : Watch).Sound
  unfold Desk.openSession
  dsimp only
  split
  · exact h.of_sessions_eq .refl rfl (fun _ _ => id) rfl rfl
  -- The new session stands behind all others, so an old position still finds what it found.
  let s := Session.start w.desk.store key.digest
  have there {j : Nat} {t : Session} (at_ : (w.desk.sessions ++ [s])[j]? = some t) :
      w.desk.session? j = some t ∨ w.desk.session? j = none ∧ t = s := by
    rcases Nat.lt_or_ge j w.desk.sessions.length with lt | ge
    · rw [List.getElem?_append_left lt] at at_
      exact .inl at_
    · refine .inr ⟨List.getElem?_eq_none ge, ?_⟩
      rw [List.getElem?_append_right ge] at at_
      exact List.mem_singleton.1 (List.mem_of_getElem? at_)
  refine ⟨h.reachable, fun j t at_ done => ?_, fun name j mem => ?_, fun j t at_ isOpen => ?_,
    fun j none_ => ?_, h.deposited⟩
  · rcases there at_ with old | ⟨-, rfl⟩
    · exact h.complete j t old done
    · exact Bool.or_eq_true_iff.1 done
  · obtain ⟨t, old, within⟩ := h.admitted name j mem
    refine ⟨t, ?_, within⟩
    have lt : j < w.desk.sessions.length := (List.getElem?_eq_some_iff.1 old).1
    exact (List.getElem?_append_left lt).trans old
  · rcases there at_ with old | ⟨new, rfl⟩
    · exact h.gathered j t old isOpen
    · exact h.untaken j new
  · refine h.untaken j (List.getElem?_eq_none ?_)
    have le := List.getElem?_eq_none_iff.1 none_
    rw [List.length_append] at le
    exact Nat.le_of_add_right_le le

theorem Sound.openSink (h : w.Sound) (sink handle : String) :
    (w.perform (.openSink sink handle)).Sound := by
  change ({ w with desk := (w.desk.openSink sink handle).2 } : Watch).Sound
  unfold Desk.openSink
  split
  · exact h
  next i s held =>
    have here := Desk.session?_of_held held
    have step : Store.Step w.desk.store (s.openSink w.desk.store).2 := .openSink _ s
    unfold Session.openSink at step ⊢
    cases excess : w.desk.store.exceedsLimit s.digest with
    | true =>
        rw [excess] at step
        exact h.of_sessions_eq (.single step) rfl (fun _ _ => id) rfl rfl
    | false =>
        refine { h with admitted := fun name j mem => ?_ }
        rcases List.mem_cons.1 mem with eq | mem
        · cases eq
          exact ⟨s, here, excess⟩
        · exact h.admitted name j (List.mem_filter.1 mem).1

theorem Sound.reset (h : w.Sound) (handle : String) : (w.perform (.reset handle)).Sound := by
  unfold perform Desk.perform Desk.reset
  dsimp only
  cases held : w.desk.held? handle with
  | none => exact h
  | some x =>
      obtain ⟨i, s⟩ := x
      have here := Desk.session?_of_held held
      dsimp only
      cases done : s.complete with
      | true =>
          rw [if_pos rfl, Session.reset, if_pos done]
          exact h.of_set here rfl rfl .refl (h.complete i s here) (h.gathered i s here) rfl
            (fun _ _ => rfl) (fun _ => .inl)
      | false =>
          have notDone : ¬ s.complete = true := by
            rw [done]
            exact Bool.false_ne_true
          rw [if_neg Bool.false_ne_true, Session.reset, if_neg notDone]
          refine h.of_set here rfl rfl .refl ?_ ?_ rfl ?_ (fun _ => .inl)
          · exact fun complete => absurd complete notDone
          · exact fun _ => Function.update_self ..
          · exact fun j ne => Function.update_of_ne ne ..

theorem Sound.write (h : w.Sound) (sink : String) (data : ByteArray) :
    (w.perform (.write sink data)).Sound := by
  unfold perform Desk.perform
  dsimp only
  rw [Desk.write_eq]
  cases found : w.desk.target? sink with
  | none => exact h
  | some x =>
      obtain ⟨i, s⟩ := x
      obtain ⟨named, here⟩ := Desk.mem_of_target found
      obtain ⟨t, there, within⟩ := h.admitted sink i named
      cases here.symm.trans there
      have lt : i < w.desk.sessions.length := (List.getElem?_eq_some_iff.1 here).1
      have step : Store.Step w.desk.store (s.append w.desk.store data).2.2 :=
        .append _ s data within
      -- What becomes of the bytes is a matter of the session and the store alone.
      have appends := s.append_appends w.desk.store data
      dsimp only
      generalize s.append w.desk.store data = r at step appends
      cases appends with
      | ignored complete =>
          simp only [noteWrite, if_pos complete]
          exact h.of_set here rfl rfl (.single step) (h.complete i s here) (h.gathered i s here) rfl
            (fun _ _ => rfl) (fun _ => .inl)
      | refused isOpen excess =>
          exact h.of_set here rfl rfl (.single step) (h.complete i s here) (h.gathered i s here) rfl
            (fun _ _ => rfl) (fun _ => .inl)
      | gathered isOpen less =>
          simp only [noteWrite, isOpen, Bool.false_eq_true, if_false, Desk.session?,
            List.getElem?_set_self lt, Option.any_some]
          refine h.of_set here rfl rfl (.single step) nofun ?_ rfl ?_ (fun _ => .inl)
          -- The books gain what the buffer gains.
          · have taken : w.taken i = s.buffer := h.gathered i s here isOpen
            exact fun _ => (Function.update_self ..).trans (congrArg (· ++ data) taken)
          · exact fun j ne => Function.update_of_ne ne ..
      | filled isOpen full same =>
          have there : (w.desk.store.commit s.digest (s.buffer ++ data)).contains s.digest = true :=
            Store.contains_commit _ _ _
          simp only [noteWrite, isOpen, Bool.false_eq_true, if_false, Desk.session?,
            List.getElem?_set_self lt, Option.any_some, if_true]
          refine h.of_set here rfl rfl (.single step) (fun _ => .inr there) nofun rfl
            (fun _ _ => rfl) (fun b mem => ?_)
          -- The deposit is what the session has taken, which is what its buffer held.
          rcases List.mem_cons.1 mem with rfl | mem
          · refine .inr ⟨?_, there⟩
            rw [h.gathered i s here isOpen]
            exact same.symm
          · exact .inl mem
      | lost isOpen full other =>
          refine h.of_set here rfl rfl (.single step) ?_ ?_ rfl ?_ (fun _ => .inl)
          · exact fun complete => absurd complete (Bool.eq_false_iff.1 isOpen)
          · exact fun _ => Function.update_self ..
          · exact fun j ne => Function.update_of_ne ne ..

theorem Sound.perform (h : w.Sound) (c : DeskCall) : (w.perform c).Sound := by
  cases c with
  | put data => exact h.put data
  | get digest =>
      exact h.of_sessions_eq (.single (.get w.desk.store digest)) rfl (fun _ _ => id) rfl rfl
  | openSession handle key => exact h.openSession handle key
  | openSink sink handle => exact h.openSink sink handle
  | write sink data => exact h.write sink data
  | reset handle => exact h.reset handle
  | dropHandle | activeWrites => exact h.of_sessions_eq .refl rfl (fun _ _ => id) rfl rfl
  | dropSink =>
      exact h.of_sessions_eq .refl rfl (fun _ _ mem => (List.mem_filter.1 mem).1) rfl rfl
  | contains | missing | account => exact h

theorem Sound.run (h : w.Sound) (calls : List DeskCall) : (w.run calls).Sound := by
  induction calls generalizing w with
  | nil => exact h
  | cons c calls ih => exact ih (h.perform c)

/-! ### What follows -/

/-- A call only evolves the store. -/
theorem Sound.evolves (h : w.Sound) (c : DeskCall) :
    w.desk.store.Evolves (w.desk.perform c).store := by
  cases c with
  | put data => exact .single (.put w.desk.store data)
  | get digest => exact .single (.get w.desk.store digest)
  | openSession handle key =>
      change w.desk.store.Evolves (w.desk.openSession handle key).store
      unfold Desk.openSession
      dsimp only
      split <;> exact .refl
  | openSink sink handle =>
      change w.desk.store.Evolves (w.desk.openSink sink handle).2.store
      unfold Desk.openSink
      split
      · exact .refl
      next i s _ =>
        have step : Store.Step w.desk.store (s.openSink w.desk.store).2 := .openSink _ s
        dsimp only
        split <;> exact .single step
  | write sink data =>
      change w.desk.store.Evolves (w.desk.write sink data).2.store
      rw [Desk.write_eq]
      cases found : w.desk.target? sink with
      | none => exact .refl
      | some x =>
          obtain ⟨i, s⟩ := x
          obtain ⟨named, here⟩ := Desk.mem_of_target found
          obtain ⟨t, there, within⟩ := h.admitted sink i named
          cases here.symm.trans there
          exact .single (.append w.desk.store s data within)
  | reset handle =>
      change w.desk.store.Evolves (w.desk.reset handle).store
      unfold Desk.reset
      split <;> exact .refl
  | contains | missing | dropHandle | dropSink | activeWrites | account => exact .refl

@[simp] theorem noteWrite_desk (i : Nat) (before : Session) (data : ByteArray)
    (answer : Option (Except IoError Nat)) : (w.noteWrite i before data answer).desk = w.desk := by
  unfold noteWrite
  split
  · dsimp only
    split
    · rfl
    · split <;> rfl
  · split <;> rfl
  · rfl

/-- Going along changes nothing. -/
theorem perform_desk (c : DeskCall) : (w.perform c).desk = w.desk.perform c := by
  cases c with
  | put data =>
      unfold perform
      dsimp only
      split <;> rfl
  | write sink data =>
      unfold perform
      dsimp only
      split
      · exact noteWrite_desk ..
      · rfl
  | reset handle =>
      unfold perform
      dsimp only
      split
      · split <;> rfl
      · rfl
  | get | contains | missing | openSession | openSink | dropHandle | dropSink | activeWrites
  | account => rfl

theorem Sound.evolves_run (h : w.Sound) (calls : List DeskCall) :
    w.desk.store.Evolves (w.run calls).desk.store := by
  induction calls generalizing w with
  | nil => exact .refl
  | cons c calls ih =>
      refine .trans ?_ (ih (h.perform c))
      rw [perform_desk]
      exact h.evolves c

/-- **The integrity of a desk over whole runs.** After any calls on a new desk, what is stored is
genuine and within the limit, what a complete session promises is there, and no call to come takes
anything away. What was put, or taken by a session that it completed, is what any later request
for the digest gets, as long as nothing else in the store has that digest. -/
theorem run_integrity (limit : UInt64) (calls more : List DeskCall) :
    let w := (ofLimit limit).run calls
    let later := w.run more
    (∀ b ∈ w.desk.store.blobs, b.1 = Digest.ofBytes b.2) ∧
    (limit ≠ 0 → ∀ b ∈ w.desk.store.blobs, b.1.size ≤ limit) ∧
    (∀ handle i s, w.desk.held? handle = some (i, s) → s.complete = true →
      s.digest.isEmpty = true ∨ w.desk.store.contains s.digest = true) ∧
    (∀ digest, w.desk.store.contains digest = true →
      later.desk.store.contains digest = true) ∧
    ∀ b ∈ w.deposits, Digest.Distinguishes (b.data :: later.desk.store.blobs.map Prod.snd) →
      (later.desk.store.get b.digest).1 = some b := by
  intro w later
  have sound : w.Sound := (sound_ofLimit limit).run calls
  have evolves : w.desk.store.Evolves later.desk.store := sound.evolves_run more
  have stored := sound.reachable.sound
  refine ⟨stored.genuine, fun limited b mem => ?_, fun handle i s held => ?_,
    fun digest => evolves.contains, fun b mem distinguishes => ?_⟩
  · have limit_eq : w.desk.store.limit = limit :=
      ((sound_ofLimit limit).evolves_run calls).limit_eq
    have within := stored.within b mem
    rw [Store.exceedsLimit, limit_eq, Bool.and_eq_false_iff, decide_eq_false_iff_not,
      decide_eq_false_iff_not] at within
    -- A limit of zero is no limit, so only the second case is left.
    rcases within with none_ | within
    · exact absurd (UInt64.pos_iff_ne_zero.2 limited) none_
    · exact UInt64.not_lt.1 within
  · exact sound.complete i s (Desk.session?_of_held held)
  · obtain ⟨own, there⟩ := sound.deposited b mem
    have found := (evolves.sound stored).get_ofBytes distinguishes
    rw [← own] at found
    exact found (evolves.contains there)

/-- Some content. -/
def sampleBytes : ByteArray := "x".toUTF8

/-- The content is written through a session. -/
def sampleCalls : List DeskCall :=
  [.openSession "handle" ⟨.ofBytes sampleBytes, 0⟩, .openSink "sink" "handle",
    .write "sink" sampleBytes]

theorem sampleCalls_deposits : ((ofLimit 8).run sampleCalls).deposits = [.ofBytes sampleBytes] ∧
    (((ofLimit 8).run sampleCalls).run [.reset "handle"]).desk.store.blobs.map Prod.snd =
      [sampleBytes] := by
  decide +kernel

theorem sampleCalls_integrity :
    ((((ofLimit 8).run sampleCalls).run [.reset "handle"]).desk.store.get
      (.ofBytes sampleBytes)).1 = some (.ofBytes sampleBytes) := by
  refine (run_integrity 8 sampleCalls [.reset "handle"]).2.2.2.2 (.ofBytes sampleBytes) ?_ ?_
  · rw [sampleCalls_deposits.1]
    exact List.mem_singleton_self _
  · rw [sampleCalls_deposits.2]
    intro a ha b hb _
    simp only [Blob.ofBytes, List.mem_cons, List.not_mem_nil, or_false, or_self] at ha hb
    rw [ha, hb]

end Watch

end BuildWorker
