import BuildWorker.Proofs.Store.Run

/-!
# Calls that put anything

A store takes the digest of a blob on trust. `DeskCall` puts content under its own digest only;
`AnyCall` also puts content under any other. Runs of such calls are what the statements about
presence, counts and sessions are about: none of them hangs on a digest being true.

All that a call can do to a desk, apart from its store, is said once, in `Desk.Serves`. An opened
session is joined or started (`Desk.Opens`); bytes and resets reach one session; names are given and
taken away.
-/

namespace BuildWorker

/-- A call of anyone. -/
inductive AnyCall
  | call (c : DeskCall)
  /-- Store a blob under the digest that it comes with. -/
  | trust (b : Blob)

/-! ### Limits, and complete sessions -/

namespace Store

theorem limit_put (s : Store) (b : Blob) : (s.put b).2.limit = s.limit := by
  unfold put
  split <;> rfl

theorem limit_get (s : Store) (d : Digest) : (s.get d).2.limit = s.limit := by
  unfold get
  split <;> rfl

end Store

namespace Session

theorem limit_append (w : Session) (s : Store) (data : ByteArray) :
    (w.append s data).2.2.limit = s.limit := by
  have appends := w.append_appends s data
  generalize w.append s data = r at appends ⊢
  cases appends <;> rfl

/-- A session that is not complete after an append was not complete before. -/
theorem isOpen_of_append {w : Session} {s : Store} {data : ByteArray}
    (isOpen : (w.append s data).2.1.complete = false) : w.complete = false := by
  have appends := w.append_appends s data
  generalize w.append s data = r at appends isOpen
  cases appends with
  | ignored => exact isOpen
  | refused before | gathered before | filled before | lost before => exact before

@[simp] theorem complete_reset (w : Session) : w.reset.complete = w.complete := by
  unfold reset
  split <;> rfl

end Session

/-- A call that gives the name of a handle another meaning, or none. -/
def AnyCall.Renames (name : String) : AnyCall → Prop
  | .call (.openSession handle _) | .call (.dropHandle handle) => handle = name
  | _ => False

namespace Desk

/-- What a call makes of the desk. -/
def serve (d : Desk) : AnyCall → Desk
  | .call c => d.perform c
  | .trust b => (d.put b).2

/-- What calls make of the desk, one after the other. -/
def serveAll (d : Desk) (calls : List AnyCall) : Desk := calls.foldl serve d

/-! ### Names -/

section

variable {α : Type} (name k : String) (a : α) (table : List (String × α))

theorem lookup_unassign :
    (unassign name table).lookup k = if k = name then none else table.lookup k := by
  induction table with
  | nil => simp [unassign]
  | cons entry rest ih => grind [unassign]

theorem lookup_assign :
    (assign name a table).lookup k = if k = name then some a else table.lookup k := by
  have rest := lookup_unassign name k table
  rw [unassign] at rest
  rw [assign, List.lookup_cons, rest]
  by_cases same : k = name
  · simp [same]
  · have apart : (k == name) = false := beq_eq_false_iff_ne.2 same
    simp [same, apart]

end

theorem held?_eq_some_iff {d : Desk} {handle : String} {i : Nat} {s : Session} :
    d.held? handle = some (i, s) ↔ d.handles.lookup handle = some i ∧ d.session? i = some s := by
  simp [held?, Option.bind_eq_some_iff]

theorem target?_eq_some_iff {d : Desk} {sink : String} {i : Nat} {s : Session} :
    d.target? sink = some (i, s) ↔ d.sinks.lookup sink = some i ∧ d.session? i = some s := by
  simp [target?, Option.bind_eq_some_iff]

theorem lt_of_session {d : Desk} {i : Nat} {s : Session} (there : d.session? i = some s) :
    i < d.sessions.length :=
  (List.getElem?_eq_some_iff.1 there).1

/-- Only the session that is replaced is another one. -/
theorem session?_set {d : Desk} {i : Nat} {s : Session} (here : d.session? i = some s)
    (store : Store) (s' : Session) (j : Nat) :
    ({ d with store, sessions := d.sessions.set i s' } : Desk).session? j =
      if i = j then some s' else d.session? j := by
  split
  next same =>
    subst same
    exact List.getElem?_set_self (lt_of_session here)
  next other => exact List.getElem?_set_ne other

/-! ### Single calls -/

/-- How a session is opened. -/
inductive Opens (d : Desk) (handle : String) (key : SessionKey) : Desk → Prop
  /-- A session that can be joined is joined. -/
  | joins (i : Nat) (found : d.prune.joinable.lookup key = some i) :
      Opens d handle key { d.prune with handles := assign handle i d.handles }
  /-- Otherwise a session is started, which can be joined unless it is complete. -/
  | starts (free : d.prune.joinable.lookup key = none) :
      Opens d handle key { d.prune with
        sessions := d.sessions ++ [Session.start d.store key.digest]
        joinable :=
          if (Session.start d.store key.digest).complete then d.prune.joinable
          else (key, d.sessions.length) :: d.prune.joinable
        handles := assign handle d.sessions.length d.handles }

theorem openSession_opens (d : Desk) (handle : String) (key : SessionKey) :
    d.Opens handle key (d.openSession handle key) := by
  unfold openSession
  dsimp only
  split
  next i found => exact .joins i found
  next free => exact .starts free

theorem Opens.store {d d' : Desk} {handle : String} {key : SessionKey}
    (h : d.Opens handle key d') : d'.store = d.store := by
  cases h <;> rfl

/-- A sink is handed out unless the content is above the limit. -/
theorem openSink_eq (d : Desk) (sink handle : String) :
    d.openSink sink handle = match d.held? handle with
      | some (i, s) =>
        if d.store.exceedsLimit s.digest then
          (some (.error (.entryLimit s.digest)), { d with store := d.store.record .rejected })
        else (some (.ok ()), { d with sinks := assign sink i d.sinks })
      | none => (none, d) := by
  unfold openSink Session.openSink
  cases d.held? handle with
  | none => rfl
  | some held =>
      obtain ⟨i, s⟩ := held
      dsimp only
      cases d.store.exceedsLimit s.digest <;> rfl

theorem serve_write_of_none {d : Desk} {sink : String} (target : d.target? sink = none)
    (data : ByteArray) : d.serve (.call (.write sink data)) = d := by
  simp only [serve, perform, write_eq, target]

theorem serve_write_of_some {d : Desk} {sink : String} {i : Nat} {s : Session}
    (target : d.target? sink = some (i, s)) (data : ByteArray) :
    d.serve (.call (.write sink data)) = { d with
      store := (s.append d.store data).2.2
      sessions := d.sessions.set i (s.append d.store data).2.1 } := by
  simp only [serve, perform, write_eq, target]

/-- What a call does to a desk. The store only has to keep its limit. -/
inductive Serves (d : Desk) : AnyCall → Desk → Prop
  /-- At most the store takes part. -/
  | stores (c : AnyCall) (store : Store) (limit : store.limit = d.store.limit) :
      Serves d c { d with store }
  /-- The sessions that can be joined are counted. -/
  | prunes : Serves d (.call .activeWrites) d.prune
  | opens {handle : String} {key : SessionKey} {d' : Desk} (opens : d.Opens handle key d') :
      Serves d (.call (.openSession handle key)) d'
  /-- A sink of a session is handed out. -/
  | admits (sink : String) {handle : String} {i : Nat} {s : Session}
      (held : d.held? handle = some (i, s)) (within : d.store.exceedsLimit s.digest = false) :
      Serves d (.call (.openSink sink handle)) { d with sinks := assign sink i d.sinks }
  /-- Bytes reach a session. -/
  | writes {sink : String} {i : Nat} {s : Session} (data : ByteArray)
      (target : d.target? sink = some (i, s)) :
      Serves d (.call (.write sink data)) { d with
        store := (s.append d.store data).2.2
        sessions := d.sessions.set i (s.append d.store data).2.1 }
  | resets {handle : String} {i : Nat} {s : Session} (held : d.held? handle = some (i, s)) :
      Serves d (.call (.reset handle)) { d with sessions := d.sessions.set i s.reset }
  /-- A handle is let go of. -/
  | dropsHandle (handle : String) :
      Serves d (.call (.dropHandle handle)) { d with handles := unassign handle d.handles }
  | dropsSink (sink : String) :
      Serves d (.call (.dropSink sink)) { d with sinks := unassign sink d.sinks }

theorem serve_serves (d : Desk) (c : AnyCall) : d.Serves c (d.serve c) := by
  cases c with
  | trust b => exact .stores _ _ (Store.limit_put d.store b)
  | call c =>
      cases c with
      | put data => exact .stores _ _ (Store.limit_put d.store _)
      | get digest => exact .stores _ _ (Store.limit_get d.store digest)
      | contains | missing | account => exact .stores _ d.store rfl
      | openSession handle key => exact .opens (d.openSession_opens handle key)
      | openSink sink handle =>
          change d.Serves _ (d.openSink sink handle).2
          rw [openSink_eq]
          cases held : d.held? handle with
          | none => exact .stores _ d.store rfl
          | some found =>
              obtain ⟨i, s⟩ := found
              dsimp only
              cases excess : d.store.exceedsLimit s.digest with
              | true => exact .stores _ _ rfl
              | false => exact .admits sink held excess
      | write sink data =>
          cases target : d.target? sink with
          | none =>
              rw [serve_write_of_none target]
              exact .stores _ d.store rfl
          | some found =>
              rw [serve_write_of_some target]
              exact .writes data target
      | reset handle =>
          change d.Serves _ (d.reset handle)
          unfold reset
          cases held : d.held? handle with
          | none => exact .stores _ d.store rfl
          | some found => exact .resets held
      | dropHandle handle => exact .dropsHandle handle
      | dropSink sink => exact .dropsSink sink
      | activeWrites => exact .prunes

variable {d d' : Desk} {c : AnyCall}

theorem Serves.limit (h : d.Serves c d') : d'.store.limit = d.store.limit := by
  cases h with
  | stores c store limit => exact limit
  | writes data => exact Session.limit_append _ _ data
  | opens opens => exact congrArg Store.limit opens.store
  | prunes | admits | resets | dropsHandle | dropsSink => rfl

/-- A complete session stays so. -/
theorem Serves.complete (h : d.Serves c d') {i : Nat} {s : Session} (there : d.session? i = some s)
    (done : s.complete = true) : ∃ s', d'.session? i = some s' ∧ s'.complete = true := by
  -- Where one session is replaced, only that one has to be looked at.
  have set {j : Nat} {t t' : Session} (store : Store) (here : d.session? j = some t)
      (stays : t.complete = true → t'.complete = true) :
      ∃ s', ({ d with store, sessions := d.sessions.set j t' } : Desk).session? i = some s' ∧
        s'.complete = true := by
    rw [session?_set here]
    split
    next same =>
      subst same
      cases here.symm.trans there
      exact ⟨t', rfl, stays done⟩
    next => exact ⟨s, there, done⟩
  cases h with
  | opens opens =>
      cases opens with
      | joins => exact ⟨s, there, done⟩
      | starts => exact ⟨s, getElem?_concat_eq_some.2 (.inl there), done⟩
  | writes data target =>
      refine set _ (target?_eq_some_iff.1 target).2 fun complete => ?_
      rw [← Bool.not_eq_false] at complete ⊢
      exact mt Session.isOpen_of_append complete
  | resets held => exact set _ (held?_eq_some_iff.1 held).2 (Session.complete_reset _).trans
  | stores | prunes | admits | dropsHandle | dropsSink => exact ⟨s, there, done⟩

theorem Serves.lookup_handles (h : d.Serves c d') {name : String} (kept : ¬ c.Renames name) :
    d'.handles.lookup name = d.handles.lookup name := by
  cases h with
  | opens opens =>
      cases opens <;> exact (lookup_assign ..).trans (if_neg (Ne.symm kept))
  | dropsHandle handle => exact (lookup_unassign ..).trans (if_neg (Ne.symm kept))
  | stores | prunes | admits | writes | resets | dropsSink => rfl

theorem lookup_handles_serveAll {calls : List AnyCall} {name : String}
    (kept : ∀ c ∈ calls, ¬ c.Renames name) :
    (d.serveAll calls).handles.lookup name = d.handles.lookup name := by
  induction calls generalizing d with
  | nil => rfl
  | cons c calls ih =>
      obtain ⟨first, rest⟩ := List.forall_mem_cons.1 kept
      exact (ih rest).trans ((d.serve_serves c).lookup_handles first)

end Desk

end BuildWorker
