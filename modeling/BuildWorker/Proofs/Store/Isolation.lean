import BuildWorker.Proofs.Store.Keys

/-!
# Sessions do not disturb each other

What a session is, what was answered to writes to it and which names reach it is its `View`. A call
that is on the session's key changes the view in a way that depends on nothing but the view
(`View.step`); of a call on another key, or on none, there matters at most that it takes over the
name of a handle or a sink, which lets go of what the name stood for (`KeyedDesk.part`). This is
said of one call in `KeyedDesk.Sound.view_perform`, and of a run in `KeyedDesk.Sound.view_run`.

So whatever else happens on the desk, the session sees a run of the calls on its own key alone
(`KeyedDesk.run_isolated`).
-/

namespace BuildWorker

/-- What becomes of a session and how the append is answered does not hang on the store. -/
theorem Session.append_store (w : Session) (s t : Store) (data : ByteArray) :
    (w.append s data).1 = (w.append t data).1 ∧ (w.append s data).2.1 = (w.append t data).2.1 := by
  unfold append
  split
  · exact ⟨rfl, rfl⟩
  · split
    · exact ⟨rfl, rfl⟩
    · dsimp only
      split
      · split <;> exact ⟨rfl, rfl⟩
      · exact ⟨rfl, rfl⟩

/-- A session as those see it who use its key. -/
@[ext]
structure View where
  session : Option Session
  /-- The answers to the writes to the session. -/
  answers : List (Except IoError Nat)
  /-- Of a handle on the key, whether it holds this session. -/
  handles : String → Option Bool
  /-- Of a sink on the key, whether it writes to this session. -/
  sinks : String → Option Bool

namespace View

/-- Some handle holds the session, which is not complete. -/
def IsOpen (v : View) : Prop :=
  (∃ name, v.handles name = some true) ∧ ∃ s, v.session = some s ∧ s.complete = false

/-- Bytes reach the session. -/
def append (v : View) (data : ByteArray) : View :=
  match v.session with
  | some s =>
    let (answer, s, _) := s.append (.ofLimit 0) data
    { v with session := some s, answers := v.answers ++ [answer] }
  | none => v

open Classical in
/-- A call on the key, where sinks are refused or not. -/
noncomputable def step (refuses : Bool) (v : View) : AnyCall → View
  | .call (.openSession handle _) =>
    { v with handles := Function.update v.handles handle (some (decide v.IsOpen)) }
  | .call (.openSink sink handle) =>
    if refuses then v else { v with sinks := Function.update v.sinks sink (v.handles handle) }
  | .call (.write sink data) => if v.sinks sink = some true then v.append data else v
  | .call (.reset handle) =>
    if v.handles handle = some true then { v with session := v.session.map Session.reset } else v
  | .call (.dropHandle handle) => { v with handles := Function.update v.handles handle none }
  | .call (.dropSink sink) => { v with sinks := Function.update v.sinks sink none }
  | _ => v

end View

namespace KeyedDesk

/-- Of a session, whether it is the one at a position, if it has the key. -/
def sight (r : KeyedDesk) (key : SessionKey) (i j : Nat) : Option Bool :=
  if r.keys[j]? = some key then some (j == i) else none

/-- The session at a position, as those see it who use its key. -/
def view (r : KeyedDesk) (key : SessionKey) (i : Nat) : View where
  session := r.desk.session? i
  answers := r.answersTo i
  handles name := (r.desk.handles.lookup name).bind (r.sight key i)
  sinks name := (r.desk.sinks.lookup name).bind (r.sight key i)

/-- The key of the session that a handle holds. -/
def handleKey? (r : KeyedDesk) (handle : String) : Option SessionKey :=
  (r.desk.handles.lookup handle).bind (r.keys[·]?)

/-- The key of the session that a sink writes to. -/
def sinkKey? (r : KeyedDesk) (sink : String) : Option SessionKey :=
  (r.desk.sinks.lookup sink).bind (r.keys[·]?)

/-- The key that a call is on. -/
def callKey? (r : KeyedDesk) : AnyCall → Option SessionKey
  | .call (.openSession _ key) => some key
  | .call (.openSink _ handle) | .call (.reset handle) | .call (.dropHandle handle) =>
    r.handleKey? handle
  | .call (.write sink _) | .call (.dropSink sink) => r.sinkKey? sink
  | _ => none

/-- What a call on another key does to a key: it may take over the name of a handle or a sink. -/
def takeover (r : KeyedDesk) (key : SessionKey) : AnyCall → List AnyCall
  | .call (.openSession handle _) =>
    if r.handleKey? handle = some key then [.call (.dropHandle handle)] else []
  | .call (.openSink sink handle) =>
    match (r.desk.openSink sink handle).1 with
    | some (.ok _) => if r.sinkKey? sink = some key then [.call (.dropSink sink)] else []
    | _ => []
  | _ => []

/-- What of a call is on a key. -/
def part (r : KeyedDesk) (key : SessionKey) (c : AnyCall) : List AnyCall :=
  if r.callKey? c = some key then [c] else r.takeover key c

/-- What of some calls is on a key. -/
def own (r : KeyedDesk) (key : SessionKey) : List AnyCall → List AnyCall
  | [] => []
  | c :: calls => r.part key c ++ (r.perform c).own key calls

variable {r : KeyedDesk} {key : SessionKey} {i j : Nat} {answers : List (Nat × Except IoError Nat)}

/-! ### Views of a changed desk -/

theorem sight_eq_none_iff : r.sight key i j = none ↔ r.keys[j]? ≠ some key := by
  simp [sight]

theorem sight_of_key (keyed : r.keys[j]? = some key) : r.sight key i j = some (j == i) :=
  if_pos keyed

theorem sight_eq_some_true_iff (keyed : r.keys[i]? = some key) :
    r.sight key i j = some true ↔ j = i := by
  unfold sight
  constructor
  · intro seen
    split at seen
    · exact eq_of_beq (Option.some.inj seen)
    · cases seen
  · rintro rfl
    rw [if_pos keyed, beq_self_eq_true]

/-- A handle is seen to hold the session when and only when it does. -/
theorem handles_view_eq_some_true_iff (keyed : r.keys[i]? = some key) (handle : String) :
    (r.view key i).handles handle = some true ↔ r.desk.handles.lookup handle = some i := by
  simp only [view, Option.bind_eq_some_iff, sight_eq_some_true_iff keyed, exists_eq_right]

theorem sinks_view_eq_some_true_iff (keyed : r.keys[i]? = some key) (sink : String) :
    (r.view key i).sinks sink = some true ↔ r.desk.sinks.lookup sink = some i := by
  simp only [view, Option.bind_eq_some_iff, sight_eq_some_true_iff keyed, exists_eq_right]

/-- A handle is on a key when and only when those see it who use the key. -/
theorem handles_view_eq_none_iff (handle : String) :
    (r.view key i).handles handle = none ↔ r.handleKey? handle ≠ some key := by
  simp only [view, handleKey?]
  cases r.desk.handles.lookup handle with
  | none => simp
  | some j => exact sight_eq_none_iff

theorem sinks_view_eq_none_iff (sink : String) :
    (r.view key i).sinks sink = none ↔ r.sinkKey? sink ≠ some key := by
  simp only [view, sinkKey?]
  cases r.desk.sinks.lookup sink with
  | none => simp
  | some j => exact sight_eq_none_iff

theorem view_assign_handle (r : KeyedDesk) (key : SessionKey) (i : Nat) (handle : String)
    (j : Nat) :
    ({ r with desk := { r.desk with handles := Desk.assign handle j r.desk.handles } } :
      KeyedDesk).view key i = { r.view key i with
        handles := Function.update (r.view key i).handles handle (r.sight key i j) } := by
  ext1
  · rfl
  · rfl
  · funext name
    simp only [view, Desk.lookup_assign, Function.update_apply]
    split <;> rfl
  · rfl

theorem view_assign_sink (r : KeyedDesk) (key : SessionKey) (i : Nat) (sink : String) (j : Nat) :
    ({ r with desk := { r.desk with sinks := Desk.assign sink j r.desk.sinks } } :
      KeyedDesk).view key i = { r.view key i with
        sinks := Function.update (r.view key i).sinks sink (r.sight key i j) } := by
  ext1
  · rfl
  · rfl
  · rfl
  · funext name
    simp only [view, Desk.lookup_assign, Function.update_apply]
    split <;> rfl

theorem view_dropHandle (r : KeyedDesk) (key : SessionKey) (i : Nat) (handle : String) :
    (r.perform (.call (.dropHandle handle))).view key i = { r.view key i with
      handles := Function.update (r.view key i).handles handle none } := by
  ext1
  · rfl
  · rfl
  · funext name
    simp only [view, perform, Desk.serve, Desk.perform, Desk.dropHandle, Desk.lookup_unassign,
      Function.update_apply]
    split <;> rfl
  · rfl

theorem view_dropSink (r : KeyedDesk) (key : SessionKey) (i : Nat) (sink : String) :
    (r.perform (.call (.dropSink sink))).view key i = { r.view key i with
      sinks := Function.update (r.view key i).sinks sink none } := by
  ext1
  · rfl
  · rfl
  · rfl
  · funext name
    simp only [view, perform, Desk.serve, Desk.perform, Desk.dropSink, Desk.lookup_unassign,
      Function.update_apply]
    split <;> rfl

/-- Of the sessions, only the viewed one matters. -/
theorem view_set (store : Store) {s : Session} (here : r.desk.session? j = some s)
    (s' : Session) :
    ({ r with desk := { r.desk with store, sessions := r.desk.sessions.set j s' } } :
      KeyedDesk).view key i =
        if j = i then { r.view key i with session := some s' } else r.view key i := by
  ext1
  · refine (Desk.session?_set here store s' i).trans ?_
    split <;> rfl
  all_goals split <;> rfl

theorem Sound.isOpen_view_iff (h : r.Sound) (keyed : r.keys[i]? = some key) :
    (r.view key i).IsOpen ↔ (key, i) ∈ r.desk.prune.joinable := by
  rw [h.mem_pruned_iff keyed]
  simp only [View.IsOpen, handles_view_eq_some_true_iff keyed, Desk.held?_eq_some_iff]
  constructor
  · rintro ⟨⟨name, named⟩, s, there, isOpen⟩
    exact ⟨name, s, ⟨named, there⟩, isOpen⟩
  · rintro ⟨name, s, ⟨named, there⟩, isOpen⟩
    exact ⟨⟨name, named⟩, s, there, isOpen⟩

/-- A session that is started has no part in the view of another. -/
theorem Sound.view_concat (h : r.Sound) (keyed : r.keys[i]? = some key) (other : SessionKey)
    (s : Session) (joinable : List (SessionKey × Nat)) :
    (⟨{ r.desk with sessions := r.desk.sessions ++ [s], joinable }, r.keys ++ [other], r.answers⟩ :
      KeyedDesk).view key i = r.view key i := by
  have sight {j : Nat} (lt : j < r.desk.sessions.length) (d' : Desk) :
      (⟨d', r.keys ++ [other], r.answers⟩ : KeyedDesk).sight key i j = r.sight key i j := by
    unfold KeyedDesk.sight
    rw [List.getElem?_append_left (h.length ▸ lt)]
  ext1
  · exact List.getElem?_append_left (h.lt_of_key keyed)
  · rfl
  · funext name
    refine Option.bind_congr fun j named => sight ?_ _
    exact h.handles name j (mem_of_lookup named)
  · funext name
    refine Option.bind_congr fun j named => sight ?_ _
    exact h.sinks name j (mem_of_lookup named)

/-! ### What a call does to a view -/

open Classical in
/-- How an opened session is seen, if by its own key the viewed one is joined when and only when it
is open. -/
theorem sight_of_opened {v : View} {other : SessionKey} (there : r.keys[j]? = some other)
    (joined : other = key → (v.IsOpen ↔ j = i)) :
    r.sight key i j = if other = key then some (decide v.IsOpen) else none := by
  by_cases same : other = key
  · rw [if_pos same, sight_of_key (same ▸ there), decide_eq_decide.2 (joined same)]
    rfl
  · rw [if_neg same, sight_eq_none_iff, there]
    exact fun eq => same (Option.some.inj eq)

open Classical in
/-- Whoever opens a session by the key joins the viewed one if some handle holds it and it is not
complete. -/
theorem Sound.view_openSession (h : r.Sound) (keyed : r.keys[i]? = some key) (handle : String)
    (other : SessionKey) :
    (r.perform (.call (.openSession handle other))).view key i = { r.view key i with
      handles := Function.update (r.view key i).handles handle
        (if other = key then some (decide (r.view key i).IsOpen) else none) } := by
  have opens := r.desk.openSession_opens handle other
  change (⟨r.desk.openSession handle other, r.keysAfter (r.desk.openSession handle other) _, _⟩ :
    KeyedDesk).view key i = _
  generalize r.desk.openSession handle other = d' at opens ⊢
  have pruned := h.prune r.answers
  have open_iff : (r.view key i).IsOpen ↔ r.desk.prune.joinable.lookup key = some i :=
    (h.isOpen_view_iff keyed).trans pruned.lookup_joinable.symm
  cases opens with
  | joins j found =>
      have there : r.keys[j]? = some other := (pruned.current other j (mem_of_lookup found)).1
      have joined (same : other = key) : (r.view key i).IsOpen ↔ j = i := by
        rw [open_iff, ← same, found, Option.some.injEq]
      rw [keysAfter_same]
      · rw [← sight_of_opened there joined]
        exact view_assign_handle r key i handle j
      · rfl
  | starts free =>
      have there : (r.keys ++ [other])[r.desk.sessions.length]? = some other := by
        rw [← h.length, List.getElem?_concat_length]
      have joined (same : other = key) :
          (r.view key i).IsOpen ↔ r.desk.sessions.length = i := by
        rw [open_iff, ← same, free]
        exact iff_of_false nofun (Nat.ne_of_gt (h.lt_of_key keyed))
      rw [keysAfter_starts]
      · let started : KeyedDesk :=
          { r with
            desk := { r.desk with
              sessions := r.desk.sessions ++ [Session.start r.desk.store other.digest]
              joinable :=
                if (Session.start r.desk.store other.digest).complete then r.desk.prune.joinable
                else (other, r.desk.sessions.length) :: r.desk.prune.joinable }
            keys := r.keys ++ [other] }
        have same : started.view key i = r.view key i := h.view_concat keyed other _ _
        have sight : started.sight key i r.desk.sessions.length = _ :=
          sight_of_opened there joined
        rw [← sight, ← same]
        exact view_assign_handle started key i handle r.desk.sessions.length
      · rfl

/-- A sink that is handed out writes to what the handle holds. -/
theorem view_openSink (r : KeyedDesk) (key : SessionKey) (i : Nat) (sink handle : String) :
    (r.perform (.call (.openSink sink handle))).view key i =
      match (r.desk.openSink sink handle).1 with
      | some (.ok _) => { r.view key i with
          sinks := Function.update (r.view key i).sinks sink ((r.view key i).handles handle) }
      | _ => r.view key i := by
  change (⟨(r.desk.openSink sink handle).2, r.keys, r.answers⟩ : KeyedDesk).view key i = _
  rw [Desk.openSink_eq]
  cases held : r.desk.held? handle with
  | none => rfl
  | some found =>
      obtain ⟨j, s⟩ := found
      dsimp only
      cases r.desk.store.exceedsLimit s.digest with
      | true => rfl
      | false =>
          have seen : (r.view key i).handles handle = r.sight key i j := by
            simp only [view, (Desk.held?_eq_some_iff.1 held).1, Option.bind_some]
          rw [seen]
          exact view_assign_sink r key i sink j

theorem perform_write_of_none {sink : String} (target : r.desk.target? sink = none)
    (data : ByteArray) : r.perform (.call (.write sink data)) = r := by
  simp only [perform, Desk.serve_write_of_none target, answersAfter, keysAfter, target]

theorem perform_write_of_some {sink : String} {s : Session}
    (target : r.desk.target? sink = some (j, s)) (data : ByteArray) :
    r.perform (.call (.write sink data)) = { r with
      desk := { r.desk with
        store := (s.append r.desk.store data).2.2
        sessions := r.desk.sessions.set j (s.append r.desk.store data).2.1 }
      answers := r.answers ++ [(j, (s.append r.desk.store data).1)] } := by
  simp only [perform, Desk.serve_write_of_some target, answersAfter, keysAfter, Desk.write_eq,
    target, Option.toList_some, List.map_cons, List.map_nil]

/-- Bytes reach the viewed session through its sinks, and through no other. -/
theorem Sound.view_write (h : r.Sound) (keyed : r.keys[i]? = some key) (sink : String)
    (data : ByteArray) : (r.perform (.call (.write sink data))).view key i =
      if (r.view key i).sinks sink = some true then (r.view key i).append data
      else r.view key i := by
  have seen := sinks_view_eq_some_true_iff keyed sink
  cases target : r.desk.target? sink with
  | none =>
      have elsewhere : r.desk.sinks.lookup sink ≠ some i := fun named => by
        have there : r.desk.session? i = some _ := List.getElem?_eq_getElem (h.lt_of_key keyed)
        rw [Desk.target?_eq_some_iff.2 ⟨named, there⟩] at target
        cases target
      rw [perform_write_of_none target, if_neg (mt seen.1 elsewhere)]
  | some found =>
      obtain ⟨j, s⟩ := found
      obtain ⟨named, here⟩ := Desk.target?_eq_some_iff.1 target
      rw [perform_write_of_some target]
      have lt := Desk.lt_of_session here
      by_cases same : j = i
      · subst same
        rw [if_pos (seen.2 named)]
        obtain ⟨answer, after⟩ := s.append_store r.desk.store (.ofLimit 0) data
        have session : (r.view key j).session = some s := here
        simp only [View.append, session]
        ext1
        · exact (List.getElem?_set_self lt).trans (congrArg some after)
        · simp [view, answersTo, answer]
        · rfl
        · rfl
      · rw [if_neg fun mine => same (Option.some.inj (named.symm.trans (seen.1 mine)))]
        ext1
        · exact List.getElem?_set_ne same
        · simp [view, answersTo, same]
        · rfl
        · rfl

/-- A reset reaches the viewed session through its handles, and through no other. -/
theorem Sound.view_reset (h : r.Sound) (keyed : r.keys[i]? = some key) (handle : String) :
    (r.perform (.call (.reset handle))).view key i =
      if (r.view key i).handles handle = some true then
        { r.view key i with session := (r.view key i).session.map Session.reset }
      else r.view key i := by
  have seen := handles_view_eq_some_true_iff keyed handle
  change (⟨r.desk.reset handle, r.keys, r.answers⟩ : KeyedDesk).view key i = _
  unfold Desk.reset
  cases held : r.desk.held? handle with
  | none =>
      have elsewhere : r.desk.handles.lookup handle ≠ some i := fun named => by
        have there : r.desk.session? i = some _ := List.getElem?_eq_getElem (h.lt_of_key keyed)
        rw [Desk.held?_eq_some_iff.2 ⟨named, there⟩] at held
        cases held
      rw [if_neg (mt seen.1 elsewhere)]
  | some found =>
      obtain ⟨j, s⟩ := found
      obtain ⟨named, here⟩ := Desk.held?_eq_some_iff.1 held
      refine (view_set r.desk.store here s.reset).trans ?_
      by_cases same : j = i
      · subst same
        have session : (r.view key j).session = some s := here
        rw [if_pos rfl, if_pos (seen.2 named), session]
        rfl
      · rw [if_neg same,
          if_neg fun mine => same (Option.some.inj (named.symm.trans (seen.1 mine)))]

/-- A handle on a key holds a session of it, for its digest. -/
theorem Sound.held_of_handleKey (h : r.Sound) {handle : String}
    (mine : r.handleKey? handle = some key) :
    ∃ j s, r.desk.held? handle = some (j, s) ∧ s.digest = key.digest := by
  obtain ⟨j, named, keyed⟩ := Option.bind_eq_some_iff.1 mine
  have there : r.desk.session? j = some _ := List.getElem?_eq_getElem (h.lt_of_key keyed)
  exact ⟨j, _, Desk.held?_eq_some_iff.2 ⟨named, there⟩, h.digest j _ key there keyed⟩

/-- What a call on the key does to the view. -/
theorem Sound.view_perform_of_mine (h : r.Sound) (keyed : r.keys[i]? = some key) {c : AnyCall}
    (mine : r.callKey? c = some key) : (r.perform c).view key i =
      (r.view key i).step (r.desk.store.exceedsLimit key.digest) c := by
  cases c with
  | trust b => cases mine
  | call c =>
      cases c with
      | openSession handle other =>
          obtain rfl : other = key := Option.some.inj mine
          rw [h.view_openSession keyed, if_pos rfl]
          rfl
      | openSink sink handle =>
          obtain ⟨j, s, held, digest⟩ := h.held_of_handleKey mine
          rw [view_openSink, Desk.openSink_eq, held, ← digest]
          dsimp only [View.step]
          cases r.desk.store.exceedsLimit s.digest <;> rfl
      | write sink data => exact h.view_write keyed sink data
      | reset handle => exact h.view_reset keyed handle
      | dropHandle handle => exact view_dropHandle r key i handle
      | dropSink sink => exact view_dropSink r key i sink
      | put | get | contains | missing | activeWrites | account => cases mine

/-- What a call does to the view is what its part on the key does to it. -/
theorem Sound.view_perform (h : r.Sound) (keyed : r.keys[i]? = some key) (c : AnyCall) :
    (r.perform c).view key i =
      (r.part key c).foldl (View.step (r.desk.store.exceedsLimit key.digest)) (r.view key i) := by
  by_cases mine : r.callKey? c = some key
  · rw [part, if_pos mine]
    exact h.view_perform_of_mine keyed mine
  · rw [part, if_neg mine]
    unfold takeover
    cases c with
    | trust b => rfl
    | call c =>
        cases c with
        | openSession handle other =>
            have ne : other ≠ key := fun eq => mine (congrArg some eq)
            rw [h.view_openSession keyed, if_neg ne]
            dsimp only
            split
            · rfl
            next apart =>
              rw [Function.update_eq_self_iff.2 ((handles_view_eq_none_iff handle).2 apart).symm]
              rfl
        | openSink sink handle =>
            -- The handle holds no session of the key, so the sink writes to none.
            rw [view_openSink, (handles_view_eq_none_iff handle).2 mine]
            dsimp only
            split
            · split
              · rfl
              next apart =>
                rw [Function.update_eq_self_iff.2 ((sinks_view_eq_none_iff sink).2 apart).symm]
                rfl
            · rfl
        | write sink data =>
            rw [h.view_write keyed, (sinks_view_eq_none_iff sink).2 mine]
            rfl
        | reset handle =>
            rw [h.view_reset keyed, (handles_view_eq_none_iff handle).2 mine]
            rfl
        | dropHandle handle =>
            rw [view_dropHandle,
              Function.update_eq_self_iff.2 ((handles_view_eq_none_iff handle).2 mine).symm]
            rfl
        | dropSink sink =>
            rw [view_dropSink,
              Function.update_eq_self_iff.2 ((sinks_view_eq_none_iff sink).2 mine).symm]
            rfl
        | put | get | contains | missing | activeWrites | account => rfl

/-! ### Runs -/

theorem keyed_perform (keyed : r.keys[i]? = some key) (c : AnyCall) :
    (r.perform c).keys[i]? = some key := by
  change (r.keysAfter (r.desk.serve c) c)[i]? = some key
  unfold keysAfter
  split
  · split
    · exact keyed
    · exact getElem?_concat_eq_some.2 (.inl keyed)
  · exact keyed

theorem limit_perform (r : KeyedDesk) (c : AnyCall) :
    (r.perform c).desk.store.limit = r.desk.store.limit :=
  (r.desk.serve_serves c).limit

theorem keyed_run (keyed : r.keys[i]? = some key) (calls : List AnyCall) :
    (r.run calls).keys[i]? = some key := by
  induction calls generalizing r with
  | nil => exact keyed
  | cons c calls ih => exact ih (keyed_perform keyed c)

theorem limit_run (r : KeyedDesk) (calls : List AnyCall) :
    (r.run calls).desk.store.limit = r.desk.store.limit := by
  induction calls generalizing r with
  | nil => rfl
  | cons c calls ih => exact (ih (r.perform c)).trans (limit_perform r c)

/-- What a run does to the view is what its part on the key does to it. -/
theorem Sound.view_run (h : r.Sound) (keyed : r.keys[i]? = some key) (calls : List AnyCall) :
    (r.run calls).view key i = (r.own key calls).foldl
      (View.step (r.desk.store.exceedsLimit key.digest)) (r.view key i) := by
  induction calls generalizing r with
  | nil => rfl
  | cons c calls ih =>
      have first := h.view_perform keyed c
      have rest := ih (h.perform c) (keyed_perform keyed c)
      rw [Store.exceedsLimit_congr (limit_perform r c), first] at rest
      exact rest.trans List.foldl_append.symm

/-- Every call is on the key when it is made. -/
def AreOn (r : KeyedDesk) (key : SessionKey) : List AnyCall → Prop
  | [] => True
  | c :: calls => r.callKey? c = some key ∧ (r.perform c).AreOn key calls

theorem areOn_append {calls more : List AnyCall} :
    r.AreOn key (calls ++ more) ↔ r.AreOn key calls ∧ (r.run calls).AreOn key more := by
  induction calls generalizing r with
  | nil => exact (iff_of_eq (true_and _)).symm
  | cons c calls ih =>
      exact (and_congr_right fun _ => ih).trans and_assoc.symm

theorem own_of_areOn {calls : List AnyCall} (on : r.AreOn key calls) :
    r.own key calls = calls := by
  induction calls generalizing r with
  | nil => rfl
  | cons c calls ih => rw [own, part, if_pos on.1, ih on.2, List.singleton_append]

variable {o : KeyedDesk}

/-- Which handles are on a key can be told from a view. -/
theorem handleKey?_of_view (same : o.view key i = r.view key i) {handle : String}
    (mine : r.handleKey? handle = some key) : o.handleKey? handle = some key := by
  by_contra other
  rw [← ne_eq, ← handles_view_eq_none_iff (i := i), same] at other
  exact (handles_view_eq_none_iff handle).1 other mine

theorem sinkKey?_of_view (same : o.view key i = r.view key i) {sink : String}
    (mine : r.sinkKey? sink = some key) : o.sinkKey? sink = some key := by
  by_contra other
  rw [← ne_eq, ← sinks_view_eq_none_iff (i := i), same] at other
  exact (sinks_view_eq_none_iff sink).1 other mine

/-- The part of a call on a key is on the key also where nothing but the view is the same. -/
theorem areOn_part (same : o.view key i = r.view key i) (c : AnyCall) :
    o.AreOn key (r.part key c) := by
  unfold part
  split
  next mine =>
    refine ⟨?_, trivial⟩
    cases c with
    | trust b => cases mine
    | call c =>
        cases c with
        | openSession handle other => exact mine
        | openSink sink handle | reset handle | dropHandle handle =>
            exact handleKey?_of_view same mine
        | write sink data | dropSink sink => exact sinkKey?_of_view same mine
        | put | get | contains | missing | activeWrites | account => cases mine
  next =>
    unfold takeover
    split
    · split
      next mine => exact ⟨handleKey?_of_view same mine, trivial⟩
      next => trivial
    · split
      · split
        next mine => exact ⟨sinkKey?_of_view same mine, trivial⟩
        next => trivial
      · trivial
    · trivial

/-- The part of a run on a key is on the key also where nothing but the view is the same. -/
theorem Sound.areOn_own (h : r.Sound) (ho : o.Sound) (keyed : r.keys[i]? = some key)
    (keyedO : o.keys[i]? = some key) (limit : o.desk.store.limit = r.desk.store.limit)
    (same : o.view key i = r.view key i) (calls : List AnyCall) :
    o.AreOn key (r.own key calls) := by
  induction calls generalizing r o with
  | nil => trivial
  | cons c calls ih =>
      have on := areOn_part same c
      refine areOn_append.2 ⟨on,
        ih (h.perform c) (ho.run _) (keyed_perform keyed c) (keyed_run keyedO _) ?_ ?_⟩
      · rw [limit_run, limit_perform, limit]
      · rw [ho.view_run keyedO, own_of_areOn on, same, Store.exceedsLimit_congr limit,
          h.view_perform keyed]

/-- A call that is on another key, or on none, leaves the session as it is. -/
theorem Sound.session?_perform (h : r.Sound) (keyed : r.keys[i]? = some key) {c : AnyCall}
    (other : r.callKey? c ≠ some key) :
    (r.perform c).desk.session? i = r.desk.session? i := by
  have seen := h.view_perform keyed c
  rw [part, if_neg other] at seen
  refine (congrArg View.session seen).trans ?_
  unfold takeover
  split
  · split <;> rfl
  · split
    · split <;> rfl
    · rfl
  · rfl

/-- **Sessions do not disturb each other.** After any calls on a new desk, every session has the key
by which it was started. While a handle holds a session that is not complete, whoever opens a
session by its key joins it, and both handles hold the same session until they are renamed. A call
on another key, or on none, leaves a session as it is. Of whatever is called later, the session sees
what is on its own key: were only that called, which is all on that key, then the session and the
answers to all writes to it would be the same. The sessions that can be joined are as many as there
are keys whose current session is held and not complete. -/
theorem run_isolated (limit : UInt64) (calls : List AnyCall) :
    let r := (ofLimit limit).run calls
    r.keys.length = r.desk.sessions.length ∧
    (∀ i key, r.keys[i]? = some key →
      (∀ handle s, r.desk.held? handle = some (i, s) → s.complete = false → ∀ other,
        let joined := r.perform (.call (.openSession other key))
        joined.desk.sessions = r.desk.sessions ∧ joined.desk.held? other = some (i, s) ∧
        ∀ more, (∀ c ∈ more, ¬ c.Renames handle ∧ ¬ c.Renames other) →
          (joined.run more).desk.held? handle = (joined.run more).desk.held? other) ∧
      (∀ c, r.callKey? c ≠ some key → (r.perform c).desk.session? i = r.desk.session? i) ∧
      ∀ more, r.AreOn key (r.own key more) ∧
        (r.run (r.own key more)).desk.session? i = (r.run more).desk.session? i ∧
        (r.run (r.own key more)).answersTo i = (r.run more).answersTo i) ∧
    ∃ active : Finset SessionKey, (∀ key, key ∈ active ↔ r.IsActive key) ∧
      r.desk.activeWrites.1 = active.card := by
  intro r
  have sound : r.Sound := (sound_ofLimit limit).run calls
  refine ⟨sound.length, fun i key keyed => ⟨fun handle s held isOpen other => ?_,
    fun c other => sound.session?_perform keyed other, fun more => ?_⟩,
    sound.activeWrites_eq_card⟩
  · intro joined
    have desk : joined.desk = _ := sound.openSession_of_held held isOpen keyed other
    obtain ⟨named, there⟩ := Desk.held?_eq_some_iff.1 held
    have otherNamed : joined.desk.handles.lookup other = some i := by
      rw [desk, Desk.lookup_assign, if_pos rfl]
    have stillNamed : joined.desk.handles.lookup handle = some i := by
      rw [desk, Desk.lookup_assign, named, ite_self]
    refine ⟨by rw [desk]; rfl, Desk.held?_eq_some_iff.2 ⟨otherNamed, by rw [desk]; exact there⟩,
      fun more kept => ?_⟩
    have later : (joined.desk.serveAll more).handles.lookup handle = _ :=
      Desk.lookup_handles_serveAll fun c mem => (kept c mem).1
    have otherLater : (joined.desk.serveAll more).handles.lookup other = _ :=
      Desk.lookup_handles_serveAll fun c mem => (kept c mem).2
    rw [run_desk, Desk.held?, Desk.held?, later, otherLater, stillNamed, otherNamed]
  · have on := sound.areOn_own sound keyed keyed rfl rfl more
    have same : (r.run (r.own key more)).view key i = (r.run more).view key i := by
      rw [sound.view_run keyed, own_of_areOn on, sound.view_run keyed]
    exact ⟨on, congrArg View.session same, congrArg View.answers same⟩

/-- The key of a session for some content. -/
def sampleKey (number : Nat) : SessionKey := ⟨.ofBytes Watch.sampleBytes, number⟩

/-- Two sessions for the same content, with a sink each. -/
def sampleOpenings : List AnyCall :=
  [.call (.openSession "a" (sampleKey 0)), .call (.openSession "b" (sampleKey 1)),
    .call (.openSink "x" "a"), .call (.openSink "y" "b")]

/-- One of them is joined; the other is written to, and so completed. -/
theorem sampleOpenings_isolated :
    let r := (ofLimit 0).run sampleOpenings
    let s : Session := { digest := .ofBytes Watch.sampleBytes, complete := false }
    let write : AnyCall := .call (.write "y" Watch.sampleBytes)
    let others := [write, .call (.write "x" .empty), .call (.reset "b")]
    (r.perform (.call (.openSession "c" (sampleKey 0)))).desk.held? "c" = some (0, s) ∧
    (r.perform write).desk.session? 0 = some s ∧
    (r.own (sampleKey 0) others).length = 1 ∧
    (r.run (r.own (sampleKey 0) others)).answersTo 0 = (r.run others).answersTo 0 ∧
    r.desk.activeWrites.1 = 2 := by
  intro r s write others
  obtain ⟨-, isolated, -⟩ := run_isolated 0 sampleOpenings
  have keyed : r.keys[0]? = some (sampleKey 0) := by decide +kernel
  have held : r.desk.held? "a" = some (0, s) := by decide +kernel
  obtain ⟨joins, apart, own⟩ := isolated 0 (sampleKey 0) keyed
  refine ⟨(joins "a" s held rfl "c").2.1, (apart write ?_).trans ?_, ?_, (own others).2.2, ?_⟩
  all_goals decide +kernel

end KeyedDesk

end BuildWorker
