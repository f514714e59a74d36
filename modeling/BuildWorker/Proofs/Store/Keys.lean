import BuildWorker.Proofs.Store.Calls
import Mathlib.Data.Finset.Card

/-!
# Sessions and their keys

A session does not know by which key it was opened; a `KeyedDesk` goes along with a desk and notes
it, and how the writes to each session were answered. The invariant `KeyedDesk.Sound` ties the table
of sessions that can be joined to the handles: a session that is held and not complete stands there
under its key, no key stands there twice, and what stands there is the last session of its key.

So the sessions that can be joined, once the table is pruned, are for each key the current session
if it is held and not complete (`KeyedDesk.Sound.mem_pruned_iff`).
-/

namespace BuildWorker

/-- A desk, and what is known of the sessions on it. -/
structure KeyedDesk where
  desk : Desk
  /-- The key of each session. -/
  keys : List SessionKey := []
  /-- The answers to all writes, each with the session that was written to. -/
  answers : List (Nat × Except IoError Nat) := []

namespace KeyedDesk

/-- A new desk. -/
def ofLimit (limit : UInt64) : KeyedDesk := { desk := .ofLimit limit }

/-- The keys after a call that made a desk of the desk: a session that was started has the key by
which it was opened. -/
def keysAfter (r : KeyedDesk) (d' : Desk) : AnyCall → List SessionKey
  | .call (.openSession _ key) =>
    if d'.sessions.length = r.desk.sessions.length then r.keys else r.keys ++ [key]
  | _ => r.keys

/-- The answers after a call. -/
def answersAfter (r : KeyedDesk) : AnyCall → List (Nat × Except IoError Nat)
  | .call (.write sink data) =>
    match r.desk.target? sink with
    | some (i, _) => r.answers ++ (r.desk.write sink data).1.toList.map (i, ·)
    | none => r.answers
  | _ => r.answers

/-- A call. -/
def perform (r : KeyedDesk) (c : AnyCall) : KeyedDesk where
  desk := r.desk.serve c
  keys := r.keysAfter (r.desk.serve c) c
  answers := r.answersAfter c

/-- The answers to the writes to a session. -/
def answersTo (r : KeyedDesk) (i : Nat) : List (Except IoError Nat) :=
  (r.answers.filter (·.1 == i)).map Prod.snd

/-- Any number of calls. -/
def run (r : KeyedDesk) (calls : List AnyCall) : KeyedDesk := calls.foldl perform r

theorem keysAfter_same {r : KeyedDesk} {d' : Desk}
    (length : d'.sessions.length = r.desk.sessions.length) (c : AnyCall) :
    r.keysAfter d' c = r.keys := by
  unfold keysAfter
  split
  · exact if_pos length
  · rfl

theorem keysAfter_starts {r : KeyedDesk} {d' : Desk} {s : Session}
    (sessions : d'.sessions = r.desk.sessions ++ [s]) (handle : String) (key : SessionKey) :
    r.keysAfter d' (.call (.openSession handle key)) = r.keys ++ [key] :=
  if_neg (by simp [sessions])

/-- The session is the last one of its key. -/
def IsCurrent (r : KeyedDesk) (key : SessionKey) (i : Nat) : Prop :=
  r.keys[i]? = some key ∧ ∀ j, i < j → r.keys[j]? ≠ some key

/-- What holds at all times. -/
structure Sound (r : KeyedDesk) : Prop where
  length : r.keys.length = r.desk.sessions.length
  digest : ∀ i s key, r.desk.session? i = some s → r.keys[i]? = some key → s.digest = key.digest
  /-- No handle has two entries. -/
  named : (r.desk.handles.map Prod.fst).Nodup
  handles : ∀ name i, (name, i) ∈ r.desk.handles → i < r.desk.sessions.length
  sinks : ∀ name i, (name, i) ∈ r.desk.sinks → i < r.desk.sessions.length
  /-- No key can be joined twice. -/
  keyed : (r.desk.joinable.map Prod.fst).Nodup
  current : ∀ key i, (key, i) ∈ r.desk.joinable → r.IsCurrent key i
  /-- Sessions that are held and not complete can be joined. -/
  joinable : ∀ name i s key, (name, i) ∈ r.desk.handles → r.desk.session? i = some s →
    s.complete = false → r.keys[i]? = some key → (key, i) ∈ r.desk.joinable

theorem sound_ofLimit (limit : UInt64) : (ofLimit limit).Sound where
  length := rfl
  digest := nofun
  named := .nil
  handles := nofun
  sinks := nofun
  keyed := .nil
  current := nofun
  joinable := nofun

variable {r : KeyedDesk} {d' : Desk} {answers : List (Nat × Except IoError Nat)}

/-! ### Every call preserves it -/

/-- A call that starts no session, reopens none, and leaves handles and the table as they are or
takes some handles away. -/
theorem Sound.frame (h : r.Sound) (length : d'.sessions.length = r.desk.sessions.length)
    (sessions : ∀ i s, d'.session? i = some s → ∃ before, r.desk.session? i = some before ∧
      s.digest = before.digest ∧ (s.complete = false → before.complete = false))
    (joinable : d'.joinable = r.desk.joinable) (handles : d'.handles.Sublist r.desk.handles)
    (sinks : ∀ name i, (name, i) ∈ d'.sinks → i < r.desk.sessions.length) :
    (⟨d', r.keys, answers⟩ : KeyedDesk).Sound where
  length := h.length.trans length.symm
  digest i s key there keyed := by
    obtain ⟨before, there, digest, -⟩ := sessions i s there
    exact digest.trans (h.digest i before key there keyed)
  named := (handles.map Prod.fst).nodup h.named
  handles name i mem := length ▸ h.handles name i (handles.subset mem)
  sinks name i mem := length ▸ sinks name i mem
  keyed := joinable ▸ h.keyed
  current key i mem := h.current key i (joinable ▸ mem)
  joinable name i s key mem there isOpen keyed := by
    obtain ⟨before, there, -, reopens⟩ := sessions i s there
    exact joinable ▸ h.joinable name i before key (handles.subset mem) there (reopens isOpen) keyed

/-- A call that reaches one session, which stays complete if it is. -/
theorem Sound.set (h : r.Sound) {i : Nat} {s s' : Session} (store : Store)
    (here : r.desk.session? i = some s) (digest : s'.digest = s.digest)
    (reopens : s'.complete = false → s.complete = false) :
    (⟨{ r.desk with store, sessions := r.desk.sessions.set i s' }, r.keys, answers⟩ :
      KeyedDesk).Sound := by
  refine h.frame List.length_set (fun j t there => ?_) rfl (.refl _) h.sinks
  rw [Desk.session?_set here] at there
  split at there
  next same =>
    subst same
    cases there
    exact ⟨s, here, digest, reopens⟩
  next => exact ⟨t, there, rfl, id⟩

theorem Sound.prune (h : r.Sound) (answers : List (Nat × Except IoError Nat)) :
    (⟨r.desk.prune, r.keys, answers⟩ : KeyedDesk).Sound := by
  refine { h with
    keyed := (List.filter_sublist.map Prod.fst).nodup h.keyed
    current := fun key i mem => h.current key i (List.mem_filter.1 mem).1
    joinable := fun name i s key mem there isOpen keyed => ?_ }
  have held : r.desk.handles.any (·.2 == i) = true :=
    List.any_eq_true.2 ⟨_, mem, beq_self_eq_true i⟩
  have here : (r.desk.session? i).any (fun w => !w.complete) = true := by
    change r.desk.session? i = some s at there
    rw [there]
    simp [isOpen]
  refine List.mem_filter.2 ⟨h.joinable name i s key mem there isOpen keyed, ?_⟩
  exact Bool.and_eq_true_iff.2 ⟨held, here⟩

theorem nodup_assign {handles : List (String × Nat)} (named : (handles.map Prod.fst).Nodup)
    (handle : String) (i : Nat) : ((Desk.assign handle i handles).map Prod.fst).Nodup := by
  refine List.nodup_cons.2 ⟨fun mem => ?_, (List.filter_sublist.map Prod.fst).nodup named⟩
  obtain ⟨entry, kept, eq⟩ := List.mem_map.1 mem
  exact bne_iff_ne.1 (List.mem_filter.1 kept).2 eq

theorem mem_assign {table : List (String × Nat)} {handle name : String} {i j : Nat}
    (mem : (name, j) ∈ Desk.assign handle i table) : j = i ∨ (name, j) ∈ table := by
  rcases List.mem_cons.1 mem with eq | mem
  · cases eq
    exact .inl rfl
  · exact .inr (List.mem_filter.1 mem).1

theorem Sound.lookup_joinable (h : r.Sound) {key : SessionKey} {i : Nat} :
    r.desk.joinable.lookup key = some i ↔ (key, i) ∈ r.desk.joinable :=
  lookup_eq_some_iff_mem h.keyed

theorem Sound.lt_of_key (h : r.Sound) {i : Nat} {key : SessionKey}
    (keyed : r.keys[i]? = some key) : i < r.desk.sessions.length :=
  h.length ▸ (List.getElem?_eq_some_iff.1 keyed).1

/-- A session is joined, which has a handle more. -/
theorem Sound.joins (h : r.Sound) {key : SessionKey} {i : Nat}
    (found : (key, i) ∈ r.desk.joinable) (handle : String) :
    (⟨{ r.desk with handles := Desk.assign handle i r.desk.handles }, r.keys, answers⟩ :
      KeyedDesk).Sound := by
  have keyed : r.keys[i]? = some key := (h.current key i found).1
  have lt := h.lt_of_key keyed
  refine { h with
    named := nodup_assign h.named handle i
    handles := fun name j mem => ?_
    joinable := fun name j s key' mem there isOpen keyed' => ?_ }
  · rcases mem_assign mem with rfl | mem
    · exact lt
    · exact h.handles name j mem
  · rcases mem_assign mem with rfl | mem
    · cases keyed.symm.trans keyed'
      exact found
    · exact h.joinable name j s key' mem there isOpen keyed'

/-- A session that is started is the current one of its key, and others stay what they are. -/
theorem Sound.isCurrent_concat (h : r.Sound) (key : SessionKey) :
    ({ r with keys := r.keys ++ [key] } : KeyedDesk).IsCurrent key r.desk.sessions.length ∧
    ∀ other i, other ≠ key → r.IsCurrent other i →
      ({ r with keys := r.keys ++ [key] } : KeyedDesk).IsCurrent other i := by
  rw [← h.length]
  refine ⟨⟨List.getElem?_concat_length, fun j lt keyed => ?_⟩, fun other i ne current =>
    ⟨getElem?_concat_eq_some.2 (.inl current.1), fun j lt keyed => ?_⟩⟩
  · have before := (List.getElem?_eq_some_iff.1 keyed).1
    rw [List.length_append, List.length_singleton] at before
    omega
  · rcases getElem?_concat_eq_some.1 keyed with keyed | ⟨-, eq⟩
    · exact current.2 j lt keyed
    · exact ne eq

/-- A session is started behind all others. -/
theorem Sound.starts (h : r.Sound) {key : SessionKey} {s : Session}
    (free : ∀ i, (key, i) ∉ r.desk.joinable) (digest : s.digest = key.digest) (handle : String) :
    (⟨{ r.desk with
        sessions := r.desk.sessions ++ [s]
        joinable :=
          if s.complete then r.desk.joinable
          else (key, r.desk.sessions.length) :: r.desk.joinable
        handles := Desk.assign handle r.desk.sessions.length r.desk.handles },
      r.keys ++ [key], answers⟩ : KeyedDesk).Sound := by
  have longer : (r.desk.sessions ++ [s]).length = r.desk.sessions.length + 1 :=
    List.length_append
  -- What is found at a position was found before, or all of it is new.
  have found {i : Nat} {t : Session} {key' : SessionKey}
      (there : (r.desk.sessions ++ [s])[i]? = some t) (keyed : (r.keys ++ [key])[i]? = some key') :
      r.desk.session? i = some t ∧ r.keys[i]? = some key' ∨
        i = r.desk.sessions.length ∧ t = s ∧ key' = key := by
    rcases getElem?_concat_eq_some.1 there with there | ⟨rfl, rfl⟩
    · rcases getElem?_concat_eq_some.1 keyed with keyed | ⟨rfl, -⟩
      · exact .inl ⟨there, keyed⟩
      · exact absurd (Desk.lt_of_session there) (h.length ▸ Nat.lt_irrefl _)
    · rcases getElem?_concat_eq_some.1 keyed with keyed | ⟨-, eq⟩
      · exact absurd (h.lt_of_key keyed) (Nat.lt_irrefl _)
      · exact .inr ⟨rfl, rfl, eq⟩
  obtain ⟨isCurrent, current⟩ := h.isCurrent_concat key
  refine {
    length := by rw [longer, List.length_append, h.length, List.length_singleton]
    digest := fun i t key' there keyed => ?_
    named := nodup_assign h.named handle _
    handles := fun name i mem => ?_
    sinks := fun name i mem => longer ▸ Nat.lt_succ_of_lt (h.sinks name i mem)
    keyed := ?_
    current := fun key' i mem => ?_
    joinable := fun name i t key' mem there isOpen keyed => ?_ }
  · rcases found there keyed with ⟨there, keyed⟩ | ⟨-, rfl, rfl⟩
    · exact h.digest i t key' there keyed
    · exact digest
  · rcases mem_assign mem with rfl | mem
    · exact longer ▸ Nat.lt_succ_self _
    · exact longer ▸ Nat.lt_succ_of_lt (h.handles name i mem)
  · dsimp only
    split
    · exact h.keyed
    · refine List.nodup_cons.2 ⟨fun mem => ?_, h.keyed⟩
      obtain ⟨⟨_, i⟩, joinable, rfl⟩ := List.mem_map.1 mem
      exact free i joinable
  · have old (mem : (key', i) ∈ r.desk.joinable) :
        ({ r with keys := r.keys ++ [key] } : KeyedDesk).IsCurrent key' i :=
      current key' i (fun eq => free i (eq ▸ mem)) (h.current key' i mem)
    dsimp only at mem
    split at mem
    · exact old mem
    · rcases List.mem_cons.1 mem with eq | mem
      · cases eq
        exact isCurrent
      · exact old mem
  · dsimp only
    rcases found there keyed with ⟨there, keyed⟩ | ⟨rfl, rfl, rfl⟩
    · have held : (name, i) ∈ r.desk.handles := by
        rcases mem_assign mem with rfl | mem
        · exact absurd (Desk.lt_of_session there) (Nat.lt_irrefl _)
        · exact mem
      have joinable := h.joinable name i t key' held there isOpen keyed
      split
      · exact joinable
      · exact List.mem_cons_of_mem _ joinable
    · rw [isOpen, if_neg Bool.false_ne_true]
      exact List.mem_cons_self

theorem Sound.perform (h : r.Sound) (c : AnyCall) : (r.perform c).Sound := by
  have serves := r.desk.serve_serves c
  unfold KeyedDesk.perform
  generalize r.desk.serve c = d' at serves ⊢
  cases serves with
  | stores c store limit =>
      rw [keysAfter_same]
      · exact h.frame rfl (fun i s there => ⟨s, there, rfl, id⟩) rfl (.refl _) h.sinks
      · rfl
  | prunes => exact h.prune _
  | opens opens =>
      have pruned := h.prune r.answers
      cases opens with
      | joins i found =>
          rw [keysAfter_same]
          · exact pruned.joins (mem_of_lookup found) _
          · rfl
      | starts free =>
          have absent (i : Nat) : (_, i) ∉ r.desk.prune.joinable := fun mem => by
            rw [pruned.lookup_joinable.2 mem] at free
            cases free
          rw [keysAfter_starts]
          · exact pruned.starts (s := Session.start _ _) absent rfl _
          · rfl
  | admits sink held within =>
      refine h.frame rfl (fun i s there => ⟨s, there, rfl, id⟩) rfl (.refl _) fun name i mem => ?_
      rcases mem_assign mem with rfl | mem
      · exact Desk.lt_of_session (Desk.session?_of_held held)
      · exact h.sinks name i mem
  | writes data target =>
      obtain ⟨-, here⟩ := Desk.mem_of_target target
      exact h.set _ here (Session.digest_append _ _ _) Session.isOpen_of_append
  | resets held =>
      exact h.set r.desk.store (Desk.session?_of_held held) (Session.digest_reset _)
        (Session.complete_reset _).symm.trans
  | dropsHandle handle =>
      exact h.frame rfl (fun i s there => ⟨s, there, rfl, id⟩) rfl List.filter_sublist h.sinks
  | dropsSink sink =>
      exact h.frame rfl (fun i s there => ⟨s, there, rfl, id⟩) rfl (.refl _)
        fun name i mem => h.sinks name i (List.mem_filter.1 mem).1

theorem Sound.run (h : r.Sound) (calls : List AnyCall) : (r.run calls).Sound := by
  induction calls generalizing r with
  | nil => exact h
  | cons c calls ih => exact ih (h.perform c)

/-! ### The current sessions -/

/-- A session can be joined by its key when and only when some handle holds it and it is not
complete. -/
theorem Sound.mem_pruned_iff (h : r.Sound) {key : SessionKey} {i : Nat}
    (keyed : r.keys[i]? = some key) : (key, i) ∈ r.desk.prune.joinable ↔
      ∃ name s, r.desk.held? name = some (i, s) ∧ s.complete = false := by
  constructor
  · intro mem
    obtain ⟨held, here⟩ := Bool.and_eq_true_iff.1 (List.mem_filter.1 mem).2
    obtain ⟨⟨name, j⟩, entry, eq⟩ := List.any_eq_true.1 held
    obtain rfl : j = i := eq_of_beq eq
    obtain ⟨s, there, isOpen⟩ := (Option.any_eq_true _ _).1 here
    refine ⟨name, s, ?_, Bool.not_eq_true' _ ▸ isOpen⟩
    exact Desk.held?_eq_some_iff.2 ⟨(lookup_eq_some_iff_mem h.named).2 entry, there⟩
  · rintro ⟨name, s, held, isOpen⟩
    obtain ⟨named, there⟩ := Desk.held?_eq_some_iff.1 held
    exact (h.prune []).joinable name i s key (mem_of_lookup named) there isOpen keyed

/-- The current session of a key is held by some handle and not complete. -/
def IsActive (r : KeyedDesk) (key : SessionKey) : Prop :=
  ∃ i name s, r.IsCurrent key i ∧ r.desk.held? name = some (i, s) ∧ s.complete = false

/-- The sessions that can be joined are counted by their keys. -/
theorem Sound.activeWrites_eq_card (h : r.Sound) : ∃ active : Finset SessionKey,
    (∀ key, key ∈ active ↔ r.IsActive key) ∧ r.desk.activeWrites.1 = active.card := by
  have pruned := h.prune []
  refine ⟨(r.desk.prune.joinable.map Prod.fst).toFinset, fun key => ?_, ?_⟩
  · rw [List.mem_toFinset, List.mem_map]
    constructor
    · rintro ⟨⟨_, i⟩, mem, rfl⟩
      have current := pruned.current _ i mem
      obtain ⟨name, s, held, isOpen⟩ := (h.mem_pruned_iff current.1).1 mem
      exact ⟨i, name, s, current, held, isOpen⟩
    · rintro ⟨i, name, s, current, held, isOpen⟩
      exact ⟨(key, i), (h.mem_pruned_iff current.1).2 ⟨name, s, held, isOpen⟩, rfl⟩
  · rw [List.toFinset_card_of_nodup pruned.keyed, List.length_map]
    rfl

/-! ### Joining -/

theorem run_desk (r : KeyedDesk) (calls : List AnyCall) :
    (r.run calls).desk = r.desk.serveAll calls := by
  induction calls generalizing r with
  | nil => rfl
  | cons c calls ih => exact ih (r.perform c)

/-- Whoever opens a session by the key of one that is held and not complete joins it. -/
theorem Sound.openSession_of_held (h : r.Sound) {handle : String} {i : Nat} {s : Session}
    {key : SessionKey} (held : r.desk.held? handle = some (i, s)) (isOpen : s.complete = false)
    (keyed : r.keys[i]? = some key) (other : String) :
    r.desk.openSession other key =
      { r.desk.prune with handles := Desk.assign other i r.desk.handles } := by
  have mem : (key, i) ∈ r.desk.prune.joinable :=
    (h.mem_pruned_iff keyed).2 ⟨handle, s, held, isOpen⟩
  have found : r.desk.prune.joinable.lookup key = some i :=
    (h.prune []).lookup_joinable.2 mem
  have opens := r.desk.openSession_opens other key
  generalize r.desk.openSession other key = d' at opens ⊢
  cases opens with
  | joins j joined =>
      cases found.symm.trans joined
      rfl
  | starts free =>
      rw [found] at free
      cases free

end KeyedDesk

end BuildWorker
