import BuildWorker.Proofs.Capture.Insertion
import BuildWorker.Proofs.Store.Chunking

/-!
# Storing a file when no failure is scripted

In an honest depot no call or sink fails by script, though the worker may be interrupted. What an
insertion fails with is then one of three things (`Depot.Honest.insert_refuses`), and only one of
them speaks of a size: that of content which the store does not accept.

In a calm depot the worker is not interrupted either. Then streaming content piece by piece comes
to the same as putting it at once, unless it is there already (`Depot.Calm.insert_absent`).

The failures to come stay in any depot, and so does the number of sessions held (`Depot.frame`).
-/

namespace BuildWorker

namespace Depot

/-- The failures to come of calls and of sinks. -/
def script (d : Depot) : List CallFault × List SinkFault := (d.callFaults, d.sinkFaults)

/-- No failure is to come. Calls and writes may still interrupt the worker. -/
structure Honest (d : Depot) : Prop where
  calls : ∀ f ∈ d.callFaults, f.error = none
  sinks : ∀ f ∈ d.sinkFaults, f.moment = .hang

theorem Honest.of_script {d d' : Depot} (h : d.Honest) (same : d'.script = d.script) :
    d'.Honest := by
  obtain ⟨calls, sinks⟩ := Prod.mk.inj same
  exact ⟨calls ▸ h.calls, sinks ▸ h.sinks⟩

/-- Nothing is to come, and the worker is not interrupted. -/
structure Calm (d : Depot) : Prop where
  script_eq : d.script = ([], [])
  uninterrupted : d.interrupted = false

theorem calm_ofStore (s : Store) : (ofStore s).Calm := ⟨rfl, rfl⟩

theorem Calm.honest {d : Depot} (h : d.Calm) : d.Honest := by
  obtain ⟨calls, sinks⟩ := Prod.mk.inj h.script_eq
  exact ⟨by simp [calls], by simp [sinks]⟩

/-- The failures to come, and how many sessions are held. -/
def frame (d : Depot) : (List CallFault × List SinkFault) × Nat := (d.script, d.writers)

@[simp] theorem frame_begin (d : Depot) (c : StoreCall) : (d.begin c).2.frame = d.frame := by
  unfold begin
  dsimp only
  split
  · rfl
  · split <;> rfl

theorem Honest.begin {d : Depot} (h : d.Honest) (c : StoreCall) : (d.begin c).1 = none := by
  unfold Depot.begin
  dsimp only
  split
  · rfl
  next f found => exact h.calls f (List.mem_of_find?_eq_some found)

end Depot

namespace Sink

/-! ### What stays -/

@[simp] theorem frame_append (k : Sink) (d : Depot) (data : ByteArray) :
    (k.append d data).2.2.frame = d.frame := rfl

@[simp] theorem fault_append (k : Sink) (d : Depot) (data : ByteArray) :
    (k.append d data).2.1.fault = k.fault := rfl

@[simp] theorem frame_appendThenFail (k : Sink) (d : Depot) (data : ByteArray) (n : Nat)
    (error : StoreError) : (k.appendThenFail d data n error).2.2.frame = d.frame := by
  have first := k.frame_append d (data.extract 0 n)
  unfold appendThenFail
  split
  next eq =>
    rw [eq] at first
    exact first
  next => exact first

@[simp] theorem frame_write (k : Sink) (d : Depot) (data : ByteArray) :
    (k.write d data).2.2.frame = d.frame := by
  unfold write
  split
  · rfl
  · dsimp only
    split
    · rfl
    · rw [frame_appendThenFail]
    · rw [frame_appendThenFail]
    · rfl
    · rfl

@[simp] theorem frame_writeAgain (k : Sink) (d : Depot) (data : ByteArray) :
    (k.writeAgain d data).2.2.frame = d.frame := by
  have first := k.frame_write d data
  unfold writeAgain
  split
  next eq =>
    rw [eq] at first
    split
    · rw [frame_write]
      exact first
    · exact first
  next => exact first

@[simp] theorem frame_writePieces (k : Sink) (d : Depot) (pieces : List ByteArray) :
    (k.writePieces d pieces).2.2.frame = d.frame := by
  induction pieces generalizing k d with
  | nil => rfl
  | cons piece rest ih =>
      have first := k.frame_writeAgain d piece
      unfold writePieces
      split
      next eq =>
        rw [eq] at first
        rw [ih]
        exact first
      next => exact first

@[simp] theorem frame_openFor (w : Session) (deadline : Nat) (d : Depot) :
    (openFor w deadline d).2.frame = d.frame := by
  have first := d.frame_begin (.getOutput deadline)
  unfold openFor
  split
  next eq =>
    rw [eq] at first
    exact first
  next eq =>
    rw [eq] at first
    dsimp only
    split <;> exact first

end Sink

namespace Depot

@[simp] theorem frame_stream (d : Depot) (deadline : Nat) (w : Session) (content : ByteArray) :
    (d.stream deadline w content).2.2.frame = d.frame := by
  have opened := Sink.frame_openFor w deadline d
  unfold stream
  split
  next eq =>
    rw [eq] at opened
    exact opened
  next k d' eq =>
    rw [eq] at opened
    have written := k.frame_writePieces d' (piecesFrom content 0)
    split
    · exact opened
    · split
      all_goals
        next eq =>
          rw [eq] at written
          exact written.trans opened

@[simp] theorem frame_fill (d : Depot) (deadline : Nat) (w : Session) (content : ByteArray) :
    (d.fill deadline w content).2.frame = d.frame := by
  have streamed := d.frame_stream deadline w content
  unfold fill
  split
  · rfl
  · split
    next eq =>
      rw [eq] at streamed
      exact streamed
    next eq =>
      rw [eq] at streamed
      split <;> exact streamed

theorem frame_letGo {d d' : Depot} (held : d'.frame = d.hold.frame) :
    d'.letGo.frame = d.frame := by
  obtain ⟨script, writers⟩ := Prod.mk.inj held
  refine Prod.ext script ?_
  show d'.writers - 1 = d.writers
  rw [writers]
  exact Nat.add_sub_cancel ..

/-- The session that content is written to is let go of. -/
@[simp] theorem frame_insert (d : Depot) (deadline : Nat) (digest : Digest)
    (content : ByteArray) : (d.insert deadline digest content).2.frame = d.frame := by
  have opened := d.frame_begin (.getWrite digest)
  unfold insert openSession
  split
  · rfl
  · generalize d.begin (.getWrite digest) = begun at opened
    obtain ⟨_ | e, d'⟩ := begun
    · exact (frame_letGo (d'.hold.frame_fill ..)).trans opened
    · exact opened

@[simp] theorem frame_put (d : Depot) (b : Blob) : (d.put b).2.frame = d.frame := by
  have begun := d.frame_begin (.put b.digest)
  unfold put
  split
  all_goals
    next eq =>
      rw [eq] at begun
      exact begun

end Depot

/-! ### What can go wrong in an honest depot -/

/-- What an insertion fails with when no failure is scripted. -/
inductive ExecutionError.Refuses (s : Store) (digest : Digest) : ExecutionError → Prop
  /-- The content is larger than the store accepts. -/
  | oversized (excess : s.exceedsLimit digest = true) :
      Refuses s digest (.store (.entryLimit digest))
  | interrupted : Refuses s digest .interrupted
  /-- The bytes were not those that the digest declares. -/
  | io (e : IoError) : Refuses s digest (.io e)

namespace Sink

/-- A sink whose only possible failure is an interruption. -/
def Honest (k : Sink) : Prop := ∀ f, k.fault = some f → f.moment = .hang

theorem append_failed {k : Sink} {d : Depot} {data : ByteArray} {e : IoError}
    (h : (k.append d data).1 = .failed e) :
    ExecutionError.ofWrite e = .io e ∧ e.kind ≠ .interrupted := by
  have appends := k.session.append_appends d.store data
  unfold append at h
  generalize k.session.append d.store data = r at h appends
  cases appends with
  | ignored | gathered | filled => cases h
  | refused =>
      cases h
      exact ⟨rfl, nofun⟩
  | lost =>
      cases h
      exact ⟨rfl, nofun⟩

/-- A write to an honest sink is an ordinary one, or does not end. -/
theorem Honest.writeAgain {k : Sink} (h : k.Honest) (d : Depot) (data : ByteArray) :
    k.writeAgain d data = k.append d data ∨ (k.writeAgain d data).1 = .hung := by
  have once : k.write d data = k.append d data ∨ (k.write d data).1 = .hung := by
    unfold write
    split
    · exact .inl rfl
    next f fault =>
      dsimp only
      rw [h f fault]
      exact .inr rfl
  unfold Sink.writeAgain
  rcases once with eq | hung
  · rw [eq]
    split
    next e k' d' failed =>
      rw [if_neg (append_failed (congrArg Prod.fst failed)).2, failed]
      exact .inl rfl
    next => exact .inl rfl
  · split
    next failed =>
      rw [failed] at hung
      cases hung
    next => exact .inr hung

theorem Honest.writePieces {k : Sink} (h : k.Honest) (d : Depot) (pieces : List ByteArray) :
    match k.writePieces d pieces with
    | (.written, k', _) => k'.Honest
    | (.failed e, _, _) => ExecutionError.ofWrite e = .io e
    | (.hung, _, _) => True := by
  induction pieces generalizing k d with
  | nil => exact h
  | cons piece rest ih =>
      unfold Sink.writePieces
      rcases h.writeAgain d piece with eq | hung
      · have fault := k.fault_append d piece
        have failed (e : IoError) := @append_failed k d piece e
        rw [eq]
        generalize k.append d piece = r at fault failed
        obtain ⟨_ | e | _, k', d'⟩ := r
        · exact ih (fun f found => h f (fault ▸ found)) d'
        · exact (failed e rfl).1
        · trivial
      · generalize k.writeAgain d piece = r at hung
        obtain ⟨_, k', d'⟩ := r
        cases hung
        trivial

theorem Honest.shutdown {k : Sink} (h : k.Honest) (d : Depot) : (k.shutdown d).1 = none := by
  unfold Sink.shutdown
  cases fault : k.fault with
  | none => rfl
  | some f => simp [h f fault]

end Sink

namespace Depot

theorem Honest.openFor {d : Depot} (h : d.Honest) (w : Session) (deadline : Nat) :
    match (Sink.openFor w deadline d).1 with
    | .ok k => k.Honest
    | .error e => e = .entryLimit w.digest ∧ d.store.exceedsLimit w.digest = true := by
  have store := d.store_begin (.getOutput deadline)
  have script := congrArg Prod.fst (d.frame_begin (.getOutput deadline))
  have begun := h.begin (.getOutput deadline)
  unfold Sink.openFor
  generalize d.begin (.getOutput deadline) = r at store script begun
  obtain ⟨_ | e, d'⟩ := r
  · dsimp only at store script ⊢
    unfold Session.openSink
    cases excess : d'.store.exceedsLimit w.digest with
    | true => exact ⟨rfl, store ▸ excess⟩
    | false =>
        intro f fault
        exact (h.of_script script).sinks f (List.mem_of_find?_eq_some fault)
  · cases begun

theorem Honest.stream {d : Depot} (h : d.Honest) {deadline : Nat} {w : Session}
    {content : ByteArray} {e : ExecutionError} (failed : (d.stream deadline w content).1 = some e) :
    e.Refuses d.store w.digest := by
  have opened := h.openFor w deadline
  unfold Depot.stream at failed
  split at failed
  next eq =>
    rw [eq] at opened
    cases failed
    rw [opened.1]
    exact .oversized opened.2
  next k d' eq =>
    rw [eq] at opened
    split at failed
    · cases failed
      exact .interrupted
    have written := opened.writePieces d' (piecesFrom content 0)
    split at failed
    next =>
      cases failed
      exact .interrupted
    next eq' =>
      rw [eq'] at written
      cases failed
      rw [written]
      exact .io _
    next eq' =>
      rw [eq'] at written
      simp only [written.shutdown, Option.map_none] at failed
      cases failed

/-- A put into an honest depot is one into its store. -/
theorem Honest.put_eq {d : Depot} (h : d.Honest) (b : Blob) :
    ((d.put b).1, (d.put b).2.store) = d.store.put b := by
  have store := d.store_begin (.put b.digest)
  have begun := h.begin (.put b.digest)
  unfold put
  generalize d.begin (.put b.digest) = r at store begun
  obtain ⟨_ | e, d'⟩ := r
  · dsimp only at store ⊢
    rw [store]
  · cases begun

/-- What filling a session fails with in an honest depot. -/
theorem Honest.fill_refuses {d : Depot} (h : d.Honest) {deadline : Nat} {w : Session}
    {content : ByteArray} {e : ExecutionError}
    (failed : (d.fill deadline w content).1 = .error e) : e.Refuses d.store w.digest := by
  unfold fill at failed
  split at failed
  · cases failed
  · split at failed
    · cases failed
    next eq =>
      split at failed
      · cases failed
      · cases failed
        exact h.stream (congrArg Prod.fst eq)

/-- What an insertion into an honest depot fails with. -/
theorem Honest.insert_refuses {d : Depot} (h : d.Honest) {deadline : Nat} {digest : Digest}
    {content : ByteArray} {e : ExecutionError}
    (failed : (d.insert deadline digest content).1 = .error e) : e.Refuses d.store digest := by
  have store := d.store_begin (.getWrite digest)
  have script := congrArg Prod.fst (d.frame_begin (.getWrite digest))
  have begun := h.begin (.getWrite digest)
  unfold insert openSession at failed
  generalize d.begin (.getWrite digest) = r at store script begun failed
  obtain ⟨_ | e, d'⟩ := r
  · dsimp only at store script failed
    split at failed
    · cases failed
    · rw [← store]
      have honest : d'.hold.Honest := h.of_script script
      exact honest.fill_refuses failed
  · cases begun

end Depot

/-! ### Streaming into a calm depot -/

theorem joined_piecesFrom (content : ByteArray) (start : Nat) :
    joined (piecesFrom content start) = content.extract start content.size := by
  induction start using piecesFrom.induct content with
  | case1 start lt ih =>
      rw [piecesFrom, if_pos lt, joined_cons, ih, ByteArray.extract_append_extract,
        Nat.min_eq_left (Nat.le_add_right _ _)]
      -- The last piece may end after the content.
      have whole := @ByteArray.extract_extract content 0 content.size start
        (max (start + pieceSize) content.size)
      rw [ByteArray.extract_zero_size, Nat.zero_add, Nat.zero_add,
        Nat.min_eq_right (Nat.le_max_right _ _)] at whole
      exact whole
  | case2 start le =>
      rw [piecesFrom, if_neg le]
      exact (ByteArray.extract_eq_empty_iff.2 (by omega)).symm

namespace Sink

/-- Bytes that the session of a sink without failures accepts are written. -/
theorem writeAgain_of_append {k : Sink} {d : Depot} {data : ByteArray} {n : Nat} {w : Session}
    {s : Store} (unscripted : k.fault = none)
    (accepted : k.session.append d.store data = (.ok n, w, s)) :
    k.writeAgain d data = (.written, { k with session := w }, { d with store := s }) := by
  have once : k.write d data = (.written, { k with session := w }, { d with store := s }) := by
    unfold write append
    rw [unscripted, accepted]
  unfold writeAgain
  rw [once]

/-- A sink without failures of a complete session takes everything. -/
theorem writePieces_of_complete {k : Sink} (unscripted : k.fault = none)
    (complete : k.session.complete = true) (d : Depot) (pieces : List ByteArray) :
    k.writePieces d pieces = (.written, k, d) := by
  induction pieces with
  | nil => rfl
  | cons piece rest ih =>
      have accepted : k.session.append d.store piece = (.ok piece.size, k.session, d.store) := by
        unfold Session.append
        rw [if_pos complete]
      unfold writePieces
      rw [writeAgain_of_append unscripted accepted]
      exact ih

/-- Pieces that add up to the content of an open session are taken, and the content is stored. -/
theorem writePieces_fills {content : ByteArray} (sized : content.size < UInt64.size)
    {k : Sink} {d : Depot} {pieces : List ByteArray} (unscripted : k.fault = none)
    (own : Digest.ofBytes content = k.session.digest) (isOpen : k.session.complete = false)
    (filling : k.session.buffer ++ joined pieces = content)
    (room : k.session.buffer.size < content.size) :
    k.writePieces d pieces = (.written,
      { k with session := { k.session with buffer := .empty, complete := true } },
      { d with store := d.store.commit k.session.digest content }) := by
  have declared : k.session.digest.size.toNat = content.size := by
    rw [← own, Digest.ofBytes, UInt64.toNat_ofNat_of_lt' sized]
  induction pieces generalizing k d with
  | nil =>
      rw [joined, List.foldr_nil, ByteArray.append_empty] at filling
      rw [filling] at room
      exact absurd room (Nat.lt_irrefl _)
  | cons piece rest ih =>
      rw [joined_cons, ← ByteArray.append_assoc] at filling
      have held : k.session = .holding k.session.digest k.session.buffer := by
        rw [Session.holding, if_neg (by omega), ← isOpen]
      have taken := Session.append_holding d.store own declared filling
      rw [← held] at taken
      unfold writePieces
      by_cases full : k.session.buffer.size + piece.size = content.size
      · rw [if_pos ⟨room, full⟩] at taken
        rw [writeAgain_of_append unscripted taken, Session.holding,
          if_pos (by rw [ByteArray.size_append]; omega)]
        exact writePieces_of_complete (k := { k with session := { k.session with
          buffer := .empty, complete := true } }) unscripted rfl _ _
      · rw [if_neg (fun filled => full filled.2)] at taken
        rw [writeAgain_of_append unscripted taken, Session.holding,
          if_neg (by rw [ByteArray.size_append]; omega)]
        refine ih unscripted own rfl filling ?_ declared
        have total := congrArg ByteArray.size filling
        simp only [ByteArray.size_append] at total ⊢
        omega

end Sink

namespace Depot

theorem Calm.record {d : Depot} (h : d.Calm) (c : StoreCall) : (d.record c).Calm :=
  ⟨h.script_eq, h.uninterrupted⟩

section

variable {d : Depot} (deadline : Nat) (content : ByteArray)

/-- Content above the limit is refused when a sink is asked for. -/
theorem Calm.stream_of_exceeds (h : d.Calm) {w : Session}
    (excess : d.store.exceedsLimit w.digest = true) :
    ∃ d', d.stream deadline w content = (some (.store (.entryLimit w.digest)), w, d') ∧
      d'.store = d.store.record .rejected ∧ d'.Calm := by
  obtain ⟨calls, -⟩ := Prod.mk.inj h.script_eq
  have refused : Sink.openFor w deadline d = (.error (.entryLimit w.digest),
      { d.record (.getOutput deadline) with store := d.store.record .rejected }) := by
    unfold Sink.openFor Session.openSink
    rw [begin_of_nil calls]
    simp [Depot.record, excess]
  unfold Depot.stream
  rw [refused]
  exact ⟨_, rfl, rfl, h.script_eq, h.uninterrupted⟩

/-- Content within the limit is stored. -/
theorem Calm.stream_of_within (h : d.Calm) {w : Session}
    (own : Digest.ofBytes content = w.digest) (isOpen : w.complete = false)
    (unwritten : w.buffer = .empty) (filled : 0 < content.size) (sized : content.size < UInt64.size)
    (within : d.store.exceedsLimit w.digest = false) :
    ∃ w' d', d.stream deadline w content = (none, w', d') ∧
      d'.store = d.store.commit w.digest content ∧ d'.Calm := by
  obtain ⟨calls, sinks⟩ := Prod.mk.inj h.script_eq
  obtain ⟨opened, accepted, store, calm⟩ : ∃ opened, Sink.openFor w deadline d =
      (.ok { session := w }, opened) ∧ opened.store = d.store ∧ opened.Calm := by
    refine ⟨{ d.record (.getOutput deadline) with sinks := d.sinks + 1 }, ?_, rfl, h.script_eq,
      h.uninterrupted⟩
    unfold Sink.openFor Session.openSink
    rw [begin_of_nil calls]
    simp [Depot.record, within, sinks]
  have written := Sink.writePieces_fills sized (k := { session := w }) (d := opened) rfl own isOpen
    (by rw [unwritten, joined_piecesFrom, ByteArray.extract_zero_size, ByteArray.empty_append])
    (by rw [unwritten]; exact filled)
  unfold Depot.stream
  rw [accepted]
  dsimp only
  rw [if_neg (ne_true_of_eq_false calm.uninterrupted), written, store]
  exact ⟨_, _, rfl, rfl, calm.script_eq, calm.uninterrupted⟩

theorem put_of_nil (unscripted : d.callFaults = []) (b : Blob) :
    d.put b = ((d.store.put b).1,
      { d.record (.put b.digest) with store := (d.store.put b).2 }) := by
  unfold put
  rw [begin_of_nil unscripted]
  rfl

theorem insert_of_nil (unscripted : d.callFaults = []) {digest : Digest}
    (filled : digest.isEmpty = false) :
    d.insert deadline digest content =
      let r := (d.record (.getWrite digest)).hold.fill deadline (.start d.store digest) content
      (r.1, r.2.letGo) := by
  unfold Depot.insert openSession
  rewrite [if_neg (ne_true_of_eq_false filled), begin_of_nil unscripted]
  rfl

/-- Content that is there, or that is empty, is left. -/
theorem Calm.insert_present (h : d.Calm) {digest : Digest}
    (present : digest.isEmpty = true ∨ d.store.contains digest = true) :
    ∃ d', d.insert deadline digest content = (.ok (), d') ∧ d'.store = d.store ∧ d'.Calm := by
  by_cases empty : digest.isEmpty = true
  · refine ⟨d, ?_, rfl, h⟩
    unfold insert
    rw [if_pos empty]
  · rw [insert_of_nil _ _ (Prod.mk.inj h.script_eq).1 (Bool.eq_false_iff.2 empty)]
    have complete : (Session.start d.store digest).complete = true :=
      Bool.or_eq_true_iff.2 present
    have left : (d.record (.getWrite digest)).hold.fill deadline (.start d.store digest) content =
        (.ok (), (d.record (.getWrite digest)).hold) := if_pos complete
    rw [left]
    exact ⟨_, rfl, rfl, h.script_eq, h.uninterrupted⟩

/-- Filling a session for content that is not there stores the content, or refuses it. -/
theorem Calm.fill_absent (h : d.Calm) (sized : content.size < UInt64.size) {w : Session}
    (own : Digest.ofBytes content = w.digest) (filled : w.digest.isEmpty = false)
    (isOpen : w.complete = false) (unwritten : w.buffer = .empty) :
    ∃ d', d.fill deadline w content =
        ((d.store.put ⟨w.digest, content⟩).1.mapError .store, d') ∧
      d'.store = (d.store.put ⟨w.digest, content⟩).2 ∧ d'.Calm := by
  unfold fill Store.put
  rw [isOpen]
  dsimp only
  cases excess : d.store.exceedsLimit w.digest with
  | true =>
      obtain ⟨d', streamed, store, calm⟩ := h.stream_of_exceeds deadline content excess
      rw [streamed]
      simp only [isOpen]
      exact ⟨_, rfl, store, calm.record _⟩
  | false =>
      obtain ⟨w', d', streamed, store, calm⟩ :=
        h.stream_of_within deadline content own isOpen unwritten (Digest.size_pos own filled)
          sized excess
      rw [streamed]
      exact ⟨_, rfl, store, calm⟩

/-- **Streaming is putting**, for content that is not there. -/
theorem Calm.insert_absent (h : d.Calm) (sized : content.size < UInt64.size) {digest : Digest}
    (own : Digest.ofBytes content = digest) (filled : digest.isEmpty = false)
    (absent : d.store.contains digest = false) :
    ∃ d', d.insert deadline digest content =
        ((d.store.put ⟨digest, content⟩).1.mapError .store, d') ∧
      d'.store = (d.store.put ⟨digest, content⟩).2 ∧ d'.Calm := by
  have calm : (d.record (.getWrite digest)).hold.Calm := ⟨h.script_eq, h.uninterrupted⟩
  obtain ⟨d', stores, store, calm'⟩ := calm.fill_absent deadline content sized
    (w := .start d.store digest) own filled (Bool.or_eq_false_iff.2 ⟨filled, absent⟩) rfl
  rw [insert_of_nil _ _ (Prod.mk.inj h.script_eq).1 filled]
  refine ⟨d'.letGo, ?_, store, calm'.script_eq, calm'.uninterrupted⟩
  exact congrArg (fun r => (r.1, r.2.letGo)) stores

end

end Depot

end BuildWorker
