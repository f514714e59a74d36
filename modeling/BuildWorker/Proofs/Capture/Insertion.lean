import BuildWorker.Capture.Insertion
import BuildWorker.Proofs.Store.Integrity
import Mathlib.Algebra.GroupWithZero.Nat

/-!
# Content that is inserted is in the store

`Depot.insert` streams content through a session whose sink may fail, be interrupted and be tried
again. Whatever happens on the way, the store only evolves, and an insertion that succeeds leaves
the digest in the store (`Depot.insert_stores`).

The argument is about bytes that the session holds. An open session holds fewer than it was
declared to, and after pieces have been written it holds at least as many as they have; a failed
attempt that is repeated can only add to them. So when all of the content has been written, the
session cannot be open any more (`Session.Took.complete`).
-/

namespace BuildWorker

@[simp] theorem Depot.store_begin (d : Depot) (c : StoreCall) : (d.begin c).2.store = d.store := by
  unfold Depot.begin
  dsimp only
  split
  · rfl
  · split <;> rfl

/-- Without scripted failures a call is recorded, and that is all. -/
theorem Depot.begin_of_nil {d : Depot} (unscripted : d.callFaults = []) (c : StoreCall) :
    d.begin c = (none, d.record c) := by
  simp [begin, record, unscripted]

/-! ### Pieces -/

/-- The pieces of content are as long as the content. -/
theorem sum_size_piecesFrom (content : ByteArray) (start : Nat) :
    ((piecesFrom content start).map ByteArray.size).sum = content.size - start := by
  induction start using piecesFrom.induct content with
  | case1 start lt ih =>
      rw [piecesFrom, if_pos lt, List.map_cons, List.sum_cons, ih, ByteArray.size_extract]
      simp only [pieceSize]
      omega
  | case2 start le =>
      rw [piecesFrom, if_neg le]
      simp only [List.map_nil, List.sum_nil]
      omega

/-! ### A session for a digest -/

/-- A session for a digest that the store accepts. It is complete only if the digest is there. -/
structure Session.Fills (w : Session) (s : Store) (digest : Digest) : Prop where
  /-- What the session writes. -/
  digest_eq : w.digest = digest
  /-- The store accepts it. -/
  within : s.exceedsLimit digest = false
  stored : w.complete = true → s.contains digest = true

/-- A session has taken so many bytes, unless it is complete. -/
def Session.Took (w : Session) (n : Nat) : Prop :=
  w.complete = true ∨ n ≤ w.buffer.size ∧ w.buffer.size < w.digest.size.toNat

/-- A session that has taken as much as it was declared to is complete. -/
theorem Session.Took.complete {w : Session} {n : Nat} (h : w.Took n)
    (enough : w.digest.size.toNat ≤ n) : w.complete = true := by
  rcases h with h | ⟨held, less⟩
  · exact h
  · omega

namespace Sink

/-- What a write of some bytes leaves behind. -/
structure Wrote (w : Session) (s : Store) (digest : Digest) (size : Nat)
    (r : WriteEnd × Sink × Depot) : Prop where
  evolves : s.Evolves r.2.2.store
  fills : r.2.1.session.Fills r.2.2.store digest
  /-- Bytes that were written have been taken. -/
  written : r.1 = .written → ∀ n, w.Took n → r.2.1.session.Took (n + size)
  /-- A write that is worth repeating has taken nothing back. -/
  repeatable : ∀ e, r.1 = .failed e → e.kind = .interrupted → ∀ n, w.Took n →
    r.2.1.session.Took n

/-! ### One write -/

theorem append_wrote {k : Sink} {d : Depot} {digest : Digest}
    (h : k.session.Fills d.store digest) (data : ByteArray) :
    Wrote k.session d.store digest data.size (k.append d data) := by
  have within : d.store.exceedsLimit k.session.digest = false := h.digest_eq ▸ h.within
  have step : Store.Step d.store (k.session.append d.store data).2.2 := .append _ _ data within
  have limit := step.blobs.1
  have appends := k.session.append_appends d.store data
  unfold Sink.append
  generalize k.session.append d.store data = r at step limit appends
  obtain ⟨answer, session, store⟩ := r
  have accepted : store.exceedsLimit digest = false := by
    rw [Store.exceedsLimit, limit]
    exact h.within
  cases appends with
  | ignored complete =>
      refine ⟨.single step, ⟨h.digest_eq, accepted, h.stored⟩, fun _ _ _ => .inl complete, ?_⟩
      rintro e ⟨⟩
  | refused =>
      refine ⟨.single step, ⟨h.digest_eq, accepted, h.stored⟩, ?_, ?_⟩
      · rintro ⟨⟩
      · rintro e ⟨⟩ ⟨⟩
  | gathered isOpen less =>
      refine ⟨.single step, ⟨h.digest_eq, accepted, h.stored⟩, ?_, ?_⟩
      · rintro - n (complete | ⟨held, -⟩)
        · exact .inl complete
        · refine .inr ⟨?_, ?_⟩
          · rw [ByteArray.size_append]
            exact Nat.add_le_add_right held _
          · rw [ByteArray.size_append]
            exact less
      · rintro e ⟨⟩
  | filled =>
      refine ⟨.single step, ⟨h.digest_eq, accepted, fun _ => ?_⟩, fun _ _ _ => .inl rfl, ?_⟩
      · rw [← h.digest_eq]
        exact Store.contains_commit d.store _ _
      · rintro e ⟨⟩
  | lost =>
      refine ⟨.single step, ⟨h.digest_eq, accepted, h.stored⟩, ?_, ?_⟩
      · rintro ⟨⟩
      · rintro e ⟨⟩ ⟨⟩

theorem appendThenFail_wrote {k : Sink} {d : Depot} {digest : Digest}
    (h : k.session.Fills d.store digest) (data : ByteArray) (n : Nat) (error : StoreError) :
    Wrote k.session d.store digest data.size (k.appendThenFail d data n error) := by
  have first := append_wrote h (data.extract 0 n)
  unfold appendThenFail
  split
  next k' d' eq =>
    rw [eq] at first
    refine ⟨first.evolves, first.fills, nofun, fun _ _ _ m took => ?_⟩
    rcases first.written rfl m took with complete | ⟨held, less⟩
    · exact .inl complete
    · exact .inr ⟨Nat.le_of_add_right_le held, less⟩
  next other =>
    exact ⟨first.evolves, first.fills, fun written => (other _ _ (Prod.ext written rfl)).elim,
      first.repeatable⟩

theorem write_wrote {k : Sink} {d : Depot} {digest : Digest}
    (h : k.session.Fills d.store digest) (data : ByteArray) :
    Wrote k.session d.store digest data.size (k.write d data) := by
  unfold write
  split
  · exact append_wrote h data
  · next f _ =>
    -- Whatever the fault does, it is used up.
    have spent : ({ k with fault := none } : Sink).session.Fills d.store digest := h
    dsimp only
    split
    · exact ⟨.refl, h, nofun, fun _ _ _ _ took => took⟩
    · exact appendThenFail_wrote spent data (data.size / 2) f.error
    · exact appendThenFail_wrote spent data data.size f.error
    · exact ⟨.refl, h, nofun, nofun⟩
    · exact append_wrote h data

theorem writeAgain_wrote {k : Sink} {d : Depot} {digest : Digest}
    (h : k.session.Fills d.store digest) (data : ByteArray) :
    Wrote k.session d.store digest data.size (k.writeAgain d data) := by
  have first := write_wrote h data
  unfold writeAgain
  split
  next e k' d' eq =>
    rw [eq] at first
    split
    next interrupted =>
      -- What the first attempt left in the session stays there.
      have second := write_wrote first.fills data
      refine ⟨first.evolves.trans second.evolves, second.fills, fun written n took => ?_,
        fun e' failed again n took => ?_⟩
      · exact second.written written n (first.repeatable e rfl interrupted n took)
      · exact second.repeatable e' failed again n (first.repeatable e rfl interrupted n took)
    next => exact first
  next => exact first

/-! ### All the pieces -/

theorem writePieces_wrote {k : Sink} {d : Depot} {digest : Digest}
    (h : k.session.Fills d.store digest) (pieces : List ByteArray) :
    let r := k.writePieces d pieces
    d.store.Evolves r.2.2.store ∧ r.2.1.session.Fills r.2.2.store digest ∧
      (r.1 = .written → ∀ n, k.session.Took n →
        r.2.1.session.Took (n + (pieces.map ByteArray.size).sum)) := by
  induction pieces generalizing k d with
  | nil => exact ⟨.refl, h, fun _ n took => took⟩
  | cons piece rest ih =>
      have first := writeAgain_wrote h piece
      unfold writePieces
      split
      next k' d' eq =>
        rw [eq] at first
        obtain ⟨evolves, fills, written⟩ := ih first.fills
        refine ⟨first.evolves.trans evolves, fills, fun done n took => ?_⟩
        rw [List.map_cons, List.sum_cons, ← Nat.add_assoc]
        exact written done _ (first.written rfl n took)
      next other =>
        exact ⟨first.evolves, first.fills, fun done => (other _ _ (Prod.ext done rfl)).elim⟩

theorem openFor_fills (w : Session) (deadline : Nat) (d : Depot) (isOpen : w.complete = false) :
    d.store.Evolves (openFor w deadline d).2.store ∧
      ∀ k, (openFor w deadline d).1 = .ok k →
        k.session = w ∧ w.Fills (openFor w deadline d).2.store w.digest := by
  have store := d.store_begin (.getOutput deadline)
  unfold openFor
  split
  next eq =>
    rw [eq] at store
    refine ⟨store ▸ .refl, ?_⟩
    rintro k ⟨⟩
  next d' eq =>
    rw [eq] at store
    have step : Store.Step d'.store (w.openSink d'.store).2 := .openSink d'.store w
    dsimp only at store ⊢
    rw [← store]
    unfold Session.openSink at step ⊢
    cases excess : d'.store.exceedsLimit w.digest with
    | true =>
        rw [excess] at step
        refine ⟨.single step, ?_⟩
        rintro k ⟨⟩
    | false =>
        refine ⟨.refl, ?_⟩
        rintro k ⟨⟩
        refine ⟨rfl, rfl, excess, fun complete => ?_⟩
        rw [isOpen] at complete
        cases complete

end Sink

namespace Depot

/-! ### The whole content -/

/-- Streaming content into a new session only evolves the store. When it succeeds, and also when
it fails with a complete session, the digest is in the store. -/
theorem stream_stores (d : Depot) (deadline : Nat) (w : Session) (content : ByteArray)
    (isOpen : w.complete = false) (unwritten : w.buffer = .empty)
    (declared : 0 < w.digest.size.toNat) (enough : w.digest.size.toNat ≤ content.size) :
    let r := d.stream deadline w content
    d.store.Evolves r.2.2.store ∧
      (r.1 = none ∨ r.2.1.complete = true → r.2.2.store.contains w.digest = true) := by
  have ⟨evolves, opened⟩ := Sink.openFor_fills w deadline d isOpen
  have failed (e : ExecutionError) (s : Store)
      (h : some e = none ∨ w.complete = true) : s.contains w.digest = true := by
    rw [isOpen] at h
    rcases h with h | h <;> cases h
  unfold stream
  split
  next e d' eq =>
    rw [eq] at evolves
    exact ⟨evolves, failed _ _⟩
  next k d' eq =>
    rw [eq] at evolves opened
    obtain ⟨rfl, fills⟩ := opened k rfl
    split
    · exact ⟨evolves, failed _ _⟩
    obtain ⟨after, fills', written⟩ := Sink.writePieces_wrote fills (piecesFrom content 0)
    split
    next eq' =>
      rw [eq'] at after fills'
      refine ⟨evolves.trans after, ?_⟩
      rintro (⟨⟨⟩⟩ | complete)
      exact fills'.stored complete
    next eq' =>
      rw [eq'] at after fills'
      refine ⟨evolves.trans after, ?_⟩
      rintro (⟨⟨⟩⟩ | complete)
      exact fills'.stored complete
    next eq' =>
      rw [eq'] at after fills' written
      refine ⟨evolves.trans after, fun _ => fills'.stored ?_⟩
      -- All pieces are written, which are at least as long as the digest declares.
      have took := written rfl 0 (.inr ⟨Nat.zero_le _, by rw [unwritten]; exact declared⟩)
      rw [sum_size_piecesFrom] at took
      exact took.complete (by rw [fills'.digest_eq]; omega)

/-- Filling a new session only evolves the store. When it succeeds, the digest is in the store. -/
theorem fill_stores (d : Depot) (deadline : Nat) {content : ByteArray}
    (filled : ¬ (Digest.ofBytes content).isEmpty = true) :
    let r := d.fill deadline (.start d.store (.ofBytes content)) content
    d.store.Evolves r.2.store ∧
      (r.1 = .ok () → r.2.store.contains (.ofBytes content) = true) := by
  unfold fill
  split
  next complete =>
    refine ⟨.refl, fun _ => ?_⟩
    rcases Bool.or_eq_true_iff.1 complete with empty | there
    · exact absurd empty filled
    · exact there
  next isOpen =>
    have declared : 0 < (Digest.ofBytes content).size.toNat := by
      have := mt (fun h => beq_iff_eq.2 (UInt64.toNat_inj.1 h)) filled
      exact Nat.pos_of_ne_zero this
    have enough : (Digest.ofBytes content).size.toNat ≤ content.size := by
      rw [Digest.ofBytes, UInt64.toNat_ofNat']
      exact Nat.mod_le _ _
    obtain ⟨evolves, stored⟩ := d.stream_stores deadline
      (.start d.store (.ofBytes content)) content (Bool.eq_false_iff.2 isOpen) rfl declared
      enough
    split
    next eq =>
      rw [eq] at evolves stored
      exact ⟨evolves, fun _ => stored (.inl rfl)⟩
    next e w d' eq =>
      rw [eq] at evolves stored
      split
      next complete => exact ⟨evolves, fun _ => stored (.inr complete)⟩
      next => exact ⟨evolves, nofun⟩

/-- Inserting content only evolves the store. When it succeeds, the digest is in the store or
empty. -/
theorem insert_stores (d : Depot) (deadline : Nat) (content : ByteArray) :
    let r := d.insert deadline (.ofBytes content) content
    d.store.Evolves r.2.store ∧
      (r.1 = .ok () → (Digest.ofBytes content).isEmpty = true ∨
        r.2.store.contains (.ofBytes content) = true) := by
  have store := d.store_begin (.getWrite (.ofBytes content))
  unfold insert openSession
  split
  next empty => exact ⟨.refl, fun _ => .inl empty⟩
  next filled =>
    generalize d.begin (.getWrite (.ofBytes content)) = begun at store
    obtain ⟨_ | e, d'⟩ := begun
    · dsimp only at store ⊢
      rw [← store]
      obtain ⟨evolves, stored⟩ := d'.hold.fill_stores deadline filled
      exact ⟨evolves, fun ok => .inr (stored ok)⟩
    · exact ⟨store ▸ .refl, nofun⟩

/-- Storing a blob only evolves the store. When it succeeds, the digest is in the store. -/
theorem put_stores (d : Depot) (data : ByteArray) :
    let r := d.put (.ofBytes data)
    d.store.Evolves r.2.store ∧ (r.1 = .ok () → r.2.store.contains (.ofBytes data) = true) := by
  have store := d.store_begin (.put (.ofBytes data))
  unfold Depot.put
  generalize h : d.begin (.put (Blob.ofBytes data).digest) = begun
  change d.begin (.put (.ofBytes data)) = begun at h
  rw [h] at store
  obtain ⟨_ | e, d'⟩ := begun
  · have step : Store.Step d'.store (d'.store.put (.ofBytes data)).2 := .put d'.store data
    dsimp only at store ⊢
    rw [← store]
    refine ⟨.single step, fun ok => ?_⟩
    unfold Store.put at ok ⊢
    split at ok
    · cases ok
    next accepted =>
      rw [if_neg accepted]
      exact Store.contains_commit d'.store (.ofBytes data) data
  · exact ⟨store ▸ .refl, nofun⟩

end Depot

end BuildWorker
