import BuildWorker.Proofs.Store.Integrity

/-!
# A session takes its content in any pieces

Whatever was written to a session before, it is either complete or has room for at least one byte
(`Session.Roomy`). Once it is reset, the pieces of its content are taken one after the other,
however the content is cut: between two of them the session holds what was written since the reset
(`Session.holding`), and the piece that adds the last byte completes it.

A call on a session meets whatever store there is by then, since others use the store as well. What
becomes of the session does not hang on it.
-/

namespace BuildWorker

/-! ### Pieces -/

/-- Pieces put together. -/
def joined (pieces : List ByteArray) : ByteArray := pieces.foldr (· ++ ·) .empty

theorem joined_cons (piece : ByteArray) (rest : List ByteArray) :
    joined (piece :: rest) = piece ++ joined rest := rfl

theorem joined_append (pieces others : List ByteArray) :
    joined (pieces ++ others) = joined pieces ++ joined others := by
  induction pieces with
  | nil => exact ByteArray.empty_append.symm
  | cons piece rest ih =>
      rw [List.cons_append, joined_cons, ih, joined_cons, ByteArray.append_assoc]

/-- Content whose digest is not empty has bytes. -/
theorem Digest.size_pos {content : ByteArray} {digest : Digest}
    (own : Digest.ofBytes content = digest) (filled : digest.isEmpty = false) :
    0 < content.size := by
  apply Nat.pos_of_ne_zero
  intro zero
  have empty : (Digest.ofBytes content).isEmpty = true := by
    simp [Digest.isEmpty, Digest.ofBytes, zero]
  rw [own, filled] at empty
  cases empty

/-- Content is stored under a digest: other contents stay, and one put is counted. -/
structure Store.Stores (s : Store) (d : Digest) (content : ByteArray) (s' : Store) : Prop where
  limit : s'.limit = s.limit
  find? : ∀ k, s'.find? k = if k = d then some content else s.find? k
  counters : s'.counters = { s.counters with puts := s.counters.puts + 1 }

theorem Store.stores_commit (s : Store) (d : Digest) (content : ByteArray) :
    s.Stores d content (s.commit d content) :=
  ⟨rfl, fun k => find?_commit s d k content, rfl⟩

/-! ### Calls on a session -/

/-- What is called on a session. -/
inductive SessionCall
  /-- Bytes are written, while the store is as given. -/
  | append (s : Store) (data : ByteArray)
  /-- The bytes gathered so far are forgotten. -/
  | reset

namespace Session

/-- The session after a call. -/
def step (w : Session) : SessionCall → Session
  | .append s data => (w.append s data).2.1
  | .reset => w.reset

/-- The session after some calls. -/
def run (w : Session) (calls : List SessionCall) : Session := calls.foldl step w

/-- The session after some pieces were written, each with the store that it met. -/
def write (w : Session) (pieces : List (Store × ByteArray)) : Session :=
  w.run (pieces.map fun piece => .append piece.1 piece.2)

theorem digest_run (w : Session) (calls : List SessionCall) : (w.run calls).digest = w.digest := by
  induction calls generalizing w with
  | nil => rfl
  | cons call rest ih =>
      refine (ih (w.step call)).trans ?_
      cases call with
      | append s data => exact digest_append w s data
      | reset => exact digest_reset w

/-! ### Complete sessions -/

theorem append_of_complete {w : Session} (complete : w.complete = true) (s : Store)
    (data : ByteArray) : w.append s data = (.ok data.size, w, s) := by
  unfold append
  exact if_pos complete

theorem reset_of_complete {w : Session} (complete : w.complete = true) : w.reset = w := by
  unfold reset
  exact if_pos complete

theorem run_of_complete {w : Session} (complete : w.complete = true) (calls : List SessionCall) :
    w.run calls = w := by
  induction calls with
  | nil => rfl
  | cons call rest ih =>
      have same : w.step call = w := by
        cases call with
        | append s data => exact congrArg (·.2.1) (append_of_complete complete s data)
        | reset => exact reset_of_complete complete
      rw [run, List.foldl_cons, same]
      exact ih

/-! ### Room -/

/-- A session that is not complete has room for another byte. -/
def Roomy (w : Session) : Prop := w.complete = false → w.buffer.size < w.digest.size.toNat

theorem roomy_start (s : Store) (d : Digest) : (start s d).Roomy := by
  intro isOpen
  have filled : d.isEmpty = false := (Bool.or_eq_false_iff.1 isOpen).1
  have ne : d.size ≠ 0 := beq_eq_false_iff_ne.1 filled
  exact Nat.pos_of_ne_zero fun zero => ne (UInt64.toNat_inj.1 zero)

theorem Roomy.pos {w : Session} (h : w.Roomy) (isOpen : w.complete = false) :
    0 < w.digest.size.toNat :=
  Nat.zero_lt_of_lt (h isOpen)

theorem Roomy.reset {w : Session} (h : w.Roomy) : w.reset.Roomy := by
  intro isOpen
  cases complete : w.complete with
  | true =>
      rw [reset_of_complete complete] at isOpen ⊢
      exact h isOpen
  | false =>
      rw [Session.reset, if_neg (ne_true_of_eq_false complete)]
      exact h.pos complete

theorem Roomy.append {w : Session} (h : w.Roomy) (s : Store) (data : ByteArray) :
    (w.append s data).2.1.Roomy := by
  have appends := w.append_appends s data
  generalize w.append s data = r at appends ⊢
  cases appends with
  | ignored | refused => exact h
  | gathered isOpen less =>
      intro _
      rw [← ByteArray.size_append] at less
      exact less
  | filled =>
      intro isOpen
      cases isOpen
  | lost isOpen => exact fun _ => h.pos isOpen

theorem Roomy.step {w : Session} (h : w.Roomy) : (call : SessionCall) → (w.step call).Roomy
  | .append s data => h.append s data
  | .reset => h.reset

theorem Roomy.run {w : Session} (h : w.Roomy) (calls : List SessionCall) : (w.run calls).Roomy := by
  induction calls generalizing w with
  | nil => exact h
  | cons call rest ih => exact ih (h.step call)

theorem Roomy.committed_le {w : Session} (h : w.Roomy) : w.committed ≤ w.digest.size.toNat := by
  unfold committed
  split
  · exact Nat.le_refl _
  next notComplete => exact Nat.le_of_lt (h (Bool.eq_false_iff.2 notComplete))

/-! ### Content in pieces -/

/-- A session for `d` that holds some of the first bytes of the content. -/
def holding (d : Digest) (bytes : ByteArray) : Session :=
  if bytes.size = d.size.toNat then { digest := d, complete := true }
  else { digest := d, buffer := bytes, complete := false }

theorem committed_holding (d : Digest) (bytes : ByteArray) :
    (holding d bytes).committed = bytes.size := by
  unfold holding
  split
  next full => exact full.symm
  · rfl

theorem complete_holding {d : Digest} {bytes : ByteArray} :
    (holding d bytes).complete = true ↔ bytes.size = d.size.toNat := by
  unfold holding
  split
  next full => simp [full]
  next less => simp [less]

/-- A session that was reset holds nothing. -/
theorem reset_eq_holding {w : Session} (isOpen : w.complete = false)
    (filled : 0 < w.digest.size.toNat) : w.reset = holding w.digest .empty := by
  have less : ByteArray.empty.size ≠ w.digest.size.toNat := Nat.ne_of_lt filled
  rw [reset, holding, if_neg (ne_true_of_eq_false isOpen), if_neg less, isOpen]

/-- A session that holds the first bytes of its content takes the next ones. -/
theorem append_holding {d : Digest} {content bytes piece rest : ByteArray} (s : Store)
    (own : Digest.ofBytes content = d) (declared : d.size.toNat = content.size)
    (whole : bytes ++ piece ++ rest = content) :
    (holding d bytes).append s piece = (.ok piece.size, holding d (bytes ++ piece),
      if bytes.size < content.size ∧ bytes.size + piece.size = content.size then
        s.commit d content
      else s) := by
  have total : bytes.size + piece.size + rest.size = content.size := by
    rw [← whole, ByteArray.size_append, ByteArray.size_append]
  by_cases full : bytes.size = content.size
  · have nothing : piece = .empty := ByteArray.size_eq_zero_iff.1 (by omega)
    have complete : (holding d bytes).complete = true :=
      complete_holding.2 (full.trans declared.symm)
    rw [append_of_complete complete, nothing, ByteArray.append_empty, if_neg (by omega)]
  · have held : holding d bytes = { digest := d, buffer := bytes, complete := false } :=
      if_neg (by omega)
    have appends := (holding d bytes).append_appends s piece
    rw [held] at appends ⊢
    generalize Session.append { digest := d, buffer := bytes, complete := false } s piece = r
      at appends ⊢
    cases appends with
    | ignored complete => cases complete
    | refused _ excess =>
        dsimp only at excess
        omega
    | gathered _ less =>
        dsimp only at less
        rw [if_neg (by omega), holding, if_neg (by rw [ByteArray.size_append]; omega)]
    | filled _ last same =>
        dsimp only at last same
        have nothing : rest = .empty := ByteArray.size_eq_zero_iff.1 (by omega)
        rw [nothing, ByteArray.append_empty] at whole
        rw [if_pos (by omega), holding, if_pos (by rw [ByteArray.size_append]; omega), whole]
    | lost _ last other =>
        dsimp only at last other
        have nothing : rest = .empty := ByteArray.size_eq_zero_iff.1 (by omega)
        rw [nothing, ByteArray.append_empty] at whole
        rw [whole] at other
        exact absurd own other

/-- What was written is held. -/
theorem write_holding {d : Digest} {content : ByteArray} (own : Digest.ofBytes content = d)
    (declared : d.size.toNat = content.size) (pieces : List (Store × ByteArray))
    (bytes rest : ByteArray) (whole : bytes ++ joined (pieces.map Prod.snd) ++ rest = content) :
    (holding d bytes).write pieces = holding d (bytes ++ joined (pieces.map Prod.snd)) := by
  induction pieces generalizing bytes with
  | nil => exact congrArg (holding d) ByteArray.append_empty.symm
  | cons piece pieces ih =>
      rw [List.map_cons, joined_cons, ← ByteArray.append_assoc] at whole ⊢
      have taken := append_holding piece.1 own declared
        ((ByteArray.append_assoc (a := bytes ++ piece.2)).symm.trans whole)
      have step : (holding d bytes).step (.append piece.1 piece.2) =
          holding d (bytes ++ piece.2) := congrArg (·.2.1) taken
      rw [← ih (bytes ++ piece.2) whole, ← step]
      rfl

/-- What bytes that do not fit do to a session that is not complete. -/
theorem append_refuses {w : Session} (isOpen : w.complete = false) (s : Store) (data : ByteArray) :
    (w.digest.size.toNat < w.committed + data.size →
      w.append s data = (.error (w.overflowError data), w, s)) ∧
    (w.committed + data.size = w.digest.size.toNat → Digest.ofBytes (w.buffer ++ data) ≠ w.digest →
      w.append s data =
        (.error (.ofStore (.digestMismatch w.digest (.ofBytes (w.buffer ++ data)))),
          { w with buffer := .empty }, s)) := by
  have gathered : w.committed = w.buffer.size := if_neg (ne_true_of_eq_false isOpen)
  have appends := w.append_appends s data
  rw [gathered]
  generalize w.append s data = r at appends ⊢
  cases appends with
  | ignored complete => exact absurd complete (ne_true_of_eq_false isOpen)
  | refused _ excess => exact ⟨fun _ => rfl, fun full => by omega⟩
  | gathered _ less => exact ⟨fun excess => by omega, fun full => by omega⟩
  | filled _ full same => exact ⟨fun excess => by omega, fun _ other => absurd same other⟩
  | lost _ full other => exact ⟨fun excess => by omega, fun _ _ => rfl⟩

/-- **A session takes its content in any pieces.** Whatever was called on a session before, it has
not gathered more bytes than its digest declares; as long as it is not complete, bytes beyond that
are refused and change nothing, and bytes that fill it with other content are refused, stored
nowhere and lost.

If it is not complete and is reset, the pieces of its content are taken one after the other, however
the content is cut. The piece that adds the last byte completes the session and stores the content,
which counts as one put, and no other piece changes the store. After that, nothing called on the
session changes it or the store, and all bytes are accepted. -/
theorem write_completes (first : Store) (d : Digest) (history : List SessionCall) :
    let w := (start first d).run history
    w.committed ≤ d.size.toNat ∧
    (w.complete = false → ∀ s data,
      (d.size.toNat < w.committed + data.size →
        w.append s data = (.error (w.overflowError data), w, s)) ∧
      (w.committed + data.size = d.size.toNat → Digest.ofBytes (w.buffer ++ data) ≠ d →
        w.append s data =
          (.error (.ofStore (.digestMismatch d (.ofBytes (w.buffer ++ data)))),
            { w with buffer := .empty }, s))) ∧
    ∀ content pieces, content.size < UInt64.size → Digest.ofBytes content = d →
      w.complete = false → joined (pieces.map Prod.snd) = content →
      (∀ before s piece after, pieces = before ++ (s, piece) :: after →
        let z := w.reset.write before
        let z' := w.reset.write (before ++ [(s, piece)])
        let gathered := (joined (before.map Prod.snd)).size
        (s.exceedsLimit d = false → z.openSink s = (.ok (), s)) ∧
        z.append s piece = (.ok piece.size, z',
          if gathered < content.size ∧ gathered + piece.size = content.size then
            s.commit d content
          else s) ∧
        s.Stores d content (s.commit d content) ∧
        z.committed = gathered ∧ z'.committed = gathered + piece.size ∧
        (z'.complete = true ↔ gathered + piece.size = content.size)) ∧
      let done := w.reset.write pieces
      done.complete = true ∧ ∀ calls s data, done.run calls = done ∧ done.reset = done ∧
        done.append s data = (.ok data.size, done, s) := by
  intro w
  have digest : w.digest = d := digest_run _ history
  have roomy : w.Roomy := (roomy_start first d).run history
  clear_value w
  subst digest
  refine ⟨roomy.committed_le, append_refuses, fun content pieces size own isOpen whole => ?_⟩
  have declared : w.digest.size.toNat = content.size := by
    rw [← own, Digest.ofBytes, UInt64.toNat_ofNat_of_lt' size]
  rw [reset_eq_holding isOpen (roomy.pos isOpen)]
  have held (before after : List (Store × ByteArray)) (split : pieces = before ++ after) :
      (holding w.digest .empty).write before =
        holding w.digest (joined (before.map Prod.snd)) := by
    rw [split, List.map_append, joined_append] at whole
    rw [write_holding own declared before .empty (joined (after.map Prod.snd))
      (by rw [ByteArray.empty_append, whole]), ByteArray.empty_append]
  refine ⟨fun before s piece after split => ?_, ?_⟩
  · intro z z' gathered
    have hz : z = holding w.digest (joined (before.map Prod.snd)) := held before _ split
    have hz' : z' = holding w.digest (joined (before.map Prod.snd) ++ piece) := by
      refine (held (before ++ [(s, piece)]) after (by simp [split])).trans ?_
      rw [List.map_append, joined_append]
      exact congrArg (fun bytes => holding w.digest (_ ++ bytes)) ByteArray.append_empty
    have rest : joined (before.map Prod.snd) ++ piece ++ joined (after.map Prod.snd) = content := by
      rw [← whole, split, List.map_append, joined_append, ByteArray.append_assoc]
      rfl
    have digest : z.digest = w.digest := by
      rw [hz, holding]
      split <;> rfl
    refine ⟨fun within => ?_, ?_, s.stores_commit w.digest content, ?_, ?_, ?_⟩
    · rw [openSink, digest, within]
      rfl
    · rw [hz, hz']
      exact append_holding s own declared rest
    · rw [hz, committed_holding]
    · rw [hz', committed_holding, ByteArray.size_append]
    · rw [hz', complete_holding, ByteArray.size_append, declared]
  · intro done
    have complete : done.complete = true := by
      dsimp only [done]
      rw [held pieces [] (List.append_nil pieces).symm, complete_holding, whole, declared]
    exact ⟨complete, fun calls s data => ⟨run_of_complete complete calls,
      reset_of_complete complete, append_of_complete complete s data⟩⟩

/-- Two bytes are stored by the last of three pieces, one of which is empty, after a byte was
written and others were refused. -/
theorem write_completes_refilled :
    let s := Store.ofLimit 2
    let content : ByteArray := ⟨#[104, 105]⟩
    let history : List SessionCall := [.append s ⟨#[120]⟩, .append s ⟨#[121, 122]⟩]
    let w := (start s (.ofBytes content)).run history
    let before : List (Store × ByteArray) := [(s, ⟨#[104]⟩), (s, .empty)]
    let last : Store × ByteArray := (s, ⟨#[105]⟩)
    content.size < UInt64.size ∧ w.complete = false ∧
      joined ((before ++ [last]).map Prod.snd) = content ∧
      s.Stores (.ofBytes content) content ((w.reset.write before).append s last.2).2.2 ∧
      (w.reset.write (before ++ [last])).complete = true := by
  intro s content history w before last
  have size : content.size < UInt64.size := by decide
  have isOpen : w.complete = false := by rfl
  have whole : joined ((before ++ [last]).map Prod.snd) = content := by decide
  obtain ⟨taken, complete, -⟩ := (write_completes s (.ofBytes content) history).2.2 content
    (before ++ [last]) size rfl isOpen whole
  obtain ⟨-, appended, stores, -⟩ := taken before s last.2 [] rfl
  rw [if_pos (by decide)] at appended
  refine ⟨size, isOpen, whole, ?_, complete⟩
  rw [appended]
  exact stores

end Session

end BuildWorker
