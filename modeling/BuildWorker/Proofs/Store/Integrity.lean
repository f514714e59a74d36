import BuildWorker.Proofs.Tables
import BuildWorker.Store.Session
import Mathlib.Logic.Relation

/-!
# What is in the store is what its digest says

A store trusts the digest of what is put, and a session checks it. As long as everybody puts
content under its own digest, every stored pair is genuine: the digest is that of the bytes, and
no digest exceeds the limit (`Store.Sound`).

`Store.Step` is one thing that happens to a store, `Store.Evolves` any number of them. All that a
step can do to the contents is said once, in `Store.Step.blobs`; that stored digests stay
(`Store.Evolves.contains`) and that stored pairs are genuine (`Store.Evolves.sound`) follow from it.

A digest identifies content only as far as the hash does. Statements about the very bytes ask that
among the contents at hand no two share a digest (`Digest.Distinguishes`). This cannot be had for
all contents, of which there are more than digests.
-/

namespace BuildWorker

/-- Among some contents, no two have the same digest. -/
def Digest.Distinguishes (contents : List ByteArray) : Prop :=
  ∀ a ∈ contents, ∀ b ∈ contents, Digest.ofBytes a = Digest.ofBytes b → a = b

instance (contents : List ByteArray) : Decidable (Digest.Distinguishes contents) :=
  inferInstanceAs (Decidable (∀ a ∈ contents, ∀ b ∈ contents, _ → a = b))

theorem Digest.Distinguishes.mono {contents others : List ByteArray}
    (h : Digest.Distinguishes contents) (sub : ∀ a ∈ others, a ∈ contents) :
    Digest.Distinguishes others :=
  fun a ha b hb => h a (sub a ha) b (sub b hb)

/-- Contents of different sizes have different digests. -/
theorem Digest.distinguishes_pair {a b : ByteArray}
    (sizes : UInt64.ofNat a.size ≠ UInt64.ofNat b.size) : Digest.Distinguishes [a, b] := by
  have ne : Digest.ofBytes a ≠ Digest.ofBytes b := fun same => sizes (congrArg Digest.size same)
  intro c hc c' hc' same
  simp only [List.mem_cons, List.not_mem_nil, or_false] at hc hc'
  rcases hc with rfl | rfl <;> rcases hc' with rfl | rfl
  · rfl
  · exact absurd same ne
  · exact absurd same.symm ne
  · rfl

/-! ### What an append does -/

/-- How an append to a session ends, by what the session is and what the bytes make of it. -/
inductive Session.Appends (w : Session) (s : Store) (data : ByteArray) :
    Except IoError Nat × Session × Store → Prop
  /-- A complete session ignores bytes. -/
  | ignored (complete : w.complete = true) : Appends w s data (.ok data.size, w, s)
  /-- Bytes beyond the declared size are refused. -/
  | refused (isOpen : w.complete = false)
      (excess : w.digest.size.toNat < w.buffer.size + data.size) :
      Appends w s data (.error (w.overflowError data), w, s)
  /-- Bytes that leave room are kept. -/
  | gathered (isOpen : w.complete = false)
      (less : w.buffer.size + data.size < w.digest.size.toNat) :
      Appends w s data (.ok data.size, { w with buffer := w.buffer ++ data }, s)
  /-- Bytes that fill the session with its content complete it. -/
  | filled (isOpen : w.complete = false) (full : w.buffer.size + data.size = w.digest.size.toNat)
      (same : Digest.ofBytes (w.buffer ++ data) = w.digest) :
      Appends w s data (.ok data.size, { w with buffer := .empty, complete := true },
        s.commit w.digest (w.buffer ++ data))
  /-- Bytes that fill the session with other content are lost. -/
  | lost (isOpen : w.complete = false) (full : w.buffer.size + data.size = w.digest.size.toNat)
      (other : Digest.ofBytes (w.buffer ++ data) ≠ w.digest) :
      Appends w s data
        (.error (.ofStore (.digestMismatch w.digest (.ofBytes (w.buffer ++ data)))),
          { w with buffer := .empty }, s)

theorem Session.append_appends (w : Session) (s : Store) (data : ByteArray) :
    w.Appends s data (w.append s data) := by
  unfold append
  split
  next complete => exact .ignored complete
  next notComplete =>
    have isOpen : w.complete = false := Bool.eq_false_iff.2 notComplete
    split
    next excess => exact .refused isOpen excess
    next =>
      dsimp only
      rw [ByteArray.size_append]
      split
      next full =>
        split
        next same => exact .filled isOpen full same
        next other => exact .lost isOpen full other
      next => exact .gathered isOpen (by omega)

namespace Store

/-! ### Contents -/

theorem mem_insertBlob {d : Digest} {data : ByteArray} {blobs : List (Digest × ByteArray)}
    {b : Digest × ByteArray} (h : b ∈ insertBlob d data blobs) : b = (d, data) ∨ b ∈ blobs := by
  induction blobs with
  | nil => exact .inl (List.mem_singleton.1 h)
  | cons c rest ih =>
      unfold insertBlob at h
      split at h
      · rcases List.mem_cons.1 h with h | h
        · exact .inl h
        · exact .inr (List.mem_cons_of_mem _ h)
      · rcases List.mem_cons.1 h with h | h
        · exact .inr (h ▸ List.mem_cons_self)
        · rcases ih h with h | h
          · exact .inl h
          · exact .inr (List.mem_cons_of_mem _ h)

theorem mem_of_find? {s : Store} {d : Digest} {data : ByteArray} (h : s.find? d = some data) :
    (d, data) ∈ s.blobs :=
  mem_of_lookup h

theorem contains_iff {s : Store} {d : Digest} :
    s.contains d = true ↔ ∃ data, s.find? d = some data := by
  rw [contains, Option.isSome_iff_exists]

theorem exceedsLimit_congr {s t : Store} (limit : t.limit = s.limit) (digest : Digest) :
    t.exceedsLimit digest = s.exceedsLimit digest := by
  rw [exceedsLimit, limit]
  rfl

theorem exceedsLimit_of_isEmpty (s : Store) {digest : Digest} (empty : digest.isEmpty = true) :
    s.exceedsLimit digest = false := by
  have size : digest.size = 0 := beq_iff_eq.1 empty
  rw [exceedsLimit, size]
  have never : decide (s.limit < 0) = false := decide_eq_false (Nat.not_lt_zero _)
  rw [never, Bool.and_false]

theorem contains_commit (s : Store) (d : Digest) (data : ByteArray) :
    (s.commit d data).contains d = true := by
  rw [contains, find?_commit, if_pos rfl]
  rfl

theorem contains_commit_iff {s : Store} {d k : Digest} {data : ByteArray} :
    (s.commit d data).contains k = true ↔ s.contains k = true ∨ k = d := by
  rw [contains, find?_commit]
  by_cases same : k = d
  · simp [same]
  · simp [same, contains]

theorem put_of_within {s : Store} {b : Blob} (within : s.exceedsLimit b.digest = false) :
    s.put b = (.ok (), s.commit b.digest b.data) := by
  simp [put, within]

theorem put_fst (s : Store) (b : Blob) : (s.put b).1 =
    if s.exceedsLimit b.digest then .error (.entryLimit b.digest) else .ok () := by
  unfold put
  split <;> rfl

theorem contains_put_iff {s : Store} {b : Blob} {d : Digest} : (s.put b).2.contains d = true ↔
    s.contains d = true ∨ d = b.digest ∧ s.exceedsLimit d = false := by
  unfold put
  by_cases same : d = b.digest
  · rw [same]
    cases within : s.exceedsLimit b.digest with
    | true => simp [contains]
    | false => simp [contains_commit_iff]
  · split
    · simp [contains, same]
    · simp [contains_commit_iff, same]

/-- Every stored pair is genuine and within the limit. -/
structure Sound (s : Store) : Prop where
  genuine : ∀ b ∈ s.blobs, b.1 = Digest.ofBytes b.2
  /-- The digest does not exceed the limit. -/
  within : ∀ b ∈ s.blobs, s.exceedsLimit b.1 = false

theorem sound_ofLimit (limit : UInt64) : (ofLimit limit).Sound :=
  ⟨fun _ h => absurd h List.not_mem_nil, fun _ h => absurd h List.not_mem_nil⟩

/-- What is too large is not there. -/
theorem Sound.absent {s : Store} (h : s.Sound) {digest : Digest}
    (excess : s.exceedsLimit digest = true) : s.contains digest = false := by
  by_contra there
  obtain ⟨data, found⟩ := contains_iff.1 (Bool.not_eq_false _ ▸ there)
  rw [h.within _ (mem_of_find? found)] at excess
  cases excess

/-- What is found under a digest has that digest. -/
theorem Sound.ofBytes_of_find? {s : Store} (h : s.Sound) {d : Digest} {data : ByteArray}
    (found : s.find? d = some data) : Digest.ofBytes data = d :=
  (h.genuine _ (mem_of_find? found)).symm

/-- A digest that is there leads to its content. -/
theorem Sound.get_ofBytes {s : Store} (h : s.Sound) {content : ByteArray}
    (distinguishes : Digest.Distinguishes (content :: s.blobs.map Prod.snd))
    (there : s.contains (.ofBytes content) = true) :
    (s.get (.ofBytes content)).1 = some ⟨.ofBytes content, content⟩ := by
  obtain ⟨data, found⟩ := contains_iff.1 there
  have stored : data ∈ s.blobs.map Prod.snd := List.mem_map_of_mem (mem_of_find? found)
  have same : data = content := distinguishes _ (List.mem_cons_of_mem _ stored) _
    List.mem_cons_self (h.ofBytes_of_find? found)
  rw [get, found, same]

/-! ### Steps -/

/-- One thing that happens to a store. Content is put under its own digest, and bytes reach a
session only by a sink, which is refused for content above the limit. -/
inductive Step : Store → Store → Prop
  /-- Content is put. -/
  | put (s : Store) (data : ByteArray) : Step s (s.put (.ofBytes data)).2
  /-- Content is requested. -/
  | get (s : Store) (d : Digest) : Step s (s.get d).2
  | openSink (s : Store) (w : Session) : Step s (w.openSink s).2
  /-- Bytes are written to a session. -/
  | append (s : Store) (w : Session) (data : ByteArray) (within : s.exceedsLimit w.digest = false) :
      Step s (w.append s data).2.2

/-- All that a step does to the contents: nothing, or it stores content under its own digest,
which is within the limit. -/
theorem Step.blobs {s t : Store} (h : Step s t) :
    t.limit = s.limit ∧ (t.blobs = s.blobs ∨
      ∃ data, s.exceedsLimit (.ofBytes data) = false ∧
        t.blobs = insertBlob (.ofBytes data) data s.blobs) := by
  cases h with
  | put data =>
      unfold Store.put
      split
      · exact ⟨rfl, .inl rfl⟩
      next within => exact ⟨rfl, .inr ⟨data, Bool.eq_false_iff.2 within, rfl⟩⟩
  | get d =>
      unfold Store.get
      split <;> exact ⟨rfl, .inl rfl⟩
  | openSink w =>
      unfold Session.openSink
      split <;> exact ⟨rfl, .inl rfl⟩
  | append w data within =>
      have appends := w.append_appends s data
      cases hr : w.append s data with
      | mk answer rest =>
          rw [hr] at appends
          cases appends with
          | ignored | refused | gathered | lost => exact ⟨rfl, .inl rfl⟩
          | filled _ _ same =>
              refine ⟨rfl, .inr ⟨w.buffer ++ data, same ▸ within, ?_⟩⟩
              rw [same]
              rfl

theorem Step.sound {s t : Store} (h : Step s t) (hs : s.Sound) : t.Sound := by
  obtain ⟨limit, eq | ⟨data, within, eq⟩⟩ := h.blobs
  · refine ⟨fun b hb => hs.genuine b (eq ▸ hb), fun b hb => ?_⟩
    rw [exceedsLimit, limit]
    exact hs.within b (eq ▸ hb)
  · refine ⟨fun b hb => ?_, fun b hb => ?_⟩
    · rcases mem_insertBlob (eq ▸ hb) with rfl | hb
      · rfl
      · exact hs.genuine b hb
    · rw [exceedsLimit, limit]
      rcases mem_insertBlob (eq ▸ hb) with rfl | hb
      · exact within
      · exact hs.within b hb

theorem Step.contains {s t : Store} (h : Step s t) {d : Digest} (hd : s.contains d = true) :
    t.contains d = true := by
  obtain ⟨-, eq | ⟨data, -, eq⟩⟩ := h.blobs
  · simpa [Store.contains, find?, eq] using hd
  · rw [Store.contains, find?, eq, lookup_insertBlob]
    split
    · rfl
    · exact hd

/-- Any number of steps. -/
abbrev Evolves : Store → Store → Prop := Relation.ReflTransGen Step

/-- A store that began empty. -/
def Reachable (s : Store) : Prop := ∃ limit, Evolves (.ofLimit limit) s

theorem Evolves.sound {s t : Store} (h : Evolves s t) (hs : s.Sound) : t.Sound := by
  induction h with
  | refl => exact hs
  | tail _ step ih => exact step.sound ih

/-- Stored digests stay. -/
theorem Evolves.contains {s t : Store} (h : Evolves s t) {d : Digest} (hd : s.contains d = true) :
    t.contains d = true := by
  induction h with
  | refl => exact hd
  | tail _ step ih => exact step.contains ih

theorem Evolves.limit_eq {s t : Store} (h : Evolves s t) : t.limit = s.limit := by
  induction h with
  | refl => rfl
  | tail _ step ih => exact step.blobs.1.trans ih

theorem Evolves.exceedsLimit {s t : Store} (h : Evolves s t) (digest : Digest) :
    t.exceedsLimit digest = s.exceedsLimit digest :=
  exceedsLimit_congr h.limit_eq digest

theorem Reachable.sound {s : Store} (h : s.Reachable) : s.Sound := by
  obtain ⟨limit, evolves⟩ := h
  exact evolves.sound (sound_ofLimit limit)

end Store

end BuildWorker
