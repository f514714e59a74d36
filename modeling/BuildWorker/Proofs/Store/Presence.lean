import BuildWorker.Proofs.Store.Calls

/-!
# Whether content is there

Whether there is content under a digest can be asked in four ways: outright, by requesting it, by
asking which of some digests are missing, and by opening a session for it, which is complete from
the start when nothing has to be written.

The four agree on every digest that is not empty (`Desk.run_presence`). Empty content is never
written, so nobody misses it and no session has to be filled with it; yet it is there only if it was
put.
-/

namespace BuildWorker

namespace Store

/-- A request finds what is there. -/
theorem contains_iff_get {s : Store} {d : Digest} :
    s.contains d = true ↔ ∃ b, (s.get d).1 = some b := by
  unfold contains get
  cases s.find? d <;> simp

theorem isNone_get (s : Store) (d : Digest) : (s.get d).1.isNone = !s.contains d := by
  unfold contains get
  cases s.find? d <;> rfl

theorem mem_missing {s : Store} {d : Digest} {digests : List Digest} :
    d ∈ s.missing digests ↔ d ∈ digests ∧ ¬ (d.isEmpty = true ∨ s.contains d = true) := by
  simp [missing]

end Store

namespace Desk

/-- A session can be joined by a key only after it was opened by it. -/
theorem Serves.mem_joinable {d d' : Desk} {c : AnyCall} (h : d.Serves c d') {key : SessionKey}
    {i : Nat} (joinable : (key, i) ∈ d'.joinable) :
    (key, i) ∈ d.joinable ∨ ∃ handle, c = .call (.openSession handle key) := by
  cases h with
  | prunes => exact .inl (List.mem_filter.1 joinable).1
  | opens opens =>
      cases opens with
      | joins => exact .inl (List.mem_filter.1 joinable).1
      | starts =>
          dsimp only at joinable
          split at joinable
          · exact .inl (List.mem_filter.1 joinable).1
          · rcases List.mem_cons.1 joinable with eq | joinable
            · cases eq
              exact .inr ⟨_, rfl⟩
            · exact .inl (List.mem_filter.1 joinable).1
  | stores | admits | writes | resets | dropsHandle | dropsSink => exact .inl joinable

theorem mem_joinable_serveAll {d : Desk} {calls : List AnyCall} {key : SessionKey} {i : Nat}
    (joinable : (key, i) ∈ (d.serveAll calls).joinable) :
    (key, i) ∈ d.joinable ∨ ∃ handle, .call (.openSession handle key) ∈ calls := by
  induction calls generalizing d with
  | nil => exact .inl joinable
  | cons c calls ih =>
      rcases ih joinable with earlier | ⟨handle, mem⟩
      · rcases (d.serve_serves c).mem_joinable earlier with earlier | ⟨handle, rfl⟩
        · exact .inl earlier
        · exact .inr ⟨handle, List.mem_cons_self⟩
      · exact .inr ⟨handle, List.mem_cons_of_mem _ mem⟩

/-- By a key that no session can be joined by, a session is started. -/
theorem held_openSession_of_free {d : Desk} {key : SessionKey} (free : ∀ i, (key, i) ∉ d.joinable)
    (handle : String) : (d.openSession handle key).held? handle =
      some (d.sessions.length, Session.start d.store key.digest) := by
  have opens := d.openSession_opens handle key
  generalize d.openSession handle key = d' at opens ⊢
  cases opens with
  | joins i found => exact absurd (List.mem_filter.1 (mem_of_lookup found)).1 (free i)
  | starts => simp [held?, session?, lookup_assign]

/-- **Whether content is there.** After any calls on a new desk, a request finds content when and
only when it is there. A digest is not missing when and only when a session for it, opened by a key
that was not used before, is complete from the start, which is so when it is there and when it is
empty. What is missing of some digests are those, in order and as often as they are listed, that are
not empty and that a request does not find. -/
theorem run_presence (limit : UInt64) (calls : List AnyCall) (digest : Digest) :
    let d := (ofLimit limit).serveAll calls
    (d.store.contains digest = true ↔ ∃ b, (d.get digest).1 = some b) ∧
    (∀ digests, digest ∈ digests → (digest ∉ d.store.missing digests ↔
      digest.isEmpty = true ∨ d.store.contains digest = true)) ∧
    (∀ number, (∀ handle, .call (.openSession handle ⟨digest, number⟩) ∉ calls) →
      ∀ handle, ∃ i s, (d.openSession handle ⟨digest, number⟩).held? handle = some (i, s) ∧
        (s.complete = true ↔ digest.isEmpty = true ∨ d.store.contains digest = true)) ∧
    ∀ digests, d.store.missing digests =
      digests.filter fun k => !k.isEmpty && (d.get k).1.isNone := by
  intro d
  refine ⟨Store.contains_iff_get, fun digests mem => ?_, fun number fresh handle => ?_,
    fun digests => ?_⟩
  · rw [Store.mem_missing, not_and_not_right]
    exact ⟨fun h => h mem, fun h _ => h⟩
  · have free (i : Nat) : (⟨digest, number⟩, i) ∉ d.joinable := fun joinable => by
      rcases mem_joinable_serveAll joinable with earlier | ⟨handle, mem⟩
      · cases earlier
      · exact fresh handle mem
    exact ⟨_, _, held_openSession_of_free free handle, Bool.or_eq_true_iff⟩
  · refine List.filter_congr fun k _ => ?_
    rw [get, ← Store.isNone_get]

/-- Content under a digest that is not its own, and a session for other content. -/
def sampleTrust : List AnyCall :=
  [.trust ⟨⟨"zz", 1⟩, Watch.sampleBytes⟩, .call (.openSession "handle" ⟨⟨"zz", 2⟩, 0⟩)]

theorem sampleTrust_presence :
    let d := (ofLimit 8).serveAll sampleTrust
    (∃ b, (d.get ⟨"zz", 1⟩).1 = some b) ∧
    ⟨"zz", 1⟩ ∉ d.store.missing [.empty, ⟨"zz", 1⟩, ⟨"zz", 2⟩] ∧
    ∃ i s, (d.openSession "other" ⟨⟨"zz", 1⟩, 0⟩).held? "other" = some (i, s) ∧
      s.complete = true := by
  intro d
  have there : d.store.contains ⟨"zz", 1⟩ = true := by decide +kernel
  obtain ⟨found, missing, complete, -⟩ := run_presence 8 sampleTrust ⟨"zz", 1⟩
  have fresh (handle : String) :
      .call (.openSession handle ⟨⟨"zz", 1⟩, 0⟩) ∉ sampleTrust := by
    simp [sampleTrust]
  obtain ⟨i, s, held, iff⟩ := complete 0 fresh "other"
  exact ⟨found.1 there, (missing _ (by simp)).2 (.inr there), i, s, held, iff.2 (.inr there)⟩

/-- Of empty content that was never put, only those who need not write it hear that it is there. -/
theorem presence_of_empty :
    let d := (ofLimit 0).serveAll []
    ¬ (d.store.contains .empty = true ↔ Digest.empty ∉ d.store.missing [.empty]) ∧
    ¬ ((∃ b, (d.get .empty).1 = some b) ↔
      ((d.openSession "handle" ⟨.empty, 0⟩).held? "handle").any (·.2.complete) = true) ∧
    d.store.missing [.empty] ≠ [Digest.empty].filter fun k => (d.get k).1.isNone := by
  refine ⟨by decide, fun agree => ?_, by decide⟩
  obtain ⟨b, found⟩ := agree.2 (by decide)
  cases found

end Desk

end BuildWorker
