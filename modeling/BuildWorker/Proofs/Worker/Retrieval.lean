import BuildWorker.Proofs.Capture.Insertion
import BuildWorker.Proofs.Json.Records
import BuildWorker.Worker

/-!
# Messages are told by their texts and fetched by their digests

Every type of messages that is hashed or stored is read back from its canonical text, so a text
names one message of the type (`Message.Canonical`).

A queued operation is stored as such a text. Once it is put it is found under its digest, whatever
happens to the store afterwards: what could replace it has the same digest, and is the same text as
long as the two do not collide. So a worker that claims a unit finds the operation that was queued
(`Worker.messages_canonical`).
-/

namespace BuildWorker

/-- Messages of a type are read back from their texts, and so are told by them. -/
structure Message.Canonical (α : Type) [Message α] : Prop where
  decode?_encode : ∀ a : α, Message.decode? (Message.encode a) = some a
  encode_injective : Function.Injective (Message.encode (α := α))

theorem LawfulMessage.canonical (α : Type) [Message α] [LawfulMessage α] : Message.Canonical α :=
  ⟨Message.decode?_encode, Message.encode_injective⟩

namespace Store

/-- Under a digest that leads to genuine content there is genuine content later. -/
theorem Evolves.genuine {s t : Store} (h : Evolves s t) {d : Digest} {data : ByteArray}
    (found : s.find? d = some data) (own : Digest.ofBytes data = d) :
    ∃ later, t.find? d = some later ∧ Digest.ofBytes later = d := by
  induction h with
  | refl => exact ⟨data, found, own⟩
  | tail _ step ih =>
      obtain ⟨now, found, own⟩ := ih
      obtain ⟨-, same | ⟨other, -, stored⟩⟩ := step.blobs
      · refine ⟨now, ?_, own⟩
        rw [find?, same]
        exact found
      · rw [find?, stored, lookup_insertBlob]
        by_cases replaced : d = .ofBytes other
        · rw [if_pos replaced]
          exact ⟨other, rfl, replaced.symm⟩
        · rw [if_neg replaced]
          exact ⟨now, found, own⟩

/-- Content that was put is fetched later, unless other content in the store has its digest. -/
theorem get_of_put {s t : Store} {data : ByteArray}
    (accepted : (s.put (.ofBytes data)).1 = .ok ())
    (evolves : (s.put (.ofBytes data)).2.Evolves t)
    (distinguishes : Digest.Distinguishes (data :: t.blobs.map Prod.snd)) :
    (t.get (.ofBytes data)).1 = some ⟨.ofBytes data, data⟩ := by
  have there : (s.put (.ofBytes data)).2.find? (.ofBytes data) = some data := by
    unfold put at accepted ⊢
    split at accepted
    next => cases accepted
    next within =>
      rw [if_neg within]
      show (s.commit (.ofBytes data) data).find? _ = _
      rw [find?_commit, if_pos rfl]
  obtain ⟨later, found, own⟩ := evolves.genuine there rfl
  have stored : later ∈ t.blobs.map Prod.snd := List.mem_map_of_mem (mem_of_find? found)
  have same : later = data :=
    distinguishes _ (List.mem_cons_of_mem _ stored) _ List.mem_cons_self own
  rw [get, found, same]

end Store

namespace Worker

/-- The queued operation of a unit is what the store has under its digest. -/
theorem queuedOperation_eq {w : Worker} (unscripted : w.depot.callFaults = []) (e : QueueEntry) :
    (w.queuedOperation e).1 = .ok ((w.depot.store.get e.queuedOperationDigest).1.bind fun b =>
      Message.decode? b.data) := by
  unfold queuedOperation Depot.get
  rw [Depot.begin_of_nil unscripted]
  rfl

/-- **Canonical texts are undone by reading them**, for every type of messages that is hashed or
stored. So a queued operation that was put into a store is what a worker finds for a unit that
refers to it. -/
theorem messages_canonical :
    (Message.Canonical Digest ∧ Message.Canonical Property ∧ Message.Canonical Platform ∧
      Message.Canonical ExecutionPolicy ∧ Message.Canonical ExecutionStage ∧
      Message.Canonical ExecuteEntry ∧ Message.Canonical QueueEntry ∧ Message.Canonical Action ∧
      Message.Canonical Command ∧ Message.Canonical QueuedOperation ∧
      Message.Canonical ActionKey ∧ Message.Canonical ActionResult ∧
      Message.Canonical Operation ∧ Message.Canonical Directory ∧ Message.Canonical Tree ∧
      Message.Canonical PreconditionFailure) ∧
    ∀ (q : QueuedOperation) (e : QueueEntry) (s : Store) (w : Worker),
      e.queuedOperationDigest = .ofMessage q → (s.put (.ofMessage q)).1 = .ok () →
      (s.put (.ofMessage q)).2.Evolves w.depot.store → w.depot.callFaults = [] →
      Digest.Distinguishes (Message.encode q :: w.depot.store.blobs.map Prod.snd) →
      (w.queuedOperation e).1 = .ok (some q) := by
  refine ⟨⟨LawfulMessage.canonical _, LawfulMessage.canonical _, LawfulMessage.canonical _,
    LawfulMessage.canonical _, LawfulMessage.canonical _, LawfulMessage.canonical _,
    LawfulMessage.canonical _, LawfulMessage.canonical _, LawfulMessage.canonical _,
    LawfulMessage.canonical _, LawfulMessage.canonical _, LawfulMessage.canonical _,
    LawfulMessage.canonical _, LawfulMessage.canonical _, LawfulMessage.canonical _,
    LawfulMessage.canonical _⟩, ?_⟩
  intro q e s w refers accepted evolves unscripted distinguishes
  have found := Store.get_of_put accepted evolves distinguishes
  have same : e.queuedOperationDigest = .ofBytes (Message.encode q) := refers
  rw [queuedOperation_eq unscripted, same, found, Option.bind_some, Message.decode?_encode]

/-- An operation with a timeout and an environment. -/
def sampleOperation : QueuedOperation where
  action := ⟨.empty, .empty, some (.ofParts 90 500000000), true⟩
  command := { arguments := ["sh", "-c", "\"\n\t"], environmentVariables := [("LANG", "ü")] }
  tree := {}

/-- A unit that refers to the operation. -/
def sampleUnit : QueueEntry where
  executeEntry := ⟨"op", .empty, false⟩
  queuedOperationDigest := .ofMessage sampleOperation

/-- A worker on a store into which the operation was put. -/
def sampleWorker : Worker where
  settings := { inputFetchStageWidth := 1, executeStageWidth := 1 }
  retry := .backplane
  depot := .ofStore ((Store.ofLimit 0).put (.ofMessage sampleOperation)).2

theorem sampleWorker_finds :
    (sampleWorker.queuedOperation sampleUnit).1 = .ok (some sampleOperation) := by
  have put (b : Blob) :
      (Store.ofLimit 0).put b = (.ok (), (Store.ofLimit 0).commit b.digest b.data) :=
    Store.put_of_within rfl
  have blobs (b : Blob) : ((Store.ofLimit 0).put b).2.blobs.map Prod.snd = [b.data] := by
    rw [put]
    rfl
  refine messages_canonical.2 sampleOperation sampleUnit (.ofLimit 0) sampleWorker rfl ?_ .refl rfl
    ?_
  · rw [put]
  · show Digest.Distinguishes (_ :: ((Store.ofLimit 0).put _).2.blobs.map Prod.snd)
    rw [blobs]
    intro a ha b hb _
    simp only [Blob.ofMessage, Blob.ofBytes, List.mem_cons, List.not_mem_nil, or_false,
      or_self] at ha hb
    rw [ha, hb]

end Worker

end BuildWorker
