import BuildWorker.Proofs.Store.Calls
import Mathlib.Algebra.BigOperators.Group.Finset.Basic

/-!
# The account is exact

A store counts what it does. Those who call can count too: a `Tally` goes along with a desk and
notes what they are told, which contents were accepted, which sessions an append completed, and
under which digests something was stored. The two counts are the same at all times
(`Tally.Sound`), as every call preserves (`Tally.Sound.perform`).

There are three things that the store counts: requests, contents stored and contents refused
(`Store.Accounts`). Requests are counted in all, and apart from that by whether they find content;
these counts agree, since every request bumps two of them. Whoever stores content, by a put or
through a session, stores it by `Store.commit`, so what this does to the digests that are there is
said once.
-/

namespace BuildWorker

open Finset

namespace Store

/-! ### What is there -/

/-- The digests under which there is content. -/
def digests (s : Store) : List Digest := s.blobs.map Prod.fst

/-- How many bytes a request for a digest finds. -/
def sizeAt (s : Store) (d : Digest) : Nat := (s.get d).1.elim 0 fun b => b.data.size

theorem map_fst_insertBlob (d : Digest) (data : ByteArray) (blobs : List (Digest × ByteArray)) :
    (insertBlob d data blobs).map Prod.fst =
      if d ∈ blobs.map Prod.fst then blobs.map Prod.fst else blobs.map Prod.fst ++ [d] := by
  induction blobs with
  | nil => rfl
  | cons b rest ih =>
      unfold insertBlob
      by_cases same : b.1 = d
      · simp [same]
      · rw [if_neg same, List.map_cons, ih, List.map_cons]
        simp only [List.mem_cons, Ne.symm same, false_or]
        split <;> rfl

theorem digests_commit (s : Store) (d : Digest) (data : ByteArray) :
    (s.commit d data).digests = if d ∈ s.digests then s.digests else s.digests ++ [d] :=
  map_fst_insertBlob d data s.blobs

/-- When no digest stands twice, all bytes are those that requests find. -/
theorem totalBytes_eq_sum {s : Store} (distinct : s.digests.Nodup) :
    s.totalBytes = ∑ d ∈ s.digests.toFinset, s.sizeAt d := by
  have sizes (b : Digest × ByteArray) (mem : b ∈ s.blobs) : s.sizeAt b.1 = b.2.size := by
    have found : s.find? b.1 = some b.2 := (lookup_eq_some_iff_mem distinct).2 mem
    rw [sizeAt, get, found]
    rfl
  calc s.totalBytes
      = (s.blobs.map fun b => b.2.size).sum := by rw [List.sum_eq_foldr, List.foldr_map]; rfl
    _ = (s.digests.map s.sizeAt).sum := by
        rw [digests, List.map_map]
        exact congrArg List.sum (List.map_congr_left fun b mem => (sizes b mem).symm)
    _ = ∑ d ∈ s.digests.toFinset, s.sizeAt d := (List.sum_toFinset _ distinct).symm

/-! ### What is counted -/

/-- The store counts so many requests, of which so many found content, and so many refusals; and it
counts one content stored for each of some digests, which are those that are there. -/
structure Accounts (s : Store) (requests found refused : Nat) (stored : List Digest) : Prop where
  gets : s.counters.gets = requests
  hits : s.counters.hits = found
  /-- A request that did not find content is a miss. -/
  misses : found + s.counters.misses = requests
  rejected : s.counters.rejected = refused
  puts : s.counters.puts = stored.length
  /-- No digest stands twice. -/
  distinct : s.digests.Nodup
  there : s.digests.toFinset = stored.toFinset

theorem accounts_ofLimit (limit : UInt64) : (ofLimit limit).Accounts 0 0 0 [] where
  gets := rfl
  hits := rfl
  misses := rfl
  rejected := rfl
  puts := rfl
  distinct := .nil
  there := rfl

variable {s : Store} {requests found refused : Nat} {stored : List Digest}

theorem Accounts.get (h : s.Accounts requests found refused stored) (d : Digest) :
    (s.get d).2.Accounts (requests + 1) (if (s.get d).1.isSome then found + 1 else found) refused
      stored := by
  have gets := congrArg (· + 1) h.gets
  have both := congrArg (· + 1) h.misses
  unfold Store.get
  split
  · refine { h with gets, hits := congrArg (· + 1) h.hits, misses := ?_ }
    exact (Nat.add_right_comm ..).trans both
  · exact { h with gets, misses := both }

theorem Accounts.refuse (h : s.Accounts requests found refused stored) :
    (s.record .rejected).Accounts requests found (refused + 1) stored :=
  { h with rejected := congrArg (· + 1) h.rejected }

theorem Accounts.commit (h : s.Accounts requests found refused stored) (d : Digest)
    (data : ByteArray) : (s.commit d data).Accounts requests found refused (d :: stored) := by
  refine { h with puts := congrArg (· + 1) h.puts, distinct := ?_, there := ?_ }
  · rw [digests_commit]
    split
    · exact h.distinct
    next absent => exact List.nodup_append.2 ⟨h.distinct, List.nodup_singleton d, by grind⟩
  · rw [digests_commit, List.toFinset_cons, ← h.there]
    split
    next mem => exact (insert_eq_self.2 (List.mem_toFinset.2 mem)).symm
    next => rw [List.toFinset_append, union_comm]; rfl

end Store

/-- A desk, and what those who call are told. -/
structure Tally where
  desk : Desk
  /-- Requests. -/
  requests : Nat := 0
  /-- Requests that were given content. -/
  found : Nat := 0
  /-- Contents that were put and accepted. -/
  accepted : Nat := 0
  /-- Contents and sinks that were refused for their size. -/
  refused : Nat := 0
  /-- The sessions that an append completed. -/
  completed : List Nat := []
  /-- The digests of what was accepted, and of the sessions that were completed. -/
  stored : List Digest := []

namespace Tally

/-- A new desk. -/
def ofLimit (limit : UInt64) : Tally := { desk := .ofLimit limit }

/-- Note the answer to a request. -/
def noteGet (t : Tally) (answer : Option Blob) : Tally :=
  { t with
    requests := t.requests + 1
    found := if answer.isSome then t.found + 1 else t.found }

/-- Note the answer to a put. -/
def notePut (t : Tally) (digest : Digest) : Except StoreError Unit → Tally
  | .ok () => { t with accepted := t.accepted + 1, stored := digest :: t.stored }
  | .error (.entryLimit _) => { t with refused := t.refused + 1 }
  | .error _ => t

/-- Note the answer to a call for a sink. -/
def noteSink (t : Tally) : Option (Except StoreError Unit) → Tally
  | some (.error (.entryLimit _)) => { t with refused := t.refused + 1 }
  | _ => t

/-- Note whether bytes completed the session at a position, as it was before. -/
def noteWrite (t : Tally) (i : Nat) (before : Session) : Tally :=
  if !before.complete && (t.desk.session? i).any Session.complete then
    { t with completed := i :: t.completed, stored := before.digest :: t.stored }
  else t

/-- A call, and what its answer tells. -/
def perform (t : Tally) (c : AnyCall) : Tally :=
  let t' := { t with desk := t.desk.serve c }
  match c with
  | .trust b => t'.notePut b.digest (t.desk.put b).1
  | .call (.put data) => t'.notePut (.ofBytes data) (t.desk.put (.ofBytes data)).1
  | .call (.get digest) => t'.noteGet (t.desk.get digest).1
  | .call (.openSink sink handle) => t'.noteSink (t.desk.openSink sink handle).1
  | .call (.write sink _) =>
    match t.desk.target? sink with
    | some (i, before) => t'.noteWrite i before
    | none => t'
  | _ => t'

/-- Any number of calls. -/
def run (t : Tally) (calls : List AnyCall) : Tally := calls.foldl perform t

/-- The store and those who call count the same. -/
structure Sound (t : Tally) : Prop where
  accounts : t.desk.store.Accounts t.requests t.found t.refused t.stored
  stored : t.stored.length = t.accepted + t.completed.length
  /-- No session is completed twice. -/
  once : t.completed.Nodup
  complete : ∀ i ∈ t.completed, ∃ s, t.desk.session? i = some s ∧ s.complete = true

theorem sound_ofLimit (limit : UInt64) : (ofLimit limit).Sound where
  accounts := Store.accounts_ofLimit limit
  stored := rfl
  once := .nil
  complete := nofun

variable {t : Tally}

/-- No call reopens a session that was completed. -/
theorem Sound.complete_serve (h : t.Sound) (c : AnyCall) (i : Nat) (mem : i ∈ t.completed) :
    ∃ s, (t.desk.serve c).session? i = some s ∧ s.complete = true := by
  obtain ⟨s, there, done⟩ := h.complete i mem
  exact (t.desk.serve_serves c).complete there done

/-- A call that leaves the store as it is. -/
theorem Sound.of_store_eq (h : t.Sound) (c : AnyCall)
    (store : (t.desk.serve c).store = t.desk.store) :
    ({ t with desk := t.desk.serve c } : Tally).Sound :=
  { h with
    accounts := store.symm ▸ h.accounts
    complete := h.complete_serve c }

theorem Sound.put (h : t.Sound) (b : Blob) :
    (({ t with desk := (t.desk.put b).2 } : Tally).notePut b.digest (t.desk.put b).1).Sound := by
  unfold Desk.put Store.put
  cases t.desk.store.exceedsLimit b.digest with
  | true => exact { h with accounts := h.accounts.refuse }
  | false =>
      refine { h with accounts := h.accounts.commit b.digest b.data, stored := ?_ }
      exact (congrArg (· + 1) h.stored).trans (Nat.add_right_comm ..)

theorem Sound.openSink (h : t.Sound) (sink handle : String) :
    (t.perform (.call (.openSink sink handle))).Sound := by
  change (({ t with desk := (t.desk.openSink sink handle).2 } : Tally).noteSink
    (t.desk.openSink sink handle).1).Sound
  rw [Desk.openSink_eq]
  split
  · split
    · exact { h with accounts := h.accounts.refuse }
    · exact { h with }
  · exact h

theorem noteWrite_of_same (before : Session) {d' : Desk} {i : Nat} {after : Session}
    (there : d'.session? i = some after) (same : after.complete = before.complete) :
    ({ t with desk := d' } : Tally).noteWrite i before = { t with desk := d' } := by
  simp [noteWrite, there, same]

theorem noteWrite_of_completes {d' : Desk} {i : Nat} {before after : Session}
    (there : d'.session? i = some after) (isOpen : before.complete = false)
    (done : after.complete = true) : ({ t with desk := d' } : Tally).noteWrite i before =
      { t with
        desk := d'
        completed := i :: t.completed
        stored := before.digest :: t.stored } := by
  simp [noteWrite, there, isOpen, done]

theorem Sound.write (h : t.Sound) (sink : String) (data : ByteArray) :
    (t.perform (.call (.write sink data))).Sound := by
  have kept := h.complete_serve (.call (.write sink data))
  have same := h.of_store_eq (.call (.write sink data))
  unfold perform
  dsimp only
  cases target : t.desk.target? sink with
  | none =>
      rw [Desk.serve_write_of_none target]
      exact h
  | some found =>
      obtain ⟨i, s⟩ := found
      have here := (Desk.target?_eq_some_iff.1 target).2
      have appends := s.append_appends t.desk.store data
      rw [Desk.serve_write_of_some target] at kept same ⊢
      dsimp only
      generalize s.append t.desk.store data = r at appends kept same ⊢
      have there := (Desk.session?_set here r.2.2 r.2.1 i).trans (if_pos rfl)
      cases appends with
      | ignored | refused | gathered | lost =>
          rw [noteWrite_of_same s there rfl]
          exact same rfl
      | filled isOpen =>
          rw [noteWrite_of_completes there isOpen rfl]
          refine ⟨h.accounts.commit s.digest _, congrArg (· + 1) h.stored, ?_, fun j mem => ?_⟩
          -- What was completed before is not open now.
          · refine List.nodup_cons.2 ⟨fun mem => ?_, h.once⟩
            obtain ⟨w, there, done⟩ := h.complete i mem
            cases here.symm.trans there
            rw [isOpen] at done
            cases done
          · rcases List.mem_cons.1 mem with rfl | mem
            · exact ⟨_, there, rfl⟩
            · exact kept j mem

theorem Sound.perform (h : t.Sound) (c : AnyCall) : (t.perform c).Sound := by
  cases c with
  | trust b => exact h.put b
  | call c =>
      cases c with
      | put data => exact h.put (.ofBytes data)
      | get digest => exact { h with accounts := h.accounts.get digest }
      | openSink sink handle => exact h.openSink sink handle
      | write sink data => exact h.write sink data
      | openSession handle key =>
          exact h.of_store_eq _ (t.desk.openSession_opens handle key).store
      | reset handle =>
          refine h.of_store_eq _ ?_
          change (t.desk.reset handle).store = _
          unfold Desk.reset
          split <;> rfl
      | contains | missing | dropHandle | dropSink | activeWrites | account =>
          exact h.of_store_eq _ rfl

theorem Sound.run (h : t.Sound) (calls : List AnyCall) : (t.run calls).Sound := by
  induction calls generalizing t with
  | nil => exact h
  | cons c calls ih => exact ih (h.perform c)

/-- **The account is exact.** After any calls on a new desk that are not too many to be counted, the
account says how many requests there were, how many of them were given content and how many were
not. It says how many contents were accepted and sessions completed, none of these twice, and how
many contents and sinks were refused. There are as many entries as different digests were ever
stored, and as many bytes as requests for them find; so there are never more entries than contents
were stored. -/
theorem run_account (limit : UInt64) (calls : List AnyCall) :
    let t := (ofLimit limit).run calls
    let account := t.desk.store.account
    t.requests < 2 ^ 64 → t.accepted + t.completed.length < 2 ^ 64 → t.refused < 2 ^ 64 →
    account.hits.toNat + account.misses.toNat = account.totalGets.toNat ∧
    account.totalGets.toNat = t.requests ∧
    account.hits.toNat = t.found ∧
    account.totalPuts.toNat = t.accepted + t.completed.length ∧ t.completed.Nodup ∧
    account.rejectedPuts.toNat = t.refused ∧
    account.entryCount.toNat = #t.stored.toFinset ∧
    (∑ d ∈ t.stored.toFinset, t.desk.store.sizeAt d < 2 ^ 64 →
      account.totalBytes.toNat = ∑ d ∈ t.stored.toFinset, t.desk.store.sizeAt d) ∧
    account.entryCount.toNat ≤ account.totalPuts.toNat := by
  intro t account requests stores refusals
  have sound : t.Sound := (sound_ofLimit limit).run calls
  have accounts := sound.accounts
  have gets : account.totalGets.toNat = t.requests :=
    (UInt64.toNat_ofNat_of_lt' (accounts.gets.trans_lt requests)).trans accounts.gets
  have both : t.found + t.desk.store.counters.misses < 2 ^ 64 := accounts.misses.trans_lt requests
  have found : t.desk.store.counters.hits < 2 ^ 64 :=
    accounts.hits.trans_lt (Nat.lt_of_le_of_lt (Nat.le_add_right ..) both)
  have hits : account.hits.toNat = t.found :=
    (UInt64.toNat_ofNat_of_lt' found).trans accounts.hits
  have misses : account.misses.toNat = t.desk.store.counters.misses :=
    UInt64.toNat_ofNat_of_lt' (Nat.lt_of_le_of_lt (Nat.le_add_left ..) both)
  have few : t.stored.length < 2 ^ 64 := sound.stored.trans_lt stores
  have puts : account.totalPuts.toNat = t.stored.length :=
    (UInt64.toNat_ofNat_of_lt' (accounts.puts.trans_lt few)).trans accounts.puts
  have rejected : account.rejectedPuts.toNat = t.refused :=
    (UInt64.toNat_ofNat_of_lt' (accounts.rejected.trans_lt refusals)).trans accounts.rejected
  have length : t.desk.store.blobs.length = #t.stored.toFinset := by
    rw [← accounts.there, List.toFinset_card_of_nodup accounts.distinct, Store.digests,
      List.length_map]
  have most : #t.stored.toFinset ≤ t.stored.length := List.toFinset_card_le _
  have entries : account.entryCount.toNat = #t.stored.toFinset :=
    (UInt64.toNat_ofNat_of_lt' (length.trans_lt (most.trans_lt few))).trans length
  have bytes := Store.totalBytes_eq_sum accounts.distinct
  rw [accounts.there] at bytes
  refine ⟨?_, gets, hits, puts.trans sound.stored, sound.once, rejected, entries,
    fun light => ?_, ?_⟩
  · rw [hits, misses, gets]
    exact accounts.misses
  · exact (UInt64.toNat_ofNat_of_lt' (bytes.trans_lt light)).trans bytes
  · rw [entries, puts]
    exact most

/-- Content is written through a session, put again and requested; other content is refused. -/
def sampleErrands : List AnyCall :=
  Watch.sampleCalls.map .call ++
    [.call (.put Watch.sampleBytes), .call (.get (.ofBytes Watch.sampleBytes)),
      .call (.get .empty), .trust ⟨⟨"zz", 9⟩, .empty⟩]

theorem sampleErrands_noted :
    let t := (ofLimit 8).run sampleErrands
    (t.requests, t.found, t.accepted, t.completed, t.refused, #t.stored.toFinset,
      ∑ d ∈ t.stored.toFinset, t.desk.store.sizeAt d) = (2, 1, 1, [0], 1, 1, 1) := by
  decide +kernel

theorem sampleErrands_account :
    let account := ((ofLimit 8).run sampleErrands).desk.store.account
    account.totalGets.toNat = 2 ∧ account.hits.toNat = 1 ∧ account.totalPuts.toNat = 2 ∧
    account.rejectedPuts.toNat = 1 ∧ account.entryCount.toNat = 1 ∧
    account.totalBytes.toNat = 1 := by
  have noted := sampleErrands_noted
  simp only [Prod.mk.injEq] at noted
  obtain ⟨requests, found, accepted, completed, refused, entries, bytes⟩ := noted
  have account := run_account 8 sampleErrands
  simp only [requests, found, accepted, completed, refused, entries, bytes] at account
  obtain ⟨-, gets, hits, puts, -, rejected, entries, bytes, -⟩ :=
    account (by decide) (by decide) (by decide)
  exact ⟨gets, hits, puts, rejected, entries, bytes (by decide)⟩

end Tally

end BuildWorker
