import BuildWorker.Failure
import BuildWorker.Store.Account

/-!
# The content store

Content is kept under its digest and found by nothing else. The store trusts the digest of what
is put; it refuses content whose digest declares more bytes than the limit. What is once stored
stays, though a later put under the same digest replaces the bytes.
-/

namespace BuildWorker

/-- Contents by digest, with an account of the requests. -/
structure Store where
  /-- The largest size accepted for one content; zero means any. -/
  limit : UInt64
  /-- The contents, in the order in which their digests were first stored. -/
  blobs : List (Digest × ByteArray) := []
  /-- What was asked so far. -/
  counters : Counters := {}

namespace Store

/-- The limit of a store that is not told another: two gibibytes. -/
def defaultLimit : UInt64 := 2147483648

/-- A new store. -/
def ofLimit (limit : UInt64) : Store := { limit }

/-- Whether a digest declares more bytes than the store accepts. -/
def exceedsLimit (s : Store) (d : Digest) : Bool := 0 < s.limit && s.limit < d.size

/-- The bytes under a digest. -/
def find? (s : Store) (d : Digest) : Option ByteArray := s.blobs.lookup d

/-- Whether there is content under a digest. -/
def contains (s : Store) (d : Digest) : Bool := (s.find? d).isSome

/-- Count an event. -/
def record (s : Store) (e : StoreEvent) : Store := { s with counters := s.counters.record e }

/-- The listed digests without content, in order; empty content is never missing. -/
def missing (s : Store) (digests : List Digest) : List Digest :=
  digests.filter fun d => !d.isEmpty && !s.contains d

/-- Request the content under a digest. -/
def get (s : Store) (d : Digest) : Option Blob × Store :=
  match s.find? d with
  | some data => (some ⟨d, data⟩, s.record .hit)
  | none => (none, s.record .miss)

/-- Replace the bytes under a digest, or add them at the end. -/
def insertBlob (d : Digest) (data : ByteArray) :
    List (Digest × ByteArray) → List (Digest × ByteArray)
  | [] => [(d, data)]
  | (k, v) :: rest => if k = d then (d, data) :: rest else (k, v) :: insertBlob d data rest

/-- Store content under a digest, counting it. -/
def commit (s : Store) (d : Digest) (data : ByteArray) : Store :=
  { s with blobs := insertBlob d data s.blobs }.record .put

/-- Store a blob, unless its digest exceeds the limit. -/
def put (s : Store) (b : Blob) : Except StoreError Unit × Store :=
  if s.exceedsLimit b.digest then (.error (.entryLimit b.digest), s.record .rejected)
  else (.ok (), s.commit b.digest b.data)

/-- Bytes in all. -/
def totalBytes (s : Store) : Nat := s.blobs.foldr (fun b total => b.2.size + total) 0

/-- The snapshot of the store. -/
def account (s : Store) : Account :=
  s.counters.account (UInt64.ofNat s.blobs.length) (UInt64.ofNat s.totalBytes)

/-! ### What an insertion changes -/

theorem lookup_insertBlob (d k : Digest) (data : ByteArray) (blobs : List (Digest × ByteArray)) :
    (insertBlob d data blobs).lookup k = if k = d then some data else blobs.lookup k := by
  induction blobs with
  | nil =>
    by_cases h : k = d
    · simp [insertBlob, h]
    · have hb : (k == d) = false := by simpa using h
      simp [insertBlob, List.lookup_cons, h, hb]
  | cons b rest ih =>
    obtain ⟨k', v⟩ := b
    unfold insertBlob
    by_cases hk : k' = d
    · subst hk
      by_cases h : k = k'
      · simp [h]
      · have hb : (k == k') = false := by simpa using h
        simp [List.lookup_cons, h, hb]
    · rw [if_neg hk]
      by_cases h : k = k'
      · subst h
        simp [hk]
      · have hb : (k == k') = false := by simpa using h
        simp [List.lookup_cons, ih, hb]

@[simp] theorem find?_record (s : Store) (e : StoreEvent) (d : Digest) :
    (s.record e).find? d = s.find? d := rfl

@[simp] theorem find?_commit (s : Store) (d k : Digest) (data : ByteArray) :
    (s.commit d data).find? k = if k = d then some data else s.find? k :=
  lookup_insertBlob d k data s.blobs

end Store

end BuildWorker
