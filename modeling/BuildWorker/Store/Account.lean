import BuildWorker.Decimal.Binary64
import BuildWorker.Json.Message

/-!
# The account of a store

A store counts what it is asked for and how it answers. `Counters` are the running counts; an
`Account` is a snapshot of them together with the size of the store and the share of hits.
-/

namespace BuildWorker

/-- Running counts of a store's answers. -/
structure Counters where
  /-- Requests in all, counted apart from how they end. -/
  gets : Nat := 0
  /-- Requests that found the content. -/
  hits : Nat := 0
  /-- Requests that did not. -/
  misses : Nat := 0
  /-- Contents stored. -/
  puts : Nat := 0
  /-- Contents refused for their size. -/
  rejected : Nat := 0
  deriving DecidableEq, Repr

/-- An event that is counted. -/
inductive StoreEvent
  /-- A request found the content. -/
  | hit
  /-- A request did not find the content. -/
  | miss
  /-- Content was stored. -/
  | put
  /-- Content was refused for its size. -/
  | rejected
  deriving DecidableEq, Repr

/-- Count an event. -/
def Counters.record (c : Counters) : StoreEvent → Counters
  | .hit => { c with gets := c.gets + 1, hits := c.hits + 1 }
  | .miss => { c with gets := c.gets + 1, misses := c.misses + 1 }
  | .put => { c with puts := c.puts + 1 }
  | .rejected => { c with rejected := c.rejected + 1 }

/-- A snapshot of a store. -/
structure Account where
  /-- Requests in all. -/
  totalGets : UInt64
  /-- Requests that found the content. -/
  hits : UInt64
  /-- Requests that did not. -/
  misses : UInt64
  /-- Contents stored. -/
  totalPuts : UInt64
  /-- Contents refused for their size. -/
  rejectedPuts : UInt64
  /-- Contents there are now. -/
  entryCount : UInt64
  /-- Bytes there are now. -/
  totalBytes : UInt64
  /-- Hits among requests, zero before the first request. -/
  hitRate : Float

/-- The snapshot of counts together with the size of the store. -/
def Counters.account (c : Counters) (entryCount totalBytes : UInt64) : Account :=
  let totalGets := UInt64.ofNat c.gets
  let hits := UInt64.ofNat c.hits
  { totalGets, hits
    misses := UInt64.ofNat c.misses
    totalPuts := UInt64.ofNat c.puts
    rejectedPuts := UInt64.ofNat c.rejected
    entryCount, totalBytes
    hitRate :=
      if 0 < totalGets then Decimal.ofNat hits.toNat / Decimal.ofNat totalGets.toNat else 0 }

/-- The binary64 number nearest to a JSON number, unless that is too large. -/
def Numeral.toFloat? (n : Numeral) : Option Float :=
  let x := Decimal.ofDecimal n.negative n.digits n.scale
  if x.isInf then none else some x

/-- The value of a field that is a floating-point number. -/
def Message.float? : Json → Option Float
  | .number n => n.toFloat?
  | _ => none

/-- Read a snapshot. -/
def Account.ofJson? (j : Json) : Option Account := do
  let [totalGets, hits, misses, totalPuts, rejectedPuts, entryCount, totalBytes, hitRate] ←
    Message.fields? ["total_gets", "hits", "misses", "total_puts", "rejected_puts", "entry_count",
      "total_bytes", "hit_rate"] j | none
  return {
    totalGets := ← Message.required? totalGets
    hits := ← Message.required? hits
    misses := ← Message.required? misses
    totalPuts := ← Message.required? totalPuts
    rejectedPuts := ← Message.required? rejectedPuts
    entryCount := ← Message.required? entryCount
    totalBytes := ← Message.required? totalBytes
    hitRate := ← hitRate.bind Message.float? }

/-- Write a snapshot, with a form for the share of hits. -/
def Account.toJson (a : Account) (number : Float → Json) : Json :=
  .record [("total_gets", .nat a.totalGets.toNat), ("hits", .nat a.hits.toNat),
    ("misses", .nat a.misses.toNat), ("total_puts", .nat a.totalPuts.toNat),
    ("rejected_puts", .nat a.rejectedPuts.toNat), ("entry_count", .nat a.entryCount.toNat),
    ("total_bytes", .nat a.totalBytes.toNat), ("hit_rate", number a.hitRate)]

end BuildWorker
