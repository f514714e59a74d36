/-!
# Durations

A length of time in seconds and nanoseconds, with room for 64 bits of seconds. The clock of the
worker runs in whole milliseconds; `ceilMillis` is the time that a sleep takes on it.
-/

namespace BuildWorker

/-- A length of time. -/
structure Duration where
  /-- Whole seconds. -/
  seconds : UInt64
  /-- The rest, in nanoseconds. -/
  nanos : Fin 1000000000
  deriving DecidableEq, Repr

namespace Duration

/-- No time at all. -/
def zero : Duration := ⟨0, 0⟩

/-- Whether no time is meant. -/
def isZero (d : Duration) : Bool := d.seconds == 0 && d.nanos == 0

/-- The length in nanoseconds. -/
def toNanos (d : Duration) : Nat := d.seconds.toNat * 1000000000 + d.nanos

/-- The length in milliseconds, rounded down. -/
def toMillis (d : Duration) : Nat := d.toNanos / 1000000

/-- The length in milliseconds, rounded up. -/
def ceilMillis (d : Duration) : Nat := (d.toNanos + 999999) / 1000000

/-- A duration of that many nanoseconds; the seconds wrap around beyond 64 bits. -/
def ofNanos (n : Nat) : Duration :=
  ⟨UInt64.ofNat (n / 1000000000), ⟨n % 1000000000, Nat.mod_lt _ (by decide)⟩⟩

/-- A duration of seconds and nanoseconds, either of which wraps around. -/
def ofParts (seconds nanos : Nat) : Duration :=
  ⟨UInt64.ofNat seconds, Fin.ofNat 1000000000 nanos⟩

/-- A duration of whole milliseconds. -/
def ofMillis (ms : UInt64) : Duration := ofNanos (ms.toNat * 1000000)

/-- The shorter of two durations. -/
def min (a b : Duration) : Duration := if a.toNanos ≤ b.toNanos then a else b

theorem toNanos_ofNanos {n : Nat} (h : n < UInt64.size * 1000000000) : (ofNanos n).toNanos = n := by
  have hs : n / 1000000000 < UInt64.size := Nat.div_lt_of_lt_mul (by rwa [Nat.mul_comm])
  simp only [toNanos, ofNanos, UInt64.toNat_ofNat', Nat.mod_eq_of_lt hs]
  omega

@[simp] theorem toMillis_ofMillis (ms : UInt64) : (ofMillis ms).toMillis = ms.toNat := by
  have bound : ms.toNat * 1000000 < UInt64.size * 1000000000 := by
    have h : ms.toNat < UInt64.size := ms.toNat_lt
    omega
  rw [ofMillis, toMillis, toNanos_ofNanos bound]
  omega

end Duration

end BuildWorker
