import BuildWorker.Decimal.Binary64
import BuildWorker.Duration.Basic

/-!
# Delays between attempts

The delay after the first failed attempt is the initial delay; each further one is a multiple of
the one before, until the greatest delay is reached. Delays may be spread around that value: with
jitter `j` a delay `d` becomes one from `d * (1 - j)` to `d * (1 + j)`. Where in that range is for
the caller to draw, as a position between 0 and 1.

The product is taken in binary64 arithmetic and then truncated to whole nanoseconds. Once it is no
number of nanoseconds in 64 bits, the greatest delay takes its place.
-/

namespace BuildWorker

/-- A schedule of delays. -/
structure Backoff where
  /-- The delay after the first failed attempt. -/
  initial : Duration
  /-- The greatest delay. -/
  greatest : Duration
  /-- The growth from one delay to the next, at least 1. -/
  multiplier : Float
  /-- The fraction by which delays are spread, from 0 to 1; not a number means none. -/
  jitter : Float

namespace Backoff

/-- The greater of a number and a bound; what is no number becomes the bound. -/
def atLeast (bound x : Float) : Float := if x < bound || x.isNaN then bound else x

/-- The nearest number between two bounds; what is no number stays so. -/
def within (low high x : Float) : Float := if x < low then low else if high < x then high else x

/-- A schedule from free choices of growth and jitter, which are brought into range. -/
def ofSettings (initial greatest : Duration) (multiplier jitter : Float) : Backoff :=
  { initial, greatest, multiplier := atLeast 1 multiplier, jitter := within 0 1 jitter }

/-- Multiply `r` with powers of `a` as the binary digits of `e` say, the lowest first. -/
def powerOnto (r a : Float) (e : Nat) : Float :=
  let r := if e % 2 = 1 then r * a else r
  if h : e / 2 = 0 then r else powerOnto r (a * a) (e / 2)
termination_by e
decreasing_by omega

/-- The power of a number by repeated squaring. -/
def power (a : Float) (e : Nat) : Float := powerOnto 1 a e

/-- The exponent of growth before a given attempt's delay, within 31 bits. -/
def growths (attempt : Nat) : Nat := Nat.min (attempt - 1) 2147483647

/-- The delay after the failed attempt of a number, without the cap; there is none before the
first. -/
def uncapped (b : Backoff) (attempt : Nat) : Duration :=
  if attempt = 0 then .zero
  else
    let nanos := Decimal.ofNat b.initial.toNanos * power b.multiplier (growths attempt)
    if nanos.isFinite && nanos < 18446744073709551616.0 then .ofNanos nanos.toUInt64.toNat
    else b.greatest

/-- The delay without jitter. -/
def base (b : Backoff) (attempt : Nat) : Duration := (b.uncapped attempt).min b.greatest

/-- A delay at a position of its range. -/
def spread (b : Backoff) (d : Duration) (position : Float) : Duration :=
  let factor := (1 - b.jitter) + 2 * b.jitter * position
  .ofNanos (Decimal.ofNat d.toNanos * factor).toUInt64.toNat

/-- The delay to wait after the failed attempt of a number. -/
def delay (b : Backoff) (position : Float) (attempt : Nat) : Duration :=
  if 0 < b.jitter then b.spread (b.base attempt) position else b.base attempt

end Backoff

end BuildWorker
