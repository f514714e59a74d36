import BuildWorker.Decimal.Binary64

/-!
# The shortest decimal of a number

Of all decimals that read back as a given number, `shortest` is one with the fewest digits, and of
those the nearest. A decimal reads back if it lies between the midpoints to the two neighbouring
numbers; a midpoint itself counts when the mantissa is even, because ties are read as even.

On the grid of `p`-digit decimals, if any point lies between the midpoints then so does one of the
two grid points around the number itself. So it is enough to test those two for `p = 1, 2, …, 17`.
-/

namespace BuildWorker.Decimal

/-- The decimal `digits * 10 ^ exponent`. -/
structure Digits where
  /-- The significant digits, as one number. -/
  digits : Nat
  /-- The decimal exponent of the last digit. -/
  exponent : Int
  deriving Repr, DecidableEq

/-- Midpoints to the neighbours, and the number between them, over one denominator. -/
structure Span where
  /-- Numerator of the lower midpoint. -/
  low : Nat
  /-- Numerator of the number. -/
  value : Nat
  /-- Numerator of the upper midpoint. -/
  high : Nat
  /-- The common denominator. -/
  den : Nat
  /-- Whether the midpoints themselves read back. -/
  closed : Bool
  deriving Repr, DecidableEq

/-- The span of a positive magnitude. Below a power of two the neighbours are twice as dense. -/
def Magnitude.span (x : Magnitude) : Span :=
  let (unit, den) := scaled 1 1 (x.exponent - 2) |> fun (n, d) => (d, n)
  let narrow := decide (x.mantissa = Nat.pow 2 52 ∧ leastExponent < x.exponent)
  { low := (4 * x.mantissa - (if narrow then 1 else 2)) * unit
    value := 4 * x.mantissa * unit
    high := (4 * x.mantissa + 2) * unit
    den := den
    closed := x.mantissa % 2 == 0 }

/-- Whether `n * 10 ^ e` lies in the span. -/
def Span.holds (s : Span) (n : Nat) (e : Int) : Bool :=
  let (point, den) :=
    if 0 ≤ e then (n * Nat.pow 10 e.toNat * s.den, 1)
    else (n * s.den, Nat.pow 10 (-e).toNat)
  if s.closed then s.low * den ≤ point && point ≤ s.high * den
  else s.low * den < point && point < s.high * den

/-- The number divided by `10 ^ e`: the integer part, and twice the rest against the divisor. -/
def Span.onGrid (s : Span) (e : Int) : Nat × Ordering :=
  let (num, den) :=
    if 0 ≤ e then (s.value, s.den * Nat.pow 10 e.toNat)
    else (s.value * Nat.pow 10 (-e).toNat, s.den)
  (num / den, compare (2 * (num % den)) den)

/-- The point of the grid `10 ^ e` in the span that is nearest to the number. A tie goes up. -/
def Span.hit? (s : Span) (e : Int) : Option Nat :=
  let (n, rest) := s.onGrid e
  match s.holds n e, s.holds (n + 1) e with
  | true, true => some (if rest = .lt then n else n + 1)
  | true, false => some n
  | false, true => some (n + 1)
  | false, false => none

/-- The decimal exponent of the first digit of a positive rational, at most one too small. -/
def leadingExponent (num den : Nat) : Int :=
  let binary : Int := (num.log2 : Int) - den.log2
  -- 1233 / 4096 is just below the decimal logarithm of two
  let guess := (binary - 1) * 1233 / 4096 - 1
  let atLeast (e : Int) : Bool :=
    if 0 ≤ e then den * Nat.pow 10 e.toNat ≤ num else den ≤ num * Nat.pow 10 (-e).toNat
  ([3, 2, 1].map fun k : Nat => guess + k).find? atLeast |>.getD guess

/-- Drop trailing zeros. -/
def Digits.trim : Nat → Digits → Digits
  | 0, d => d
  | fuel + 1, d =>
    if d.digits ≠ 0 ∧ d.digits % 10 = 0 then trim fuel ⟨d.digits / 10, d.exponent + 1⟩ else d

/-- Try grids of ever more digits. -/
def Span.search (s : Span) (leading : Int) : Nat → Nat → Digits
  | 0, _ => ⟨0, 0⟩
  | fuel + 1, places =>
    let e := leading + 1 - (places : Int)
    match s.hit? e with
    | some n => Digits.trim 20 ⟨n, e⟩
    | none => s.search leading fuel (places + 1)

/-- The shortest decimal that reads back as the magnitude; zero has the single digit 0. -/
def shortest (x : Magnitude) : Digits :=
  if x.mantissa = 0 then ⟨0, 0⟩
  else
    let s := x.span
    s.search (leadingExponent s.value s.den) 18 1

end BuildWorker.Decimal
