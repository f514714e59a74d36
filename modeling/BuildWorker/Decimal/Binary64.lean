/-!
# Binary64 numbers as exact rationals

A finite binary64 number is `mantissa * 2 ^ exponent`. `Magnitude.ofBits` takes a number apart and
`nearestBits` goes the other way: the number nearest to a quotient, where a tie goes to the even
mantissa and what is too large becomes infinity. Everything here is exact arithmetic on natural
numbers, so nothing depends on the rounding of machine operations.
-/

namespace BuildWorker.Decimal

/-- Exponent of the least positive number, and of the spacing near zero. -/
def leastExponent : Int := -1074

/-- A finite magnitude `mantissa * 2 ^ exponent`, with `exponent` at least `leastExponent`. -/
structure Magnitude where
  /-- The integer significand. -/
  mantissa : Nat
  /-- The binary exponent of its last bit. -/
  exponent : Int
  deriving Repr, DecidableEq

/-- What the bits of a number say. -/
inductive Reading
  /-- Not a number. -/
  | nan
  /-- An infinity of the given sign. -/
  | infinite (negative : Bool)
  /-- A finite number of the given sign. -/
  | finite (negative : Bool) (size : Magnitude)
  deriving Repr, DecidableEq

/-- Read the sign, exponent and fraction fields. -/
def Reading.ofBits (bits : UInt64) : Reading :=
  let n : Nat := bits.toNat
  let negative := decide (Nat.pow 2 63 ≤ n)
  let field : Nat := n / Nat.pow 2 52 % 2048
  let fraction : Nat := n % Nat.pow 2 52
  if field = 2047 then if fraction = 0 then .infinite negative else .nan
  else if field = 0 then .finite negative ⟨fraction, leastExponent⟩
  else .finite negative ⟨Nat.pow 2 52 + fraction, (field : Int) - 1075⟩

/-- Read a number. -/
def Reading.ofFloat (x : Float) : Reading := .ofBits x.toBits

/-- `num / (den * 2 ^ e)` as a quotient of natural numbers. -/
def scaled (num den : Nat) (e : Int) : Nat × Nat :=
  if 0 ≤ e then (num, den * Nat.pow 2 e.toNat) else (num * Nat.pow 2 (-e).toNat, den)

/-- The integer nearest to `num / den`; a tie goes to the even one. -/
def roundEven (num den : Nat) : Nat :=
  let q := num / den
  let twice := 2 * (num % den)
  if twice < den then q else if den < twice then q + 1 else q + q % 2

/-- The exponent of the last mantissa bit of the number nearest to `num / den`. -/
def exponentFor (num den : Nat) : Int :=
  let e : Int := (num.log2 : Int) - (den.log2 : Int) - 53
  let (n, d) := scaled num den e
  max leastExponent (if n / d < Nat.pow 2 53 then e else e + 1)

/-- Bits of infinity. -/
def infinityBits : Nat := 2047 * Nat.pow 2 52

/-- Bits of the non-negative number nearest to `num / den`. -/
def nearestBits (num den : Nat) : UInt64 :=
  if num = 0 then 0
  else
    let e := exponentFor num den
    let (n, d) := scaled num den e
    let mantissa := roundEven n d
    let bits := (e - leastExponent).toNat * Nat.pow 2 52 + mantissa
    if bits < infinityBits then UInt64.ofNat bits else UInt64.ofNat infinityBits

/-- The number nearest to a natural number. -/
def ofNat (n : Nat) : Float := Float.ofBits (nearestBits n 1)

/-- Bits of the number nearest to `digits * 10 ^ exponent`. An exponent that leaves the range of
all numbers is settled without the power. -/
def nearestDecimalBits (digits : Nat) (exponent : Int) : UInt64 :=
  let length : Int := digits.log2
  if digits = 0 then 0
  else if 310 < exponent + length / 4 then UInt64.ofNat infinityBits
  else if exponent + length / 3 + 1 < -330 then 0
  else if 0 ≤ exponent then nearestBits (digits * Nat.pow 10 exponent.toNat) 1
  else nearestBits digits (Nat.pow 10 (-exponent).toNat)

/-- The number nearest to a signed decimal. -/
def ofDecimal (negative : Bool) (digits : Nat) (exponent : Int) : Float :=
  let bits := nearestDecimalBits digits exponent
  Float.ofBits (if negative then bits ||| 0x8000000000000000 else bits)

end BuildWorker.Decimal
