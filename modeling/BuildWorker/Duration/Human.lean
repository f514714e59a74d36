import BuildWorker.Duration.Basic
import BuildWorker.Json.Message
import BuildWorker.Text.Blank
import BuildWorker.Text.Number

/-!
# Durations as people write them

A duration is written as its non-zero parts from years down to nanoseconds, such as
`1day 2h 30m 500ms`; no time is `0s`. A year is 365.25 days and a month is a twelfth of 365.28.

It is read from spans such as `90s`, `1m30s` or `1.5 hours`, which add up in any order. Blanks may
stand around and inside a span, but not inside a unit's name. A fraction has to come out at a
whole number of nanoseconds, or of seconds for hours and longer units.
-/

namespace BuildWorker.Duration

/-! ### Writing -/

/-- A part that is left out when it is zero. -/
def part (n : Nat) (unit : String) : List String := if n = 0 then [] else [toString n ++ unit]

/-- A part whose unit takes a plural. -/
def pluralPart (n : Nat) (unit : String) : List String :=
  part n (if n = 1 then unit else unit ++ "s")

/-- The non-zero parts, the longest unit first. -/
def parts (d : Duration) : List String :=
  let s := d.seconds.toNat
  let inYear := s % 31557600
  let inMonth := inYear % 2630016
  let inDay := inMonth % 86400
  let n := d.nanos.val
  pluralPart (s / 31557600) "year" ++ pluralPart (inYear / 2630016) "month" ++
    pluralPart (inMonth / 86400) "day" ++ part (inDay / 3600) "h" ++
    part (inDay % 3600 / 60) "m" ++ part (inDay % 60) "s" ++
    part (n / 1000000) "ms" ++ part (n / 1000 % 1000) "us" ++ part (n % 1000) "ns"

/-- The text of a duration. -/
def human (d : Duration) : String :=
  if d.isZero then "0s" else " ".intercalate d.parts

/-! ### Reading -/

/-- What a unit measures. -/
inductive Scale
  /-- Units up to minutes, in nanoseconds; `divisible` is false for the nanosecond itself. -/
  | fine (nanos : Nat) (divisible : Bool)
  /-- Hours and longer units, in seconds. -/
  | coarse (seconds : Nat)
  deriving Repr, DecidableEq

/-- The names of the units. -/
def units : List (List String × Scale) :=
  [(["nanos", "nsec", "ns"], .fine 1 false),
   (["usec", "us", "µs"], .fine 1000 true),
   (["millis", "msec", "ms"], .fine 1000000 true),
   (["seconds", "second", "secs", "sec", "s"], .fine 1000000000 true),
   (["minutes", "minute", "mins", "min", "m"], .fine 60000000000 true),
   (["hours", "hour", "hrs", "hr", "h"], .coarse 3600),
   (["days", "day", "d"], .coarse 86400),
   (["weeks", "week", "wks", "wk", "w"], .coarse 604800),
   (["months", "month", "M"], .coarse 2630016),
   (["years", "year", "yrs", "yr", "y"], .coarse 31557600)]

/-- What the unit of a name measures. -/
def scale? (name : String) : Option Scale :=
  (units.find? fun (names, _) => names.contains name).map (·.2)

/-- A number in front of a unit. -/
structure Amount where
  /-- The digits before the point. -/
  whole : Nat
  /-- Whether there is a point. -/
  pointed : Bool := false
  /-- The digits behind the point. -/
  numerator : Nat := 0
  /-- How many digits are behind the point. -/
  places : Nat := 0
  deriving Repr, DecidableEq

/-- A natural number that fits 64 bits. -/
def fit? (n : Nat) : Option Nat := if n < UInt64.size then some n else none

/-- Seconds and nanoseconds of the digits before the point. -/
def Amount.wholeIn? (a : Amount) : Scale → Option (Nat × Nat)
  | .fine nanos _ =>
    if 1000000000 ≤ nanos then (fit? (a.whole * (nanos / 1000000000))).map (·, 0)
    else (fit? (a.whole * nanos)).map (0, ·)
  | .coarse seconds => (fit? (a.whole * seconds)).map (·, 0)

/-- The exact value of the fraction in the given unit. -/
def Amount.fraction? (a : Amount) (unit : Nat) : Option Nat := do
  let n ← fit? (a.numerator * unit)
  let grid := Nat.pow 10 a.places
  if n % grid = 0 then some (n / grid) else none

/-- Seconds and nanoseconds of the digits behind the point. -/
def Amount.fractionIn? (a : Amount) : Scale → Option (Nat × Nat)
  | .fine nanos divisible =>
    if a.pointed && !divisible then none else (a.fraction? nanos).map (0, ·)
  | .coarse seconds => (a.fraction? seconds).map (·, 0)

/-- Add seconds and nanoseconds to a total of seconds and nanoseconds, within 64 bits of each. -/
def addTo? (total : Nat × Nat) (span : Nat × Nat) : Option (Nat × Nat) := do
  let nanos ← fit? (total.2 + span.2)
  let seconds ← fit? (span.1 + nanos / 1000000000)
  return (← fit? (total.1 + seconds), nanos % 1000000000)

/-- Where a reader stands. -/
inductive Place
  /-- Before a span, or behind the last one. -/
  | gap
  /-- In the digits before the point. -/
  | whole (n : Nat)
  /-- In the digits behind the point. -/
  | fraction (a : Amount)
  /-- In the name of a unit, its characters in reverse. -/
  | unit (a : Amount) (name : List Char)
  deriving Repr, DecidableEq

/-- Whether a character may stand in the name of a unit. -/
def isUnitChar (c : Char) : Bool := c.isAlpha || c = 'µ'

/-- Close a span with its unit's name. -/
def close? (total : Nat × Nat) (a : Amount) (name : List Char) : Option (Nat × Nat) := do
  let whole ← fit? a.whole
  if 20 ≤ a.places then none
  let scale ← scale? (String.ofList name.reverse)
  let a := { a with whole }
  addTo? (← addTo? total (← a.wholeIn? scale)) (← a.fractionIn? scale)

/-- Read on from a place, with the total of the spans before it. -/
def readSpans? : Nat × Nat → Place → List Char → Option (Nat × Nat)
  | total, .gap, [] => some total
  | total, .unit a name, [] => close? total a name
  | _, .whole _, [] => none
  | _, .fraction _, [] => none
  | total, .gap, c :: cs =>
    match Text.digitValue? c with
    | some d => readSpans? total (.whole d) cs
    | none => if Text.isBlank c then readSpans? total .gap cs else none
  | total, .whole n, c :: cs =>
    match Text.digitValue? c with
    | some d => readSpans? total (.whole (10 * n + d)) cs
    | none =>
      if Text.isBlank c then readSpans? total (.whole n) cs
      else if isUnitChar c then readSpans? total (.unit { whole := n } [c]) cs
      else if c = '.' then readSpans? total (.fraction { whole := n, pointed := true }) cs
      else none
  | total, .fraction a, c :: cs =>
    match Text.digitValue? c with
    | some d =>
      readSpans? total
        (.fraction { a with numerator := 10 * a.numerator + d, places := a.places + 1 }) cs
    | none =>
      if Text.isBlank c then readSpans? total (.fraction a) cs
      else if isUnitChar c && a.places ≠ 0 then readSpans? total (.unit a [c]) cs
      else none
  | total, .unit a name, c :: cs =>
    match Text.digitValue? c with
    | some d => do readSpans? (← close? total a name) (.whole d) cs
    | none =>
      if Text.isBlank c then do readSpans? (← close? total a name) .gap cs
      else if isUnitChar c then readSpans? total (.unit a (c :: name)) cs
      else none

/-- Whether a text begins, after blanks, with a digit. -/
def startsWithDigit (cs : List Char) : Bool :=
  match cs.dropWhile Text.isBlank with
  | c :: _ => c.isDigit
  | [] => false

/-- Read a duration. A bare zero needs no unit. -/
def readHuman? (s : String) : Option Duration :=
  if s = "0" then some zero
  else if startsWithDigit s.toList then
    (readSpans? (0, 0) .gap s.toList).map fun (seconds, nanos) => ofParts seconds nanos
  else none

instance : Message Duration where
  toJson d := .text d.human
  ofJson? j := do readHuman? (← j.text?)

end BuildWorker.Duration
