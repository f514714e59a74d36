import BuildWorker.Decimal.Shortest

/-!
# Numbers as text

Two text forms share the shortest digits. `plain` is for people: never an exponent, and no point
after a whole number. `tagged` is for documents: a number always shows a point or an exponent, and
the exponent is used outside the range from `1e-5` to `1e16`.
-/

namespace BuildWorker.Decimal

/-- How numbers are laid out. -/
structure Layout where
  /-- Least number of digits before the point that is written without an exponent. -/
  least : Int
  /-- Greatest number of digits before the point that is written without an exponent. -/
  greatest : Int
  /-- What follows a whole number. -/
  whole : String
  /-- The text of what is not a number. -/
  nan : String
  /-- The text of infinity, after its sign. -/
  infinity : String

/-- Zeros to fill up with. -/
def zeros (n : Int) : String := String.ofList (List.replicate n.toNat '0')

/-- Digits in the given layout. -/
def Layout.digits (l : Layout) (d : Digits) : String :=
  let text := toString d.digits
  let count : Int := text.length
  let before := count + d.exponent
  if d.digits = 0 then "0" ++ l.whole
  else if before < l.least ∨ l.greatest < before then
    let rest := text.drop 1
    let mantissa := if count = 1 then text else s!"{text.take 1}.{rest}"
    s!"{mantissa}e{before - 1}"
  else if count ≤ before then text ++ zeros (before - count) ++ l.whole
  else if 0 < before then s!"{text.take before.toNat}.{text.drop before.toNat}"
  else s!"0.{zeros (-before)}{text}"

/-- A number in the given layout. -/
def Layout.text (l : Layout) (x : Float) : String :=
  let signed (negative : Bool) (s : String) := if negative then "-" ++ s else s
  match Reading.ofFloat x with
  | .nan => l.nan
  | .infinite negative => signed negative l.infinity
  | .finite negative size => signed negative (l.digits (shortest size))

/-- Exponents are never written; whole numbers stand alone. -/
def plain (x : Float) : String :=
  Layout.text ⟨-400, 400, "", "NaN", "inf"⟩ x

/-- A whole number ends in `.0`; very small and very large numbers take an exponent. -/
def tagged (x : Float) : String :=
  Layout.text ⟨-4, 16, ".0", ".nan", ".inf"⟩ x

end BuildWorker.Decimal
