import BuildWorker.Decimal.Text
import BuildWorker.Json.Writer
import BuildWorker.Text.Utf8

/-!
# Plain JSON

A value as a program holds it that knows integers of 64 bits and floating-point numbers only. An
integer without point and exponent stays one as long as it fits; any other number becomes the
nearest floating-point number, in the fewest digits that read back.
-/

namespace BuildWorker

/-- The text of a number. -/
def Numeral.plain (n : Numeral) : String :=
  let rounded := Decimal.tagged (Decimal.ofDecimal n.negative n.digits n.scale)
  match n.toInt? with
  | some i => if Int64.minValue.toInt ≤ i ∧ i < UInt64.size then toString i else rounded
  | none => rounded

namespace Json

mutual

/-- The text of a value. -/
def plain : Json → String
  | .number n => n.plain
  | .array items => "[" ++ ",".intercalate (plainItems items) ++ "]"
  | .object fields => "\x7b" ++ ",".intercalate (plainFields fields) ++ "\x7d"
  | j => Text.Utf8.lossy j.write

/-- The texts of values. -/
def plainItems : List Json → List String
  | [] => []
  | j :: rest => j.plain :: plainItems rest

/-- The texts of keys and values. -/
def plainFields : List (Literal × Json) → List String
  | [] => []
  | (key, j) :: rest => (Text.Utf8.lossy (string key).write ++ ":" ++ j.plain) :: plainFields rest

end

end Json

end BuildWorker
