/-!
# JSON values

A JSON text as a value that keeps what a reader of records may ask for: the order and repetition
of an object's keys, the written form of numbers (`1`, `1.0` and `1e0` differ), and the bytes of
a string literal before anyone decides whether they are text.
-/

namespace BuildWorker

/-- Bytes are compared as the core library compares them, whatever else is imported. -/
instance (priority := 2000) decidableEqBytes : DecidableEq ByteArray := ByteArray.instDecidableEq

/-- A string literal after its escapes are resolved. -/
structure Literal where
  /-- The bytes named; not UTF-8 if the literal escapes an unpaired surrogate. -/
  bytes : ByteArray
  /-- Whether control characters stand in the literal without an escape. -/
  control : Bool := false
  deriving DecidableEq

/-- A number as it is written. -/
structure Numeral where
  /-- Whether a minus sign is written. -/
  negative : Bool
  /-- All digits before the exponent, as one number. -/
  digits : Nat
  /-- Number of digits behind the point, if there is a point. -/
  places : Option Nat := none
  /-- The exponent, if one is written. -/
  exponent : Option Int := none
  deriving Repr, DecidableEq

/-- A JSON value. -/
inductive Json
  /-- The word `null`. -/
  | null
  /-- The word `true` or `false`. -/
  | bool (value : Bool)
  | number (value : Numeral)
  | string (value : Literal)
  | array (items : List Json)
  /-- An object, with its keys in order and repetitions kept. -/
  | object (fields : List (Literal × Json))

namespace Literal

/-- The literal that names a text. -/
def ofText (s : String) : Literal := { bytes := s.toByteArray }

/-- The text named, if the literal is well-formed: valid UTF-8 and no bare control character. -/
def text? (l : Literal) : Option String :=
  if l.control then none else String.fromUTF8? l.bytes

@[simp] theorem text?_ofText (s : String) : (ofText s).text? = some s := by
  simp [ofText, text?, String.fromUTF8?, s.isValidUTF8, String.fromUTF8]

end Literal

namespace Numeral

/-- The numeral of a natural number. -/
def ofNat (n : Nat) : Numeral := { negative := false, digits := n }

/-- The numeral of an integer. -/
def ofInt (i : Int) : Numeral := { negative := decide (i < 0), digits := i.natAbs }

/-- The integer written without point and exponent; a negative zero is not one. -/
def toInt? (n : Numeral) : Option Int :=
  if n.places.isSome || n.exponent.isSome then none
  else if n.negative then if n.digits = 0 then none else some (-(n.digits : Int))
  else some n.digits

/-- The power of ten that the digits are multiplied with. -/
def scale (n : Numeral) : Int := n.exponent.getD 0 - (n.places.getD 0 : Nat)

@[simp] theorem toInt?_ofNat (n : Nat) : (ofNat n).toInt? = some (n : Int) := by
  simp [ofNat, toInt?]

@[simp] theorem toInt?_ofInt (i : Int) : (ofInt i).toInt? = some i := by
  rcases Int.lt_or_le i 0 with h | h
  · have size : i.natAbs ≠ 0 := by omega
    have value : -(i.natAbs : Int) = i := by omega
    simp only [ofInt, toInt?, decide_eq_true h, Option.isSome_none, Bool.or_self,
      Bool.false_eq_true, if_false, if_true, if_neg size, value]
  · have value : (i.natAbs : Int) = i := by omega
    simp only [ofInt, toInt?, decide_eq_false (Int.not_lt.2 h), Option.isSome_none, Bool.or_self,
      Bool.false_eq_true, if_false, value]

end Numeral

namespace Json

/-- The value of a text. -/
def text (s : String) : Json := .string (.ofText s)

/-- The value of a natural number. -/
def nat (n : Nat) : Json := .number (.ofNat n)

/-- The value of an integer. -/
def int (i : Int) : Json := .number (.ofInt i)

/-- An object given by its keys and values. -/
def record (fields : List (String × Json)) : Json :=
  .object (fields.map fun (key, value) => (.ofText key, value))

/-- The text, if the value is one. -/
def text? : Json → Option String
  | .string l => l.text?
  | _ => none

/-- The first value under a key. -/
def field? (j : Json) (key : String) : Option Json :=
  match j with
  | .object fields => (fields.find? fun f => f.1.text? = some key).map (·.2)
  | _ => none

/-- The items of an array. -/
def items? : Json → Option (List Json)
  | .array items => some items
  | _ => none

end Json

end BuildWorker
