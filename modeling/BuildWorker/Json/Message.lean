import BuildWorker.Json.Reader
import BuildWorker.Json.Writer

/-!
# Messages

A message is a value with a canonical JSON form: the form is what is hashed, stored and sent.
Records are objects whose fields are written in the order of their declaration. A reader is more
generous than the writer. It takes fields in any order, passes over fields it does not know, fills
in a default where the record has one, and also takes a record as the array of its fields.

What it refuses: a known field given twice, a missing field without a default, `null` where a
value is due, and numbers that are fractions, exponents or out of range.
-/

namespace BuildWorker

/-- Types with a canonical JSON form. -/
class Message (α : Type) where
  /-- The canonical form. -/
  toJson : α → Json
  /-- Read a form; the canonical one among others. -/
  ofJson? : Json → Option α

export Message (toJson ofJson?)

namespace Message

variable {α β : Type}

/-- The canonical text of a message. -/
def encode [Message α] (a : α) : ByteArray := (toJson a).write

/-- Read a message from a text. -/
def decode? [Message α] (text : ByteArray) : Option α := do
  ofJson? (← Json.read? text)

/-! ### Simple values -/

instance : Message String where
  toJson := .text
  ofJson? := Json.text?

instance : Message Bool where
  toJson := .bool
  ofJson?
    | .bool b => some b
    | _ => none

/-- The integer of a value that lies in `low ≤ i < high`. -/
def integer? (low high : Int) : Json → Option Int
  | .number n => do
    let i ← n.toInt?
    if low ≤ i ∧ i < high then some i else none
  | _ => none

instance : Message UInt64 where
  toJson n := .nat n.toNat
  ofJson? j := (integer? 0 UInt64.size j).map fun i => UInt64.ofNat i.toNat

instance : Message UInt32 where
  toJson n := .nat n.toNat
  ofJson? j := (integer? 0 UInt32.size j).map fun i => UInt32.ofNat i.toNat

instance : Message Int32 where
  toJson n := .int n.toInt
  ofJson? j := (integer? (-2147483648) 2147483648 j).map Int32.ofInt

instance [Message α] : Message (List α) where
  toJson xs := .array (xs.map toJson)
  ofJson?
    | .array items => items.mapM ofJson?
    | _ => none

instance [Message α] [Message β] : Message (α × β) where
  toJson p := .array [toJson p.1, toJson p.2]
  ofJson?
    | .array [a, b] => do return (← ofJson? a, ← ofJson? b)
    | _ => none

/-- Bytes are an array of numbers; they are also read from a string, whose bytes they are. -/
instance : Message ByteArray where
  toJson bytes := .array (bytes.data.toList.map fun b => .nat b.toNat)
  ofJson?
    | .array items => do
      let bytes ← items.mapM fun j => (integer? 0 256 j).map fun i => UInt8.ofNat i.toNat
      return bytes.toByteArray
    | .string l => some l.bytes
    | _ => none

/-! ### Records -/

mutual

/-- Whether no string in a value holds a bare control character. -/
def isClean : Json → Bool
  | .string l => !l.control
  | .array items => areClean items
  | .object fields => areCleanFields fields
  | _ => true

/-- Whether all values of a list are clean. -/
def areClean : List Json → Bool
  | [] => true
  | v :: vs => isClean v && areClean vs

/-- Whether all keys and values of a list are clean. -/
def areCleanFields : List (Literal × Json) → Bool
  | [] => true
  | (key, v) :: fs => !key.control && isClean v && areCleanFields fs

end

/-- The values of a record's fields in the order of `names`. The record is an object with each of
the names at most once and any other fields beside them, or an array of the first few values. -/
def fields? (names : List String) : Json → Option (List (Option Json))
  | .array items =>
    if items.length ≤ names.length then
      some (items.map some ++ List.replicate (names.length - items.length) none)
    else none
  | .object fields => do
    let keyed ← fields.mapM fun (key, v) => return (← key.text?, v)
    let known := names.all fun name => (keyed.filter (·.1 == name)).length ≤ 1
    let others := keyed.all fun (key, v) => names.contains key || isClean v
    if known && others then some (names.map (keyed.lookup ·)) else none
  | _ => none

/-- A field that must be given. -/
def required? [Message α] (field : Option Json) : Option α := field.bind ofJson?

/-- A field that has a default. -/
def withDefault? [Message α] (default : α) : Option Json → Option α
  | none => some default
  | some j => ofJson? j

/-- A field that may be absent or null. -/
def optional? [Message α] : Option Json → Option (Option α)
  | none => some none
  | some .null => some none
  | some j => (ofJson? j).map some

/-- A field that is written only when there is a value. -/
def whenSome [Message α] (name : String) : Option α → List (String × Json)
  | none => []
  | some a => [(name, toJson a)]

/-- A field of bytes that is written only when there are any. -/
def whenBytes (name : String) (bytes : ByteArray) : List (String × Json) :=
  if bytes.isEmpty then [] else [(name, toJson bytes)]

/-- The word of an enumeration: a string, or an object with that one key and the value null. -/
def word? : Json → Option String
  | .string l => l.text?
  | .object [(key, .null)] => key.text?
  | _ => none

end Message

end BuildWorker
