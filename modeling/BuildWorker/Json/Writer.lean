import BuildWorker.Json.Basic

/-!
# Writing JSON

The canonical text of a value: no blanks, keys in the order given, and in a string only what must
be escaped is: the quote, the backslash and the control characters, with the short form where
there is one. All other bytes stand for themselves, so a text is written as its own UTF-8.

Every writer takes the bytes that follow, so that a written value is a visible start of what it
returns.
-/

namespace BuildWorker.Json

/-- The bytes of ASCII characters. -/
def ascii (cs : List Char) : List UInt8 := cs.map fun c => UInt8.ofNat c.toNat

/-- The written form of one byte of a string. -/
def escape (b : UInt8) : List UInt8 :=
  if b = 0x22 then ascii ['\\', '"']
  else if b = 0x5C then ascii ['\\', '\\']
  else if b = 0x08 then ascii ['\\', 'b']
  else if b = 0x09 then ascii ['\\', 't']
  else if b = 0x0A then ascii ['\\', 'n']
  else if b = 0x0C then ascii ['\\', 'f']
  else if b = 0x0D then ascii ['\\', 'r']
  else if b < 0x20 then
    ascii ['\\', 'u', '0', '0', Nat.digitChar (b.toNat / 16), Nat.digitChar (b.toNat % 16)]
  else [b]

/-- A quoted string. -/
def writeLiteral (l : Literal) (rest : List UInt8) : List UInt8 :=
  0x22 :: (l.bytes.data.toList.flatMap escape ++ 0x22 :: rest)

/-- Digits with a point before the last `places` of them, and at least one digit before it. -/
def pointed (digits places : Nat) : List Char :=
  let text := Nat.toDigits 10 digits
  let filled := List.replicate (places + 1 - text.length) '0' ++ text
  filled.take (filled.length - places) ++ '.' :: filled.drop (filled.length - places)

/-- The characters of a number. -/
def numeralChars (n : Numeral) : List Char :=
  (if n.negative then ['-'] else []) ++
  (match n.places with
    | none => Nat.toDigits 10 n.digits
    | some places => pointed n.digits places) ++
  (match n.exponent with
    | none => []
    | some e => 'e' :: (toString e).toList)

/-- A number. -/
def writeNumeral (n : Numeral) (rest : List UInt8) : List UInt8 :=
  ascii (numeralChars n) ++ rest

mutual

/-- A value. -/
def writeOnto : Json → List UInt8 → List UInt8
  | .null, rest => ascii ['n', 'u', 'l', 'l'] ++ rest
  | .bool true, rest => ascii ['t', 'r', 'u', 'e'] ++ rest
  | .bool false, rest => ascii ['f', 'a', 'l', 's', 'e'] ++ rest
  | .number n, rest => writeNumeral n rest
  | .string l, rest => writeLiteral l rest
  | .array [], rest => ascii ['[', ']'] ++ rest
  | .array (v :: vs), rest => 0x5B :: writeOnto v (writeItems vs (0x5D :: rest))
  | .object [], rest => ascii ['{', '}'] ++ rest
  | .object (f :: fs), rest => 0x7B :: writeField f (writeFields fs (0x7D :: rest))

/-- The items after the first, each behind a comma. -/
def writeItems : List Json → List UInt8 → List UInt8
  | [], rest => rest
  | v :: vs, rest => 0x2C :: writeOnto v (writeItems vs rest)

/-- A key, a colon and a value. -/
def writeField : Literal × Json → List UInt8 → List UInt8
  | (key, value), rest => writeLiteral key (0x3A :: writeOnto value rest)

/-- The fields after the first, each behind a comma. -/
def writeFields : List (Literal × Json) → List UInt8 → List UInt8
  | [], rest => rest
  | f :: fs, rest => 0x2C :: writeField f (writeFields fs rest)

end

/-- The canonical text of a value. -/
def write (j : Json) : ByteArray := (j.writeOnto []).toByteArray

end BuildWorker.Json
