import BuildWorker.Json.Basic
import BuildWorker.Text.Utf8

/-!
# Reading JSON

The grammar of RFC 8259 and nothing beside it: no trailing commas, no leading zeros, no byte order
mark, nothing but blanks after the value. Only what a string means is left open, since a reader of
records decides whether a literal has to be text: a literal may hold bare control characters
(which are noted) and unpaired surrogates (which are written like any other code point, so that
the bytes are no UTF-8).

`value`, `items` and `fields` recurse on a bound on their nesting, which `read?` takes from the
length of the text: every second step consumes a byte.
-/

namespace BuildWorker.Json

/-- Blanks between tokens. -/
def isBlank (b : UInt8) : Bool := b = 0x20 || b = 0x0A || b = 0x0D || b = 0x09

/-- Pass over blanks. -/
def skipBlanks (bs : List UInt8) : List UInt8 := bs.dropWhile isBlank

/-- Whether a byte is an ASCII digit. -/
def isDigit (b : UInt8) : Bool := 0x30 ≤ b && b ≤ 0x39

/-- The value of a hexadecimal digit. -/
def hexValue? (b : UInt8) : Option Nat :=
  if 0x30 ≤ b ∧ b ≤ 0x39 then some (b.toNat - 0x30)
  else if 0x61 ≤ b ∧ b ≤ 0x66 then some (b.toNat - 0x61 + 10)
  else if 0x41 ≤ b ∧ b ≤ 0x46 then some (b.toNat - 0x41 + 10)
  else none

/-- The code unit of four hexadecimal digits. -/
def unit? (a b c d : UInt8) : Option Nat := do
  return 4096 * (← hexValue? a) + 256 * (← hexValue? b) + 16 * (← hexValue? c) + (← hexValue? d)

/-- A byte or a UTF-16 code unit named inside a string. -/
inductive Piece
  /-- A byte that stands for itself. -/
  | bare (b : UInt8)
  /-- A byte that has a short escape. -/
  | escaped (b : UInt8)
  /-- A code unit given by its hexadecimal digits. -/
  | unit (u : Nat)
  deriving Repr, DecidableEq

/-- The byte that a short escape names. -/
def shortEscape? (b : UInt8) : Option UInt8 :=
  if b = 0x22 ∨ b = 0x5C ∨ b = 0x2F then some b
  else if b = 0x62 then some 0x08
  else if b = 0x66 then some 0x0C
  else if b = 0x6E then some 0x0A
  else if b = 0x72 then some 0x0D
  else if b = 0x74 then some 0x09
  else none

/-- What a string holds up to its closing quote, and what follows the quote. -/
def pieces : List UInt8 → Option (List Piece × List UInt8)
  | [] => none
  | 0x22 :: rest => some ([], rest)
  | 0x5C :: 0x75 :: a :: b :: c :: d :: rest => do
    let u ← unit? a b c d
    let (ps, rest) ← pieces rest
    return (.unit u :: ps, rest)
  | 0x5C :: e :: rest => do
    let b ← shortEscape? e
    let (ps, rest) ← pieces rest
    return (.escaped b :: ps, rest)
  | b :: rest => do
    if b = 0x5C then none
    let (ps, rest) ← pieces rest
    return (.bare b :: ps, rest)

/-- Whether a piece is a control character without an escape. -/
def Piece.isControl : Piece → Bool
  | .bare b => b < 0x20
  | _ => false

/-- The bytes of the pieces; two units that pair up name one code point. -/
def Piece.bytes : List Piece → List UInt8
  | [] => []
  | .bare b :: ps | .escaped b :: ps => b :: bytes ps
  | .unit u :: .unit v :: ps =>
    if 0xD800 ≤ u ∧ u < 0xDC00 ∧ 0xDC00 ≤ v ∧ v < 0xE000 then
      Text.Utf8.codePoint (0x10000 + (u - 0xD800) * 0x400 + (v - 0xDC00)) ++ bytes ps
    else Text.Utf8.codePoint u ++ bytes (.unit v :: ps)
  | .unit u :: ps => Text.Utf8.codePoint u ++ bytes ps

/-- A string behind its opening quote. -/
def literal (bs : List UInt8) : Option (Literal × List UInt8) := do
  let (ps, rest) ← pieces bs
  return (⟨(Piece.bytes ps).toByteArray, ps.any Piece.isControl⟩, rest)

/-- The value of a run of digits. -/
def digitsValue (ds : List UInt8) : Nat := ds.foldl (fun n d => 10 * n + (d.toNat - 0x30)) 0

/-- A run of at least one digit. -/
def digits? (bs : List UInt8) : Option (List UInt8 × List UInt8) :=
  match bs.takeWhile isDigit with
  | [] => none
  | ds => some (ds, bs.dropWhile isDigit)

/-- The digits before the point: a zero stands alone. -/
def whole? (bs : List UInt8) : Option (List UInt8 × List UInt8) := do
  let (ds, rest) ← digits? bs
  if ds.head? = some 0x30 ∧ ds.length ≠ 1 then none else some (ds, rest)

/-- The digits behind a point, if there is a point. -/
def fraction? : List UInt8 → Option (Option (List UInt8) × List UInt8)
  | 0x2E :: bs => (digits? bs).map fun (ds, rest) => (some ds, rest)
  | bs => some (none, bs)

/-- The exponent, if one is written. -/
def exponent? (bs : List UInt8) : Option (Option Int × List UInt8) :=
  match bs with
  | e :: rest =>
    if e = 0x65 ∨ e = 0x45 then
      let (negative, rest) := match rest with
        | 0x2B :: rest => (false, rest)
        | 0x2D :: rest => (true, rest)
        | rest => (false, rest)
      (digits? rest).map fun (ds, rest) =>
        let n : Int := digitsValue ds
        (some (if negative then -n else n), rest)
    else some (none, bs)
  | [] => some (none, [])

/-- A number behind its sign. -/
def unsigned? (negative : Bool) (bs : List UInt8) : Option (Numeral × List UInt8) := do
  let (whole, bs) ← whole? bs
  let (fraction, bs) ← fraction? bs
  let (exponent, bs) ← exponent? bs
  let digits := digitsValue (whole ++ fraction.getD [])
  return ({ negative, digits, places := fraction.map List.length, exponent }, bs)

/-- A number. -/
def numeral? : List UInt8 → Option (Numeral × List UInt8)
  | 0x2D :: bs => unsigned? true bs
  | bs => unsigned? false bs

mutual

/-- A value and what follows it; blanks before it are passed over. -/
def value : Nat → List UInt8 → Option (Json × List UInt8)
  | 0, _ => none
  | n + 1, bs =>
    match skipBlanks bs with
    | 0x6E :: 0x75 :: 0x6C :: 0x6C :: rest => some (.null, rest)
    | 0x74 :: 0x72 :: 0x75 :: 0x65 :: rest => some (.bool true, rest)
    | 0x66 :: 0x61 :: 0x6C :: 0x73 :: 0x65 :: rest => some (.bool false, rest)
    | 0x22 :: rest => (literal rest).map fun (l, rest) => (.string l, rest)
    | 0x5B :: rest =>
      match skipBlanks rest with
      | 0x5D :: rest => some (.array [], rest)
      | rest => do
        let (v, rest) ← value n rest
        let (vs, rest) ← items n rest
        return (.array (v :: vs), rest)
    | 0x7B :: rest =>
      match skipBlanks rest with
      | 0x7D :: rest => some (.object [], rest)
      | rest => do
        let (f, rest) ← field n rest
        let (fs, rest) ← fields n rest
        return (.object (f :: fs), rest)
    | bs => (numeral? bs).map fun (v, rest) => (.number v, rest)

/-- The items after the first, and what follows the closing bracket. -/
def items : Nat → List UInt8 → Option (List Json × List UInt8)
  | 0, _ => none
  | n + 1, bs =>
    match skipBlanks bs with
    | 0x5D :: rest => some ([], rest)
    | 0x2C :: rest => do
      let (v, rest) ← value n rest
      let (vs, rest) ← items n rest
      return (v :: vs, rest)
    | _ => none

/-- A key, a colon and a value. -/
def field : Nat → List UInt8 → Option ((Literal × Json) × List UInt8)
  | 0, _ => none
  | n + 1, bs =>
    match skipBlanks bs with
    | 0x22 :: rest => do
      let (key, rest) ← literal rest
      match skipBlanks rest with
      | 0x3A :: rest => do
        let (v, rest) ← value n rest
        return ((key, v), rest)
      | _ => none
    | _ => none

/-- The fields after the first, and what follows the closing brace. -/
def fields : Nat → List UInt8 → Option (List (Literal × Json) × List UInt8)
  | 0, _ => none
  | n + 1, bs =>
    match skipBlanks bs with
    | 0x7D :: rest => some ([], rest)
    | 0x2C :: rest => do
      let (f, rest) ← field n rest
      let (fs, rest) ← fields n rest
      return (f :: fs, rest)
    | _ => none

end

/-- The value that a whole text names. -/
def read? (text : ByteArray) : Option Json := do
  let bs := text.data.toList
  let (v, rest) ← value (2 * bs.length + 2) bs
  if (skipBlanks rest).isEmpty then some v else none

end BuildWorker.Json
