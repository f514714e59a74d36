import BuildWorker.Text.Number

/-!
# Lowercase hexadecimal

Two digits a byte, the high half first. Hashes and the bit patterns of floating-point numbers are
written this way.
-/

namespace BuildWorker.Text

/-- The lowercase digit of a value below sixteen. -/
def hexDigit (n : Nat) : Char := Nat.digitChar (n % 16)

/-- The two digits of a byte. -/
def hexByte (b : UInt8) : List Char := [hexDigit (b.toNat / 16), hexDigit b.toNat]

/-- All bytes in order, two digits each. -/
def hex (bytes : ByteArray) : String := String.ofList (bytes.data.toList.flatMap hexByte)

/-- The sixteen digits of a 64-bit word. -/
def hexWord (w : UInt64) : String :=
  String.ofList ((List.range 16).map fun i => hexDigit (w.toNat / Nat.pow 16 (15 - i)))

/-- Read pairs of digits; `none` at an odd count or a character that is no digit. -/
def readHex : List Char → Option (List UInt8)
  | [] => some []
  | [_] => none
  | a :: b :: rest => do
    let high ← hexValue? a
    let low ← hexValue? b
    let bytes ← readHex rest
    return UInt8.ofNat (16 * high + low) :: bytes

end BuildWorker.Text
