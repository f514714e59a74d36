/-!
# Unsigned decimal numerals

The text form of sizes, counts and settings: one or more ASCII digits, with an optional leading
plus sign, naming a number below a bound. Writing is `Nat.repr`; reading is `readBounded`, which
reports why a text is no such numeral.

Digits are folded from the left, so in a text that is both too large and malformed the fault
that is met first is the one reported.
-/

namespace BuildWorker.Text

/-- Why a text is not a numeral below the bound. -/
inductive NumeralError
  /-- There are no characters at all. -/
  | empty
  /-- Some character is not a digit (a lone sign counts). -/
  | invalidDigit
  /-- The digits read so far reach the bound. -/
  | tooLarge
  deriving Repr, DecidableEq

/-- The reason as it is shown to a user. -/
def NumeralError.message : NumeralError → String
  | .empty => "cannot parse integer from empty string"
  | .invalidDigit => "invalid digit found in string"
  | .tooLarge => "number too large to fit in target type"

/-- The value of an ASCII decimal digit. -/
def digitValue? (c : Char) : Option Nat :=
  if c.isDigit then some (c.toNat - '0'.toNat) else none

/-- The value of an ASCII hexadecimal digit of either case. -/
def hexValue? (c : Char) : Option Nat :=
  if c.isDigit then some (c.toNat - '0'.toNat)
  else if 'a' ≤ c ∧ c ≤ 'f' then some (c.toNat - 'a'.toNat + 10)
  else if 'A' ≤ c ∧ c ≤ 'F' then some (c.toNat - 'A'.toNat + 10)
  else none

/-- Read the digits of `cs` onto the value `acc` of the digits before them. -/
def readDigits (bound : Nat) : Nat → List Char → Except NumeralError Nat
  | acc, [] => .ok acc
  | acc, c :: cs =>
    match digitValue? c with
    | none => .error .invalidDigit
    | some d =>
      if 10 * acc + d < bound then readDigits bound (10 * acc + d) cs else .error .tooLarge

/-- Read a numeral below `bound`; a single leading plus sign is allowed. -/
def readBounded (bound : Nat) : List Char → Except NumeralError Nat
  | [] => .error .empty
  | '+' :: [] => .error .invalidDigit
  | '+' :: cs => readDigits bound 0 cs
  | cs => readDigits bound 0 cs

/-- Read a 64-bit unsigned numeral. -/
def readUInt64 (s : String) : Except NumeralError UInt64 :=
  (readBounded UInt64.size s.toList).map UInt64.ofNat

/-- Read a 32-bit unsigned numeral. -/
def readUInt32 (s : String) : Except NumeralError UInt32 :=
  (readBounded UInt32.size s.toList).map UInt32.ofNat

end BuildWorker.Text
