/-!
# UTF-8 with flaws

Names and texts that come from outside need not be valid UTF-8. `codePoint` writes any code
point, also one of the surrogate range that no character has. `lossy` reads any bytes at all: a
maximal well-formed start of a broken sequence, or a single stray byte, becomes U+FFFD.
-/

namespace BuildWorker.Text.Utf8

/-- The byte sequence of code point `n`, surrogates included. -/
def codePoint (n : Nat) : List UInt8 :=
  if n < 0x80 then [UInt8.ofNat n]
  else if n < 0x800 then [UInt8.ofNat (0xC0 + n / 64), UInt8.ofNat (0x80 + n % 64)]
  else if n < 0x10000 then
    [UInt8.ofNat (0xE0 + n / 4096), UInt8.ofNat (0x80 + n / 64 % 64), UInt8.ofNat (0x80 + n % 64)]
  else
    [UInt8.ofNat (0xF0 + n / 262144), UInt8.ofNat (0x80 + n / 4096 % 64),
      UInt8.ofNat (0x80 + n / 64 % 64), UInt8.ofNat (0x80 + n % 64)]

/-- What a first byte promises: how many bytes follow, and the range of the next one. -/
structure Lead where
  /-- Number of continuation bytes. -/
  follow : Nat
  /-- Least value of the first continuation byte. -/
  low : UInt8
  /-- Greatest value of the first continuation byte. -/
  high : UInt8
  /-- Payload bits of the first byte. -/
  bits : Nat
  deriving DecidableEq

/-- The promise of a byte that may start a sequence of several bytes. -/
def lead? (b : UInt8) : Option Lead :=
  if 0xC2 ≤ b ∧ b ≤ 0xDF then some ⟨1, 0x80, 0xBF, b.toNat - 0xC0⟩
  else if b = 0xE0 then some ⟨2, 0xA0, 0xBF, 0⟩
  else if b = 0xED then some ⟨2, 0x80, 0x9F, 0xD⟩
  else if 0xE1 ≤ b ∧ b ≤ 0xEF then some ⟨2, 0x80, 0xBF, b.toNat - 0xE0⟩
  else if b = 0xF0 then some ⟨3, 0x90, 0xBF, 0⟩
  else if 0xF1 ≤ b ∧ b ≤ 0xF3 then some ⟨3, 0x80, 0xBF, b.toNat - 0xF0⟩
  else if b = 0xF4 then some ⟨3, 0x80, 0x8F, 4⟩
  else none

/-- The character that stands for bytes that are no UTF-8. -/
def replacement : Char := '\uFFFD'

/-- A sequence whose first bytes have been read. -/
structure Partial where
  /-- Continuation bytes still owed. -/
  owed : Nat
  /-- Range of the next one. -/
  low : UInt8
  /-- Greatest value of the next one. -/
  high : UInt8
  /-- Payload read so far. -/
  bits : Nat

/-- One byte read between sequences: the characters it completes and the sequence it opens. -/
def start (b : UInt8) : List Char × Option Partial :=
  if b < 0x80 then ([Char.ofNat b.toNat], none)
  else match lead? b with
    | some l => ([], some ⟨l.follow, l.low, l.high, l.bits⟩)
    | none => ([replacement], none)

/-- One byte read: the characters it completes and the sequence that is open after it. -/
def advance : Option Partial → UInt8 → List Char × Option Partial
  | none, b => start b
  | some p, b =>
    if p.low ≤ b ∧ b ≤ p.high then
      let bits := p.bits * 64 + (b.toNat - 0x80)
      if p.owed ≤ 1 then ([Char.ofNat bits], none) else ([], some ⟨p.owed - 1, 0x80, 0xBF, bits⟩)
    else
      let (cs, next) := start b
      (replacement :: cs, next)

/-- Read on from an open sequence; one that the end cuts short is replaced. -/
def lossyFrom : Option Partial → List UInt8 → List Char
  | none, [] => []
  | some _, [] => [replacement]
  | state, b :: bs =>
    let (cs, next) := advance state b
    cs ++ lossyFrom next bs

/-- Read bytes as text, replacing what is no UTF-8. -/
def lossy (bytes : ByteArray) : String := String.ofList (lossyFrom none bytes.data.toList)

end BuildWorker.Text.Utf8
