/-!
# SHA-256

The Secure Hash Standard's 256-bit function on byte sequences. A message is padded to whole
64-byte blocks; each block is expanded to a schedule of 64 words that drives 64 rounds over eight
chaining words.

A word is a natural number below 2³². The kernel computes with these fast enough to evaluate the
hash of a short message.
-/

namespace BuildWorker.Sha256

/-- Sums are taken modulo this number. -/
def modulus : Nat := 0x100000000

/-- The eight chaining words. -/
structure State where
  a : Nat
  b : Nat
  c : Nat
  d : Nat
  e : Nat
  f : Nat
  g : Nat
  h : Nat
  deriving Repr, DecidableEq

/-- The chaining words before the first block. -/
def State.initial : State :=
  ⟨0x6a09e667, 0xbb67ae85, 0x3c6ef372, 0xa54ff53a, 0x510e527f, 0x9b05688c, 0x1f83d9ab, 0x5be0cd19⟩

/-- Word-wise sum, which ends the treatment of a block. -/
def State.add (s t : State) : State :=
  ⟨(s.a + t.a) % modulus, (s.b + t.b) % modulus, (s.c + t.c) % modulus, (s.d + t.d) % modulus,
    (s.e + t.e) % modulus, (s.f + t.f) % modulus, (s.g + t.g) % modulus, (s.h + t.h) % modulus⟩

/-- The round constants. -/
def constants : List Nat := [
  0x428a2f98, 0x71374491, 0xb5c0fbcf, 0xe9b5dba5, 0x3956c25b, 0x59f111f1, 0x923f82a4, 0xab1c5ed5,
  0xd807aa98, 0x12835b01, 0x243185be, 0x550c7dc3, 0x72be5d74, 0x80deb1fe, 0x9bdc06a7, 0xc19bf174,
  0xe49b69c1, 0xefbe4786, 0x0fc19dc6, 0x240ca1cc, 0x2de92c6f, 0x4a7484aa, 0x5cb0a9dc, 0x76f988da,
  0x983e5152, 0xa831c66d, 0xb00327c8, 0xbf597fc7, 0xc6e00bf3, 0xd5a79147, 0x06ca6351, 0x14292967,
  0x27b70a85, 0x2e1b2138, 0x4d2c6dfc, 0x53380d13, 0x650a7354, 0x766a0abb, 0x81c2c92e, 0x92722c85,
  0xa2bfe8a1, 0xa81a664b, 0xc24b8b70, 0xc76c51a3, 0xd192e819, 0xd6990624, 0xf40e3585, 0x106aa070,
  0x19a4c116, 0x1e376c08, 0x2748774c, 0x34b0bcb5, 0x391c0cb3, 0x4ed8aa4a, 0x5b9cca4f, 0x682e6ff3,
  0x748f82ee, 0x78a5636f, 0x84c87814, 0x8cc70208, 0x90befffa, 0xa4506ceb, 0xbef9a3f7, 0xc67178f2]

/-- Rotation to the right. -/
def rotate (w n : Nat) : Nat := (w.shiftRight n).lor ((w.shiftLeft (32 - n)) % modulus)

/-- Bitwise sum of three words. -/
def sum (u v w : Nat) : Nat := (u.xor v).xor w

/-- The bytes of a message as big-endian words. -/
def wordsOf : List UInt8 → List Nat
  | a :: b :: c :: d :: rest =>
    (((a.toNat * 256 + b.toNat) * 256 + c.toNat) * 256 + d.toNat) :: wordsOf rest
  | _ => []

/-- Add the next word to a schedule, of which the latest word stands first. -/
def extend (schedule : List Nat) : List Nat :=
  let word (back : Nat) : Nat := schedule.getD (back - 1) 0
  let w15 := word 15
  let w2 := word 2
  let s0 := sum (rotate w15 7) (rotate w15 18) (w15.shiftRight 3)
  let s1 := sum (rotate w2 17) (rotate w2 19) (w2.shiftRight 10)
  ((word 16 + s0 + word 7 + s1) % modulus) :: schedule

/-- The 64 words that drive the rounds of a block. -/
def schedule (block : List Nat) : List Nat :=
  ((List.range 48).foldl (fun words _ => extend words) block.reverse).reverse

/-- One round with its constant and schedule word. -/
def round (s : State) (constant word : Nat) : State :=
  let s1 := sum (rotate s.e 6) (rotate s.e 11) (rotate s.e 25)
  let choice := (s.e.land s.f).xor ((modulus - 1 - s.e).land s.g)
  let t1 := s.h + s1 + choice + constant + word
  let s0 := sum (rotate s.a 2) (rotate s.a 13) (rotate s.a 22)
  let majority := sum (s.a.land s.b) (s.a.land s.c) (s.b.land s.c)
  ⟨(t1 + s0 + majority) % modulus, s.a, s.b, s.c, (s.d + t1) % modulus, s.e, s.f, s.g⟩

/-- Rounds with their constants and schedule words. -/
def rounds : List Nat → List Nat → State → State
  | constant :: constants, word :: words, s => rounds constants words (round s constant word)
  | _, _, s => s

/-- The chaining words after a block. -/
def compress (s : State) (block : List Nat) : State :=
  s.add (rounds constants (schedule block) s)

/-- The chaining words after a number of blocks, one after the other. -/
def compressAll : Nat → List Nat → State → State
  | 0, _, s => s
  | blocks + 1, words, s => compressAll blocks (words.drop 16) (compress s (words.take 16))

/-- The byte length in bits as eight big-endian bytes. -/
def lengthField (size : Nat) : List UInt8 :=
  (List.range 8).map fun i => UInt8.ofNat (8 * size / Nat.pow 256 (7 - i))

/-- The message, a one bit, zeros and the length, filling whole blocks. -/
def pad (message : ByteArray) : List UInt8 :=
  let zeros := (119 - message.size % 64) % 64
  message.data.toList ++ 0x80 :: List.replicate zeros 0 ++ lengthField message.size

/-- The bytes of a word, the highest first. -/
def wordBytes (w : Nat) : List UInt8 :=
  [UInt8.ofNat (w >>> 24), UInt8.ofNat (w >>> 16), UInt8.ofNat (w >>> 8), UInt8.ofNat w]

/-- The chaining words as 32 bytes. -/
def State.bytes (s : State) : ByteArray :=
  ([s.a, s.b, s.c, s.d, s.e, s.f, s.g, s.h].flatMap wordBytes).toByteArray

/-- The 32-byte hash of a message. -/
def hash (message : ByteArray) : ByteArray :=
  let padded := pad message
  (compressAll (padded.length / 64) (wordsOf padded) State.initial).bytes

end BuildWorker.Sha256
