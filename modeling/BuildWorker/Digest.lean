import BuildWorker.Json.Message
import BuildWorker.Sha256
import BuildWorker.Text.Hex
import BuildWorker.Text.Number

/-!
# Digests

A digest names content by its SHA-256 hash, in lowercase hexadecimal, and its length in bytes. It
is displayed as `hash/size`; `Digest.parse?` reads that form back, with hex digits of either case
and with a sign or leading zeros before the size.

A digest is only a claim about content. `Digest.ofBytes` computes the true one.
-/

namespace BuildWorker

/-- A claimed hash and length. -/
structure Digest where
  /-- The hash, as it was given. -/
  hash : String
  /-- The length in bytes. -/
  size : UInt64
  deriving DecidableEq

namespace Digest

/-- Whether the digest names empty content: its length is zero, whatever its hash. -/
def isEmpty (d : Digest) : Bool := d.size == 0

/-- The form shown to users and used in subjects. -/
def display (d : Digest) : String := d.hash ++ "/" ++ toString d.size.toNat

instance : ToString Digest where
  toString := display

/-- Whether a character is an ASCII hexadecimal digit. -/
def isHexDigit (c : Char) : Bool := (Text.hexValue? c).isSome

/-- Read the displayed form: the text up to the first slash is the hash, the rest the size. -/
def parse? (s : String) : Option Digest :=
  let hash := s.toList.takeWhile (· != '/')
  match s.toList.dropWhile (· != '/') with
  | [] => none
  | _ :: size =>
    if hash.isEmpty || !hash.all isHexDigit then none
    else match Text.readBounded UInt64.size size with
      | .ok n => some ⟨String.ofList (hash.map Char.toLower), UInt64.ofNat n⟩
      | .error _ => none

/-- The digest of content. -/
def ofBytes (bytes : ByteArray) : Digest :=
  ⟨Text.hex (Sha256.hash bytes), UInt64.ofNat bytes.size⟩

/-- The digest of no bytes. -/
def empty : Digest := ofBytes .empty

/-- The digest of a message's canonical text. -/
def ofMessage {α : Type} [Message α] (a : α) : Digest := ofBytes (Message.encode a)

/-- Digests are ordered by their hash, character by character, and then by size. -/
def le (a b : Digest) : Bool :=
  decide (a.hash < b.hash) || (a.hash == b.hash && a.size ≤ b.size)

instance : Message Digest where
  toJson d := .record [("hash", toJson d.hash), ("size_bytes", toJson d.size)]
  ofJson? j := do
    let [hash, size] ← Message.fields? ["hash", "size_bytes"] j | none
    return ⟨← Message.required? hash, ← Message.required? size⟩

end Digest

/-- Content together with a digest that is trusted to be its own. -/
structure Blob where
  /-- The trusted digest. -/
  digest : Digest
  /-- The content. -/
  data : ByteArray
  deriving DecidableEq

namespace Blob

/-- Content under its computed digest. -/
def ofBytes (data : ByteArray) : Blob := ⟨.ofBytes data, data⟩

/-- A message's canonical text under its computed digest. -/
def ofMessage {α : Type} [Message α] (a : α) : Blob := .ofBytes (Message.encode a)

end Blob

end BuildWorker
