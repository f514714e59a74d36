/-!
# Reading YAML character by character

The characters that a YAML stream may hold, the classes its grammar speaks of, and a cursor that
keeps the line and column of the next character. A line break is any of LF, CR, CR LF, NEL and the
Unicode line and paragraph separators; the first four are read as LF.
-/

namespace BuildWorker.Yaml

/-- Why a stream is not read. -/
inductive Fault
  /-- A character that no stream may hold. -/
  | character
  /-- A tab where indentation is due. -/
  | tab
  /-- A key without a colon behind it. -/
  | unfinishedKey
  /-- A block entry, key or value where none may start. -/
  | misplaced
  /-- A character that starts no token. -/
  | start
  /-- A malformed anchor or alias. -/
  | anchor
  /-- A malformed or unknown tag. -/
  | tag
  /-- A malformed, unknown or repeated directive. -/
  | directive
  /-- A malformed block scalar header. -/
  | header
  /-- A malformed escape in a quoted scalar. -/
  | escape
  /-- A quoted scalar that does not end. -/
  | unclosed
  /-- A colon in a plain scalar that a flow collection does not allow. -/
  | colon
  /-- A token that does not continue its collection or document. -/
  | token
  /-- An alias for an anchor that is not there. -/
  | alias
  /-- More than one document. -/
  | documents
  /-- Not enough fuel, which the callers here always provide. -/
  | fuel
  deriving DecidableEq, Repr

/-- Whether a stream may hold a character. -/
def isAllowed (c : Char) : Bool :=
  let n := c.toNat
  n = 0x09 || n = 0x0A || n = 0x0D || (0x20 ≤ n && n ≤ 0x7E) || n = 0x85 ||
    (0xA0 ≤ n && n ≤ 0xFFFD) || 0x10000 ≤ n

/-- A space or a tab. -/
def isBlank (c : Char) : Bool := c = ' ' || c = '\t'

/-- A character that ends a line. -/
def isBreak (c : Char) : Bool :=
  c = '\n' || c = '\r' || c = '\u0085' || c = '\u2028' || c = '\u2029'

/-- The byte order mark. -/
def isMark (c : Char) : Bool := c = '\uFEFF'

/-- A character of anchors, handles and directive names. -/
def isWord (c : Char) : Bool := c.isAlphanum || c = '_' || c = '-'

/-- The value of a hexadecimal digit. -/
def hexDigit? (c : Char) : Option Nat :=
  if c.isDigit then some (c.toNat - 48)
  else if 'a' ≤ c ∧ c ≤ 'f' then some (c.toNat - 87)
  else if 'A' ≤ c ∧ c ≤ 'F' then some (c.toNat - 55)
  else none

/-- A place in a stream. -/
structure Cursor where
  /-- What is left to read. -/
  rest : List Char
  /-- Lines before this one. -/
  line : Nat := 0
  /-- Characters before this one on its line. -/
  column : Nat := 0
  /-- Characters before this one. -/
  index : Nat := 0

namespace Cursor

/-- The character some places ahead. -/
def peek? (c : Cursor) (ahead : Nat) : Option Char := c.rest[ahead]?

/-- Whether the next character is the given one. -/
def at? (c : Cursor) (ch : Char) : Bool := c.rest.head? = some ch

/-- Whether a character some places ahead is a blank, a break or the end. -/
def endsWord (c : Cursor) (ahead : Nat) : Bool :=
  match c.peek? ahead with
  | none => true
  | some ch => isBlank ch || isBreak ch

/-- Whether the next character is a blank. -/
def atBlank (c : Cursor) : Bool := c.rest.head?.any isBlank

/-- Whether the next character is a break. -/
def atBreak (c : Cursor) : Bool := c.rest.head?.any isBreak

/-- Whether the line ends here. -/
def atLineEnd (c : Cursor) : Bool :=
  match c.rest with
  | [] => true
  | ch :: _ => isBreak ch

/-- Pass over characters of one line. -/
def skip (c : Cursor) (n : Nat) : Cursor :=
  { c with rest := c.rest.drop n, column := c.column + n, index := c.index + n }

/-- Split off the longest run of characters of a class, none of which is a break. -/
def span (c : Cursor) (p : Char → Bool) : List Char × Cursor :=
  let run := c.rest.takeWhile p
  (run, c.skip run.length)

/-- Pass over characters of a class, none of which is a break. -/
def skipWhile (c : Cursor) (p : Char → Bool) : Cursor := (c.span p).2

/-- Pass over the rest of the line, but not its break. -/
def skipLine (c : Cursor) : Cursor := c.skipWhile fun ch => !isBreak ch

/-- Move to the next line. -/
def nextLine (c : Cursor) (rest : List Char) (width : Nat) : Cursor :=
  { rest, line := c.line + 1, column := 0, index := c.index + width }

/-- Read a line break, if there is one. -/
def break? (c : Cursor) : Option (Char × Cursor) :=
  match c.rest with
  | '\r' :: '\n' :: rest => some ('\n', c.nextLine rest 2)
  | ch :: rest =>
    if isBreak ch then
      some (if ch = '\u2028' ∨ ch = '\u2029' then ch else '\n', c.nextLine rest 1)
    else none
  | [] => none

/-- Whether a document marker stands here, at the start of a line. -/
def atMarker (c : Cursor) (ch : Char) : Bool :=
  c.column = 0 && c.rest.take 3 = [ch, ch, ch] && c.endsWord 3

/-- Whether some document marker stands here. -/
def atAnyMarker (c : Cursor) : Bool := c.atMarker '-' || c.atMarker '.'

/-- Fuel for a loop that reads at least one character a round. -/
def fuel (c : Cursor) : Nat := c.rest.length + 1

end Cursor

end BuildWorker.Yaml
