import BuildWorker.Yaml.Cursor

/-!
# Scalars

The four ways to write a scalar and how its lines fold into text. In quoted and plain scalars the
blanks around a line break are dropped, a single break becomes a space and each further one stays.
A block scalar keeps its lines, less the indentation; folded, a single break between two lines
that do not start with a blank becomes a space.
-/

namespace BuildWorker.Yaml

/-- How a scalar is written. -/
inductive ScalarStyle
  | plain
  | singleQuoted
  | doubleQuoted
  | literal
  | folded
  deriving DecidableEq, Repr

/-! ### Blanks and breaks between words -/

/-- Blanks and line breaks between two words of a scalar. -/
structure Gap where
  /-- Blanks, while there is no break. -/
  blanks : List Char := []
  /-- The first break. -/
  first : Option Char := none
  /-- Further breaks. -/
  more : List Char := []
  /-- Whether a line has ended. -/
  broken : Bool := false

/-- What the gap contributes to the text. -/
def Gap.text (g : Gap) : List Char :=
  if g.broken then
    match g.first with
    | some '\n' => if g.more.isEmpty then [' '] else g.more
    | some c => c :: g.more
    | none => g.more
  else g.blanks

/-- Read blanks and breaks. In a plain scalar of a block, a tab before the column `tabLimit` of a
later line is a fault. -/
def Gap.read (tabLimit : Nat) : Nat → Gap → Cursor → Except Fault (Gap × Cursor)
  | 0, _, _ => .error .fuel
  | fuel + 1, g, c =>
    if c.atBlank then
      if g.broken && c.column < tabLimit && c.at? '\t' then .error .tab
      else
        let blanks := if g.broken then g.blanks else g.blanks ++ c.rest.take 1
        Gap.read tabLimit fuel { g with blanks } (c.skip 1)
    else match c.break? with
      | none => .ok (g, c)
      | some (ch, c) =>
        let g := if g.broken then { g with more := g.more ++ [ch] }
          else { blanks := [], first := some ch, broken := true }
        Gap.read tabLimit fuel g c

/-! ### Quoted scalars -/

/-- What a character behind a backslash stands for. -/
def escaped? : Char → Option Char
  | '0' => some '\x00'
  | 'a' => some '\x07'
  | 'b' => some '\x08'
  | 't' => some '\t'
  | '\t' => some '\t'
  | 'n' => some '\n'
  | 'v' => some '\x0b'
  | 'f' => some '\x0c'
  | 'r' => some '\r'
  | 'e' => some '\x1b'
  | ' ' => some ' '
  | '"' => some '"'
  | '/' => some '/'
  | '\\' => some '\\'
  | 'N' => some '\u0085'
  | '_' => some '\u00a0'
  | 'L' => some '\u2028'
  | 'P' => some '\u2029'
  | _ => none

/-- The number of hexadecimal digits that a character behind a backslash asks for. -/
def codeLength? : Char → Option Nat
  | 'x' => some 2
  | 'u' => some 4
  | 'U' => some 8
  | _ => none

/-- The character of a code point in hexadecimal digits. -/
def codePoint? (digits : List Char) : Option Char := do
  let n ← digits.foldlM (fun n d => (hexDigit? d).map (16 * n + ·)) 0
  if n.isValidChar then some (Char.ofNat n) else none

/-- Read an escape behind its backslash. -/
def readEscape (c : Cursor) : Except Fault (Char × Cursor) :=
  match c.rest with
  | [] => .error .escape
  | ch :: rest =>
    match codeLength? ch with
    | some n =>
      match codePoint? (rest.take n) with
      | some point => if rest.length < n then .error .escape else .ok (point, c.skip (n + 1))
      | none => .error .escape
    | none =>
      match escaped? ch with
      | some point => .ok (point, c.skip 1)
      | none => .error .escape

/-- Read a word of a quoted scalar: up to a blank, a break, the quote or the end. The flag says
whether the word ends with an escaped line break. The text is gathered in reverse. -/
def readQuotedWord (single : Bool) : Nat → List Char → Cursor →
    Except Fault (List Char × Bool × Cursor)
  | 0, _, _ => .error .fuel
  | fuel + 1, text, c =>
    if c.endsWord 0 then .ok (text, false, c)
    else
      let quote := if single then '\'' else '"'
      match c.rest with
      | [] => .ok (text, false, c)
      | ch :: _ =>
        if single && ch = quote && c.peek? 1 = some quote then
          readQuotedWord single fuel (quote :: text) (c.skip 2)
        else if ch = quote then .ok (text, false, c)
        else if !single && ch = '\\' then
          match (c.skip 1).break? with
          | some (_, next) => .ok (text, true, next)
          | none => do
            let (point, next) ← readEscape (c.skip 1)
            readQuotedWord single fuel (point :: text) next
        else readQuotedWord single fuel (ch :: text) (c.skip 1)

/-- Read a quoted scalar behind its opening quote. -/
def readQuoted (single : Bool) : Nat → List Char → Cursor → Except Fault (String × Cursor)
  | 0, _, _ => .error .fuel
  | fuel + 1, text, c =>
    if c.atAnyMarker then .error .unclosed
    else if c.rest.isEmpty then .error .unclosed
    else do
      let (text, joined, c) ← readQuotedWord single c.fuel text c
      if c.at? (if single then '\'' else '"') then
        return (String.ofList text.reverse, c.skip 1)
      let (gap, c) ← Gap.read 0 c.fuel { broken := joined } c
      readQuoted single fuel (gap.text.reverse ++ text) c

/-! ### Plain scalars -/

/-- The setting of a token: how deep flow collections are nested and how far blocks are indented. -/
structure Setting where
  /-- Nesting of flow collections. -/
  flow : Nat
  /-- Column of the enclosing block, or -1. -/
  indent : Int

/-- Characters that close or separate in flow collections. -/
def isFlowPunctuation (ch : Char) : Bool :=
  ch = ',' || ch = '[' || ch = ']' || ch = '\x7b' || ch = '\x7d'

/-- Read a word of a plain scalar, in reverse before `text`. -/
def readPlainWord (s : Setting) : Nat → List Char → Cursor → Except Fault (List Char × Cursor)
  | 0, _, _ => .error .fuel
  | fuel + 1, text, c =>
    if c.endsWord 0 then .ok (text, c)
    else match c.rest with
      | [] => .ok (text, c)
      | ch :: rest =>
        if s.flow ≠ 0 && ch = ':' && rest.head?.any (fun n => n = '?' || isFlowPunctuation n) then
          .error .colon
        else if (ch = ':' && c.endsWord 1) || (s.flow ≠ 0 && isFlowPunctuation ch) then
          .ok (text, c)
        else readPlainWord s fuel (ch :: text) (c.skip 1)

/-- Read a plain scalar: words with gaps between them, which count only before a further word. The
flag says whether the last gap ended a line. -/
def readPlain (s : Setting) : Nat → List Char → Gap → Cursor →
    Except Fault (String × Bool × Cursor)
  | 0, _, _, _ => .error .fuel
  | fuel + 1, text, gap, c => do
    let finish := (String.ofList text.reverse, gap.broken, c)
    if c.atAnyMarker || c.at? '#' then return finish
    let (word, next) ← readPlainWord s c.fuel [] c
    let text := if word.isEmpty then text else word ++ gap.text.reverse ++ text
    let gap : Gap := if word.isEmpty then gap else {}
    if !(next.atBlank || next.atBreak) then
      return (String.ofList text.reverse, gap.broken, next)
    let limit := (s.indent + 1).toNat
    let (gap, next) ← Gap.read limit next.fuel gap next
    if s.flow = 0 && next.column < limit then
      return (String.ofList text.reverse, gap.broken, next)
    readPlain s fuel text gap next

/-! ### Block scalars -/

/-- What happens to the line breaks at the end of a block scalar. -/
inductive Chomping
  /-- The first one stays. -/
  | clip
  /-- None stays. -/
  | strip
  /-- All stay. -/
  | keep
  deriving DecidableEq, Repr

/-- The chomping indicator. -/
def chomping? : Option Char → Option Chomping
  | some '+' => some .keep
  | some '-' => some .strip
  | _ => none

/-- An indentation indicator, from 1 to 9. -/
def increment? (c : Cursor) : Except Fault (Option Nat × Cursor) :=
  match c.peek? 0 with
  | some d =>
    if d = '0' then .error .header
    else if d.isDigit then .ok (some (d.toNat - 48), c.skip 1)
    else .ok (none, c)
  | none => .ok (none, c)

/-- Read the indicators of a block scalar, in either order. -/
def readHeader (c : Cursor) : Except Fault (Chomping × Option Nat × Cursor) :=
  match chomping? (c.peek? 0) with
  | some chomp => do
    let (n, c) ← increment? (c.skip 1)
    return (chomp, n, c)
  | none => do
    let (n, c) ← increment? c
    if n.isNone then return (.clip, none, c)
    match chomping? (c.peek? 0) with
    | some chomp => return (chomp, n, c.skip 1)
    | none => return (.clip, n, c)

/-- Pass over blanks and a comment up to the end of the line, and over its break. -/
def finishLine (fault : Fault) (c : Cursor) : Except Fault Cursor :=
  let c := c.skipWhile isBlank
  let c := if c.at? '#' then c.skipLine else c
  if !c.atLineEnd then .error fault
  else match c.break? with
    | some (_, c) => .ok c
    | none => .ok c

/-- Read indentation and empty lines. `indent` is zero while it is not known; then the deepest
empty line counts. -/
def readEmptyLines (indent : Nat) : Nat → List Char → Nat → Cursor →
    Except Fault (List Char × Nat × Cursor)
  | 0, _, _, _ => .error .fuel
  | fuel + 1, breaks, deepest, c =>
    let spaces := (c.rest.takeWhile (· = ' ')).length
    let c := c.skip (if indent = 0 then spaces else Nat.min spaces (indent - c.column))
    let deepest := Nat.max deepest c.column
    if (indent = 0 || c.column < indent) && c.at? '\t' then .error .tab
    else match c.break? with
      | none => .ok (breaks, deepest, c)
      | some (ch, c) => readEmptyLines indent fuel (breaks ++ [ch]) deepest c

/-- The lines of a block scalar that are read and not yet written. -/
structure Lines where
  /-- The text, in reverse. -/
  text : List Char := []
  /-- The break at the end of the last line. -/
  last : List Char := []
  /-- The empty lines after it. -/
  empty : List Char
  /-- Whether the last line starts with a blank. -/
  blank : Bool := false

/-- Read the lines of a block scalar. -/
def readLines (folded : Bool) (indent : Nat) : Nat → Lines → Cursor →
    Except Fault (Lines × Cursor)
  | 0, _, _ => .error .fuel
  | fuel + 1, l, c =>
    if c.column ≠ indent || c.rest.isEmpty then .ok (l, c)
    else do
      let joint :=
        if folded && l.last = ['\n'] && !l.blank && !c.atBlank then
          if l.empty.isEmpty then [' '] else l.empty
        else l.last ++ l.empty
      let (line, next) := c.span fun ch => !isBreak ch
      let text := line.reverse ++ joint.reverse ++ l.text
      let (last, next) := match next.break? with
        | some (ch, next) => ([ch], next)
        | none => ([], next)
      let (empty, _, next) ← readEmptyLines indent next.fuel [] 0 next
      readLines folded indent fuel { text, last, empty, blank := c.atBlank } next

/-- Read a block scalar behind its indicator. -/
def readBlock (s : Setting) (folded : Bool) (c : Cursor) : Except Fault (String × Cursor) := do
  let (chomp, increment, c) ← readHeader c
  let c ← finishLine .header c
  let base := Nat.max s.indent.toNat 0
  let given := increment.map fun n => base + n
  let (empty, deepest, c) ← readEmptyLines (given.getD 0) c.fuel [] 0 c
  let indent := given.getD (Nat.max 1 (Nat.max deepest (s.indent + 1).toNat))
  let (l, c) ← readLines folded indent c.fuel { empty } c
  let tail := match chomp with
    | .strip => []
    | .clip => l.last
    | .keep => l.last ++ l.empty
  return (String.ofList (l.text.reverse ++ tail), c)

end BuildWorker.Yaml
