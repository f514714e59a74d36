import BuildWorker.Yaml.Scalar

/-!
# Tokens

A stream as tokens. Block structure is not in the text but in its indentation: a scanner keeps the
columns of the open blocks and emits a start when a deeper one opens and an end when one closes.
Nor does a key say that it is one before its colon is read. A *simple key*, which stands on one
line and has at most 1024 characters, is remembered where it starts; at the colon the tokens that
make it a key are inserted there.
-/

namespace BuildWorker.Yaml

/-- A token. The end of the stream is the end of the list. -/
inductive Token
  /-- The version of the language. -/
  | version (major minor : Nat)
  /-- What a tag handle stands for. -/
  | handle (name expansion : String)
  | documentStart
  | documentEnd
  | blockSequenceStart
  | blockMappingStart
  | blockEnd
  | flowSequenceStart
  | flowSequenceEnd
  | flowMappingStart
  | flowMappingEnd
  | blockEntry
  | flowEntry
  | key
  | value
  | alias (name : String)
  | anchor (name : String)
  | tag (handle suffix : String)
  | scalar (style : ScalarStyle) (text : String)
  deriving DecidableEq, Repr

/-! ### Tags, anchors and directives -/

/-- Whether a character may stand in a tag; in angle brackets some punctuation may as well. -/
def isTagChar (bracketed : Bool) (c : Char) : Bool :=
  isWord c || ";/?:@&=+$.%!~*'()".toList.contains c || (bracketed && ",[]".toList.contains c)

/-- How many continuation bytes a first byte of UTF-8 asks for. -/
def continuation? (b : Nat) : Option Nat :=
  if b < 0x80 then some 0
  else if b / 32 = 6 then some 1
  else if b / 16 = 14 then some 2
  else if b / 8 = 30 then some 3
  else none

/-- A byte written as a percent sign and two digits. -/
def percentByte? : List Char → Option (Nat × List Char)
  | '%' :: a :: b :: rest => do return (16 * (← hexDigit? a) + (← hexDigit? b), rest)
  | _ => none

/-- Resolve percent signs into the bytes of the text. -/
def percentBytes : Nat → List Char → Option (List UInt8)
  | 0, _ => none
  | _, [] => some []
  | fuel + 1, '%' :: rest => do
    let (first, rest) ← percentByte? ('%' :: rest)
    let more ← continuation? first
    let (bytes, rest) ← (List.range more).foldlM (fun (bytes, rest) _ => do
      let (b, rest) ← percentByte? rest
      if b / 64 = 2 then some (bytes ++ [UInt8.ofNat b], rest) else none)
      ([UInt8.ofNat first], rest)
    return bytes ++ (← percentBytes fuel rest)
  | fuel + 1, c :: rest => do
    return (String.singleton c).toByteArray.data.toList ++ (← percentBytes fuel rest)

/-- Read the characters of a tag. -/
def readTagChars (bracketed : Bool) (c : Cursor) : Except Fault (String × Cursor) :=
  let (run, next) := c.span (isTagChar bracketed)
  match percentBytes (run.length + 1) run with
  | some bytes =>
    match String.fromUTF8? bytes.toByteArray with
    | some text => .ok (text, next)
    | none => .error .tag
  | none => .error .tag

/-- Read a tag handle: an exclamation mark, word characters and possibly a second mark. -/
def readHandle (c : Cursor) : Except Fault (String × Cursor) :=
  if !c.at? '!' then .error .tag
  else
    let (word, next) := (c.skip 1).span isWord
    if next.at? '!' then .ok (String.ofList ('!' :: word ++ ['!']), next.skip 1)
    else .ok (String.ofList ('!' :: word), next)

/-- Read a tag. -/
def readTag (flow : Bool) (c : Cursor) : Except Fault (Token × Cursor) := do
  let (token, c) ←
    if c.peek? 1 = some '<' then do
      let (suffix, c) ← readTagChars true (c.skip 2)
      if suffix.isEmpty || !c.at? '>' then throw .tag
      pure (Token.tag "" suffix, c.skip 1)
    else do
      let (handle, c) ← readHandle c
      if handle.length > 1 && handle.endsWith "!" then
        let (suffix, c) ← readTagChars false c
        if suffix.isEmpty then throw .tag
        pure (Token.tag handle suffix, c)
      else
        let (rest, c) ← readTagChars false c
        let suffix := String.ofList (handle.toList.drop 1) ++ rest
        pure (if suffix.isEmpty then Token.tag "" "!" else Token.tag "!" suffix, c)
  if c.endsWord 0 || (flow && c.at? ',') then return (token, c) else throw .tag

/-- Read the name of an anchor or alias behind its mark. -/
def readAnchor (c : Cursor) : Except Fault (String × Cursor) :=
  let (name, next) := (c.skip 1).span isWord
  let closed := next.endsWord 0 || next.rest.head?.any fun ch => "?:,]\x7d%@\x60".toList.contains ch
  if name.isEmpty || !closed then .error .anchor else .ok (String.ofList name, next)

/-- Read a number of at most nine digits. -/
def readVersionNumber (c : Cursor) : Except Fault (Nat × Cursor) :=
  let (digits, next) := c.span Char.isDigit
  if digits.isEmpty || 9 < digits.length then .error .directive
  else .ok (digits.foldl (fun n d => 10 * n + (d.toNat - 48)) 0, next)

/-- Read a directive and the rest of its line. -/
def readDirective (c : Cursor) : Except Fault (Token × Cursor) := do
  let (name, c) := (c.skip 1).span isWord
  if name.isEmpty || !c.endsWord 0 then throw .directive
  let c := c.skipWhile isBlank
  let (token, c) ← match String.ofList name with
    | "YAML" => do
      let (major, c) ← readVersionNumber c
      if !c.at? '.' then throw .directive
      let (minor, c) ← readVersionNumber (c.skip 1)
      pure (Token.version major minor, c)
    | "TAG" => do
      let (handle, c) ← readHandle c
      if !handle.endsWith "!" || !c.atBlank then throw .directive
      let (expansion, c) ← readTagChars true (c.skipWhile isBlank)
      if expansion.isEmpty || !c.endsWord 0 then throw .directive
      pure (Token.handle handle expansion, c)
    | _ => throw .directive
  return (token, ← finishLine .directive c)

/-! ### The scanner -/

/-- Where a simple key may have started. -/
structure SimpleKey where
  /-- Number of tokens before it. -/
  position : Nat
  /-- Whether it has to be a key: it starts at the column of its block. -/
  required : Bool
  /-- The line on which it starts. -/
  line : Nat
  /-- The column in which it starts. -/
  column : Nat
  /-- The index at which it starts. -/
  index : Nat

/-- What a scanner remembers. -/
structure Scanner where
  /-- Where it stands. -/
  cursor : Cursor
  /-- Column of the innermost block, or -1. -/
  indent : Int := -1
  /-- Columns of the blocks around it, the innermost first. -/
  outer : List Int := []
  /-- A possible simple key for each open flow collection, the innermost first, and one for the
  block around them. -/
  keys : List (Option SimpleKey) := [none]
  /-- Whether a simple key may start here. -/
  keyAllowed : Bool := true
  tokens : Array Token := #[]

namespace Scanner

/-- Nesting of flow collections. -/
def flow (s : Scanner) : Nat := s.keys.length - 1

/-- Whether a flow collection is open. -/
def inFlow (s : Scanner) : Bool := s.flow ≠ 0

/-- Emit a token and move on. -/
def emit (s : Scanner) (t : Token) (cursor : Cursor) : Scanner :=
  { s with tokens := s.tokens.push t, cursor }

/-- Insert a token before those that follow a position. -/
def insertToken (s : Scanner) (position : Nat) (t : Token) : Scanner :=
  let ts := s.tokens.toList
  { s with tokens := (ts.take position ++ t :: ts.drop position).toArray }

/-- Pass over blanks, comments and line breaks before a token. -/
def toToken : Nat → Scanner → Scanner
  | 0, s => s
  | fuel + 1, s =>
    let c := s.cursor
    let c := if c.column = 0 && c.rest.head?.any isMark then c.skip 1 else c
    let c := c.skipWhile fun ch => ch = ' ' || ((s.inFlow || !s.keyAllowed) && ch = '\t')
    let c := if c.at? '#' then c.skipLine else c
    match c.break? with
    | some (_, c) =>
      toToken fuel { s with cursor := c, keyAllowed := s.keyAllowed || !s.inFlow }
    | none => { s with cursor := c }

/-- Forget simple keys that have become too long. -/
def expireKeys (s : Scanner) : Except Fault Scanner := do
  let keys ← s.keys.mapM fun key? =>
    match key? with
    | none => pure none
    | some key =>
      if key.line < s.cursor.line || key.index + 1024 < s.cursor.index then
        if key.required then throw .unfinishedKey else pure none
      else pure (some key)
  return { s with keys }

/-- Close the blocks that are deeper than a column. -/
def unroll (column : Int) : Nat → Scanner → Scanner
  | 0, s => s
  | fuel + 1, s =>
    if s.inFlow || s.indent ≤ column then s
    else
      unroll column fuel { s with
        tokens := s.tokens.push .blockEnd
        indent := s.outer.headD (-1)
        outer := s.outer.drop 1 }

/-- Close blocks down to a column. -/
def closeBlocks (s : Scanner) (column : Int) : Scanner := s.unroll column (s.outer.length + 1)

/-- Open a block at a column, unless one is open there; its start goes to a position. -/
def openBlock (s : Scanner) (column position : Nat) (start : Token) : Scanner :=
  if s.inFlow || (column : Int) ≤ s.indent then s
  else { s.insertToken position start with indent := column, outer := s.indent :: s.outer }

/-- Forget the innermost simple key. -/
def dropKey (s : Scanner) : Except Fault Scanner :=
  match s.keys with
  | some key :: rest =>
    if key.required then .error .unfinishedKey else .ok { s with keys := none :: rest }
  | _ => .ok s

/-- Remember that a simple key may start here. -/
def saveKey (s : Scanner) : Except Fault Scanner :=
  if !s.keyAllowed then .ok s
  else do
    let c := s.cursor
    let required := !s.inFlow && s.indent = c.column
    let s ← s.dropKey
    let key := { position := s.tokens.size, required, line := c.line, column := c.column,
                 index := c.index }
    return { s with keys := some key :: s.keys.drop 1 }

/-- The end of the stream. -/
def finish (s : Scanner) : Except Fault Scanner := do
  (s.closeBlocks (-1)).dropKey

/-- A directive. -/
def directive (s : Scanner) : Except Fault Scanner := do
  let s ← (s.closeBlocks (-1)).dropKey
  let (t, c) ← readDirective s.cursor
  return { s with keyAllowed := false }.emit t c

/-- A document marker. -/
def marker (s : Scanner) (t : Token) : Except Fault Scanner := do
  let s ← (s.closeBlocks (-1)).dropKey
  return { s with keyAllowed := false }.emit t (s.cursor.skip 3)

/-- The start of a flow collection. -/
def openFlow (s : Scanner) (t : Token) : Except Fault Scanner := do
  let s ← s.saveKey
  return { s with keys := none :: s.keys, keyAllowed := true }.emit t (s.cursor.skip 1)

/-- The end of a flow collection. -/
def closeFlow (s : Scanner) (t : Token) : Except Fault Scanner := do
  let s ← s.dropKey
  let keys := if s.inFlow then s.keys.drop 1 else s.keys
  return { s with keys, keyAllowed := false }.emit t (s.cursor.skip 1)

/-- A comma. -/
def flowEntry (s : Scanner) : Except Fault Scanner := do
  let s ← s.dropKey
  return { s with keyAllowed := true }.emit .flowEntry (s.cursor.skip 1)

/-- A dash. -/
def blockEntry (s : Scanner) : Except Fault Scanner := do
  if !s.inFlow && !s.keyAllowed then throw .misplaced
  let s ← (s.openBlock s.cursor.column s.tokens.size .blockSequenceStart).dropKey
  return { s with keyAllowed := true }.emit .blockEntry (s.cursor.skip 1)

/-- A question mark. -/
def explicitKey (s : Scanner) : Except Fault Scanner := do
  if !s.inFlow && !s.keyAllowed then throw .misplaced
  let s ← (s.openBlock s.cursor.column s.tokens.size .blockMappingStart).dropKey
  return { s with keyAllowed := !s.inFlow }.emit .key (s.cursor.skip 1)

/-- A colon. -/
def value (s : Scanner) : Except Fault Scanner := do
  match s.keys with
  | some key :: rest =>
    let s := s.insertToken key.position .key
    let s := s.openBlock key.column key.position .blockMappingStart
    return { s with keys := none :: rest, keyAllowed := false }.emit .value (s.cursor.skip 1)
  | _ =>
    if !s.inFlow && !s.keyAllowed then throw .misplaced
    let s := s.openBlock s.cursor.column s.tokens.size .blockMappingStart
    return { s with keyAllowed := !s.inFlow }.emit .value (s.cursor.skip 1)

/-- An alias or anchor. -/
def anchor (s : Scanner) (token : String → Token) : Except Fault Scanner := do
  let s ← s.saveKey
  let (name, c) ← readAnchor s.cursor
  return { s with keyAllowed := false }.emit (token name) c

/-- A tag. -/
def tag (s : Scanner) : Except Fault Scanner := do
  let s ← s.saveKey
  let (t, c) ← readTag s.inFlow s.cursor
  return { s with keyAllowed := false }.emit t c

/-- The setting of a scalar. -/
def setting (s : Scanner) : Setting := { flow := s.flow, indent := s.indent }

/-- A block scalar. -/
def block (s : Scanner) (style : ScalarStyle) : Except Fault Scanner := do
  let s ← s.dropKey
  let (text, c) ← readBlock s.setting (style == .folded) (s.cursor.skip 1)
  return { s with keyAllowed := true }.emit (.scalar style text) c

/-- A quoted scalar. -/
def quoted (s : Scanner) (style : ScalarStyle) : Except Fault Scanner := do
  let s ← s.saveKey
  let (text, c) ← readQuoted (style == .singleQuoted) s.cursor.fuel [] (s.cursor.skip 1)
  return { s with keyAllowed := false }.emit (.scalar style text) c

/-- A plain scalar. -/
def plain (s : Scanner) : Except Fault Scanner := do
  let s ← s.saveKey
  let (text, broken, c) ← readPlain s.setting (s.cursor.fuel + 1) [] {} s.cursor
  return { s with keyAllowed := broken }.emit (.scalar .plain text) c

/-- Characters that start no plain scalar. -/
def isIndicator (c : Char) : Bool := "-?:,[]\x7b\x7d#&*!|>'\"%@\x60".toList.contains c

/-- Whether a plain scalar starts with the character `ch`, the next one. A tab does so nowhere: it
is left over only where indentation is due. -/
def startsPlain (s : Scanner) (ch : Char) : Bool :=
  (!isBlank ch && !isIndicator ch) || (ch = '-' && !(s.cursor.peek? 1).any isBlank) ||
    (!s.inFlow && (ch = '?' || ch = ':') && !s.cursor.endsWord 1)

/-- Scan the token that starts with the character `ch`, the next one. -/
def token (s : Scanner) (ch : Char) : Except Fault Scanner :=
  let c := s.cursor
  let spaced := c.endsWord 1
  if c.column = 0 && ch = '%' then s.directive
  else if c.atMarker '-' then s.marker .documentStart
  else if c.atMarker '.' then s.marker .documentEnd
  else if ch = '[' then s.openFlow .flowSequenceStart
  else if ch = '\x7b' then s.openFlow .flowMappingStart
  else if ch = ']' then s.closeFlow .flowSequenceEnd
  else if ch = '\x7d' then s.closeFlow .flowMappingEnd
  else if ch = ',' then s.flowEntry
  else if ch = '-' && spaced then s.blockEntry
  else if ch = '?' && (s.inFlow || spaced) then s.explicitKey
  else if ch = ':' && (s.inFlow || spaced) then s.value
  else if ch = '*' then s.anchor .alias
  else if ch = '&' then s.anchor .anchor
  else if ch = '!' then s.tag
  else if ch = '|' && !s.inFlow then s.block .literal
  else if ch = '>' && !s.inFlow then s.block .folded
  else if ch = '\'' then s.quoted .singleQuoted
  else if ch = '"' then s.quoted .doubleQuoted
  else if s.startsPlain ch then s.plain
  else .error .start

/-- Scan to the end. -/
def run : Nat → Scanner → Except Fault Scanner
  | 0, _ => .error .fuel
  | fuel + 1, s => do
    let s ← (s.toToken s.cursor.fuel).expireKeys
    let s := s.closeBlocks s.cursor.column
    match s.cursor.rest with
    | [] => s.finish
    | ch :: _ => run fuel (← s.token ch)

end Scanner

/-- The tokens of a stream. A byte order mark may start it. -/
def tokens (text : String) : Except Fault (List Token) := do
  let cs := text.toList
  if !cs.all isAllowed then throw .character
  let rest := if cs.head?.any isMark then cs.drop 1 else cs
  let s ← Scanner.run (rest.length + 2) { cursor := { rest } }
  return s.tokens.toList

end BuildWorker.Yaml
