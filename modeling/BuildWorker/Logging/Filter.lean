import BuildWorker.Settings.Basic
import BuildWorker.Text.Blank
import BuildWorker.Text.Number

/-!
# Which events are logged

A filter is written as directives between commas. A directive may name a target, whose events it
is about, a span, around the events it is about, and a level:

* `info` is about all events;
* `store=debug` is about events of targets that start with `store`, and `store` alone lets all of
  them pass;
* `store[write]=debug` is about events inside of spans with the name `write`;
* `[{size}]=debug` is about events with a field `size`.

The most specific directive about an event decides. An event of this library's own programs is
outside of all spans and has the field `message` only.
-/

namespace BuildWorker

/-- What a directive says of an event outside of all spans. -/
structure LogDirective where
  /-- How much it lets pass; `none` is nothing. -/
  level : Option LogLevel := some .trace
  /-- The start of the targets that it is about. -/
  target : Option String := none
  /-- The field that events must have. -/
  field : Option String := none
  /-- Whether it is about events inside of some spans only. -/
  inSpans : Bool := false
  deriving DecidableEq, Repr

/-- Directives in the order in which they are written. -/
abbrev LogFilter := List LogDirective

/-- The rank of a level among all. -/
def LogLevel.rank : LogLevel → Nat
  | .error => 1
  | .warn => 2
  | .info => 3
  | .debug => 4
  | .trace => 5

namespace LogDirective

/-- The level of a word or of its rank; `off` and zero let nothing pass. -/
def level? (cs : List Char) : Option (Option LogLevel) :=
  match Text.readBounded UInt64.size cs with
  | .ok n => if n = 0 then some none else (LogLevel.all.find? (·.rank == n)).map some
  | .error _ =>
    let word := (String.ofList cs).map Char.toLower
    if word = "off" then some none else (LogLevel.ofWord? word).map some

/-- Whether a directive may start with a character. -/
def startsTarget (c : Char) : Bool :=
  c.isAlphanum || 0x80 ≤ c.toNat || c = '-' || c = ':' || c = '_'

/-- Add the level that is written behind the equals sign before a place. -/
def withLevel? (text : List Char) (place : Nat) (d : LogDirective) : Option LogDirective :=
  match text.drop place with
  | [] => some d
  | word => (level? word).map fun level => { d with level }

/-- Read what follows the brackets before a place. -/
def afterBrackets? (text trimmed : List Char) (place : Nat) (d : LogDirective) :
    Option LogDirective :=
  match trimmed.drop place with
  | [] => some d
  | '=' :: _ => d.withLevel? text (place + 1)
  | _ => none

/-- Read brackets behind a place, with a span, a field in braces or both. -/
def brackets? (text trimmed : List Char) (place : Nat) (d : LogDirective) : Option LogDirective :=
  let rest := trimmed.drop place
  let span := rest.takeWhile fun c => c != ']' && c != '\x7b'
  let place := place + span.length
  match rest.drop span.length with
  | [] => none
  | ']' :: _ => afterBrackets? text trimmed (place + 1) { d with inSpans := true }
  | _ :: rest =>
    let field := rest.takeWhile (· != '\x7d')
    let place := place + field.length + 2
    match rest.drop field.length with
    | _ :: ']' :: _ =>
      if field.isEmpty then none
      else
        let d := { d with
          field := some (String.ofList field)
          inSpans := !span.isEmpty || field.contains '=' }
        afterBrackets? text trimmed (place + 1) d
    | _ => none

/-- Trim blanks from both ends. -/
def trim (cs : List Char) : List Char :=
  ((cs.dropWhile Text.isBlank).reverse.dropWhile Text.isBlank).reverse

/-- Read a directive. Its parts are found in the trimmed text, and each is then cut out of the
text at the same places. -/
def parse? (text : List Char) : Option LogDirective :=
  let trimmed := trim text
  match trimmed with
  | [] => none
  | '[' :: _ => brackets? text trimmed 1 {}
  | c :: _ =>
    if !startsTarget c then none
    else
      let length := (trimmed.takeWhile fun c => c != '=' && c != '[').length
      let target := some (String.ofList (text.take length))
      match trimmed.drop length with
      | [] =>
        match level? text with
        | some level => some { level }
        | none => some { target := some (String.ofList text) }
      | '=' :: _ => withLevel? text (length + 1) { target }
      | _ => brackets? text trimmed (length + 1) { target }

/-- Whether the directive is about the events of a target with certain fields. -/
def isAbout (d : LogDirective) (target : String) (fields : List String) : Bool :=
  !d.inSpans && d.target.all (target.startsWith ·) && d.field.all fields.contains

/-- Whether one directive is at least as specific as another. -/
def atLeastAs (d e : LogDirective) : Bool :=
  let size (d : LogDirective) : Nat × Nat :=
    ((d.target.map fun t => t.utf8ByteSize + 1).getD 0, (d.field.map fun _ => 1).getD 0)
  let (a, b) := size d
  let (a', b') := size e
  a' < a || (a' == a && b' ≤ b)

end LogDirective

namespace LogFilter

/-- The filter that lets one level pass. -/
def ofLevel (level : LogLevel) : LogFilter := [{ level := some level }]

/-- Read a filter. Without any directives it lets errors pass. -/
def parse? (text : String) : Option LogFilter := do
  let parts := (text.splitOn ",").filter (!·.isEmpty)
  let directives ← parts.mapM fun part => LogDirective.parse? part.toList
  return if directives.isEmpty then ofLevel .error else directives

/-- The filter of a text; if it is none, that of a second text, and otherwise `info`. -/
def choose (text : String) (second : Option String) : LogFilter :=
  (parse? text).getD ((second.bind parse?).getD (ofLevel .info))

/-- Whether an event passes. Of directives that are equally specific, the last one decides. -/
def passes (f : LogFilter) (target : String) (fields : List String) (level : LogLevel) : Bool :=
  let about := f.filter (·.isAbout target fields)
  let deciding := about.foldl (fun (best : Option LogDirective) d =>
    match best with
    | some b => if d.atLeastAs b then some d else some b
    | none => some d) none
  match deciding.bind LogDirective.level with
  | some allowed => level.rank ≤ allowed.rank
  | none => false

end LogFilter

namespace LogSettings

/-- Whether printed events tell where they arise; the pretty format always does. -/
def showsLocation (s : LogSettings) : Bool := s.includeLocation || s.format == .pretty

end LogSettings

end BuildWorker
