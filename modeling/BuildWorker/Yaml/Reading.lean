import BuildWorker.Decimal.Binary64
import BuildWorker.Yaml.Node

/-!
# Reading values from nodes

What a node says depends on what is asked for. A text is the text of any scalar, so `true`, `1`
and `null` are texts too. Numbers and truth values must be plain (or a literal block with the
matching tag). A record or list is also read from nothing at all, which is the empty one.

Every reader follows an alias first.
-/

namespace BuildWorker.Yaml

/-- Whether a scalar may be read as a number or truth value of the given tag. -/
def isBare (expected : String) (tag : Option String) : ScalarStyle → Bool
  | .plain => true
  | .literal => tag = some ("tag:yaml.org,2002:" ++ expected)
  | _ => false

/-- Whether a text is a word for null. -/
def isNullWord (s : String) : Bool := s = "null" || s = "Null" || s = "NULL" || s = "~"

/-- The value of a digit in a base. -/
def digitIn? (base : Nat) (c : Char) : Option Nat := do
  let d ← hexDigit? c
  if d < base then some d else none

/-- The number that digits name, below a bound. -/
def numberIn? (base bound : Nat) (digits : List Char) : Option Nat := do
  if digits.isEmpty then none
  digits.foldlM (fun n c => do
    let d ← digitIn? base c
    if base * n + d < bound then some (base * n + d) else none) 0

/-- The rest of a list behind a given start. -/
def stripStart? (start cs : List Char) : Option (List Char) :=
  if start.isPrefixOf cs then some (cs.drop start.length) else none

/-- An unsigned number of 64 bits: decimal without leading zeros, or with a base mark. A plus sign
may stand before it, and behind a base mark there is none. -/
def unsignedOf? (s : String) : Option UInt64 := do
  let cs := (stripStart? ['+'] s.toList).getD s.toList
  let marked (mark : Char) (base : Nat) : Option Nat :=
    (stripStart? ['0', mark] cs).bind (numberIn? base UInt64.size)
  let zeros := cs.length > 1 && cs.head? = some '0' && cs.all Char.isDigit
  let decimal := if zeros then none else numberIn? 10 UInt64.size cs
  let n ← (marked 'x' 16).orElse fun _ => (marked 'o' 8).orElse fun _ =>
    (marked 'b' 2).orElse fun _ => decimal
  return UInt64.ofNat n

/-- A decimal number: digits with a point somewhere and an exponent. -/
def decimalOf? (negative : Bool) (cs : List Char) : Option Float := do
  let whole := cs.takeWhile Char.isDigit
  let rest := cs.dropWhile Char.isDigit
  let (fraction, rest) := match rest with
    | '.' :: rest => (rest.takeWhile Char.isDigit, rest.dropWhile Char.isDigit)
    | rest => ([], rest)
  if whole.isEmpty && fraction.isEmpty then none
  let exponent : Int ← match rest with
    | [] => some 0
    | e :: rest =>
      if e ≠ 'e' ∧ e ≠ 'E' then none
      else
        let (sign, digits) : Int × List Char := match rest with
          | '-' :: digits => (-1, digits)
          | '+' :: digits => (1, digits)
          | digits => (1, digits)
        if digits.isEmpty || !digits.all Char.isDigit then none
        else some (sign * (Nat.ofDigitChars 10 digits 0 : Nat))
  let digits := Nat.ofDigitChars 10 (whole ++ fraction) 0
  let x := Decimal.ofDecimal negative digits (exponent - (fraction.length : Nat))
  if x.isInf then none else some x

/-- A floating-point number, or one of the words for infinity and for what is no number. -/
def floatOf? (s : String) : Option Float :=
  if [".nan", ".NaN", ".NAN"].contains s then some (0.0 / 0.0)
  else if ["-.inf", "-.Inf", "-.INF"].contains s then some (-1.0 / 0.0)
  else if [".inf", ".Inf", ".INF", "+.inf", "+.Inf", "+.INF"].contains s then some (1.0 / 0.0)
  else match s.toList with
    | '+' :: cs => decimalOf? false cs
    | '-' :: cs => decimalOf? true cs
    | cs => decimalOf? false cs

/-- A truth value. -/
def boolOf? (s : String) : Option Bool :=
  if ["true", "True", "TRUE"].contains s then some true
  else if ["false", "False", "FALSE"].contains s then some false
  else none

namespace Document

variable (d : Document)

/-- The text of a scalar. -/
def text? (n : Node) : Option String :=
  match d.resolve n with
  | .scalar _ _ s => some s
  | _ => none

/-- A scalar that is read as a value of the given tag. -/
def bare? {α : Type} (expected : String) (read : String → Option α) (n : Node) : Option α :=
  match d.resolve n with
  | .scalar tag style s => if isBare expected tag style then read s else none
  | _ => none

/-- An unsigned number of 64 bits. -/
def uint64? (n : Node) : Option UInt64 := d.bare? "int" unsignedOf? n

/-- An unsigned number of 32 bits. -/
def uint32? (n : Node) : Option UInt32 := do
  let v ← d.uint64? n
  if v.toNat < UInt32.size then some (UInt32.ofNat v.toNat) else none

/-- A floating-point number. -/
def float? (n : Node) : Option Float := d.bare? "float" floatOf? n

/-- A truth value. -/
def bool? (n : Node) : Option Bool := d.bare? "bool" boolOf? n

/-- The word of an enumeration: the text of a scalar, or a local tag on nothing. -/
def word? (n : Node) : Option String :=
  match d.resolve n with
  | .scalar (some tag) style s =>
    match tag.toList with
    | '!' :: rest =>
      if style = .plain && (s.isEmpty || isNullWord s) then
        some (if rest.isEmpty then tag else String.ofList rest)
      else none
    | _ => some s
  | .scalar none _ s => some s
  | _ => none

/-- Whether a node is nothing at all. -/
def isNothing (n : Node) : Bool :=
  match d.resolve n with
  | .scalar _ style s => style = .plain && s.isEmpty
  | _ => false

/-- The items of a list. -/
def items? (n : Node) : Option (List Node) :=
  if d.isNothing n then some []
  else match d.resolve n with
    | .sequence _ items => some items
    | _ => none

/-- The list of values that a reader finds in the items. -/
def list? {α : Type} (read : Node → Option α) (n : Node) : Option (List α) := do
  (← d.items? n).mapM read

/-- The values of a record's fields in the order of `names`. Keys are scalars; a name stands at
most once among them, and other keys are passed over. -/
def fields? (names : List String) (n : Node) : Option (List (Option Node)) :=
  if d.isNothing n then some (names.map fun _ => none)
  else match d.resolve n with
    | .mapping _ entries => do
      let keyed ← entries.mapM fun (key, v) => return (← d.text? key, v)
      if names.all fun name => (keyed.filter (·.1 == name)).length ≤ 1 then
        some (names.map (keyed.lookup ·))
      else none
    | _ => none

/-- A field that has a default. -/
def withDefault? {α : Type} (default : α) (read : Node → Option α) : Option Node → Option α
  | none => some default
  | some n => read n

/-- A field that may be absent, empty or null. -/
def optional? {α : Type} (read : Node → Option α) : Option Node → Option (Option α)
  | none => some none
  | some n =>
    match d.resolve n with
    | .scalar tag .plain s =>
      match tag with
      | some tag =>
        if tag = "tag:yaml.org,2002:null" then if isNullWord s then some none else none
        else (read n).map some
      | none => if s.isEmpty || isNullWord s then some none else (read n).map some
    | _ => (read n).map some

end Document

end BuildWorker.Yaml
