import BuildWorker.Json.Basic

/-!
# Looking into values

Loose access to the members of a value: what is not there, or is of another kind, is a default.
-/

namespace BuildWorker.Json

/-- The value under a key, or null. -/
def get (j : Json) (key : String) : Json := (j.field? key).getD .null

/-- Whether there is a value other than null under a key. -/
def has (j : Json) (key : String) : Bool :=
  match j.field? key with
  | none | some .null => false
  | some _ => true

/-- The integer of a value. -/
def toIntD (j : Json) (default : Int) : Int :=
  match j with
  | .number n => n.toInt?.getD default
  | _ => default

/-- The text of a value, or the empty text. -/
def toText (j : Json) : String := j.text?.getD ""

/-- The text under a key, or the empty text. -/
def textAt (j : Json) (key : String) : String := (j.get key).toText

/-- The natural number under a key; a negative one counts as zero. -/
def natAt (j : Json) (key : String) (default : Nat) : Nat := ((j.get key).toIntD default).toNat

/-- The truth value under a key. -/
def boolAt (j : Json) (key : String) (default : Bool) : Bool :=
  match j.get key with
  | .bool b => b
  | _ => default

/-- The items of the array under a key. -/
def listAt (j : Json) (key : String) : List Json := (j.get key).items?.getD []

/-- The texts of the array under a key. -/
def textsAt (j : Json) (key : String) : List String := (j.listAt key).map toText

end BuildWorker.Json
