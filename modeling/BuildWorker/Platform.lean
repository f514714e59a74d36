import BuildWorker.Json.Message

/-!
# Platforms and execution policies

A platform is a list of name and value pairs. A worker's platform *satisfies* a requirement when
it holds every pair that is required; a name may have several values.

An execution policy is a program that wraps the commands it is applied to. A worker advertises
each of its policies as a pair of its platform, so that a unit of work can require one.
-/

namespace BuildWorker

/-- A name with a value. -/
structure Property where
  /-- What is described, such as an operating system. -/
  name : String
  /-- How it is described. -/
  value : String
  deriving DecidableEq, Repr

/-- The properties of a worker, or those that a unit of work requires. -/
structure Platform where
  /-- The properties in the order in which they were added. -/
  properties : List Property := []
  deriving DecidableEq, Repr

/-- A program put in front of a command. -/
structure Wrapper where
  /-- The program. -/
  path : String
  /-- The arguments before the command. -/
  arguments : List String := []
  deriving DecidableEq, Repr

/-- A named way to execute commands. -/
structure ExecutionPolicy where
  /-- The name that a requirement uses. -/
  name : String
  /-- The program that applies the policy, if it needs one. -/
  wrapper : Option Wrapper := none
  deriving DecidableEq, Repr

namespace Platform

/-- The platform without properties. -/
def empty : Platform := {}

/-- Add a property at the end unless exactly that one is there. -/
def add (p : Platform) (property : Property) : Platform :=
  if property ∈ p.properties then p else ⟨p.properties ++ [property]⟩

/-- The platform of some pairs, without repetitions. -/
def ofPairs (pairs : List (String × String)) : Platform :=
  pairs.foldl (fun p (name, value) => p.add ⟨name, value⟩) empty

/-- Whether a property is there. -/
def contains (p : Platform) (name value : String) : Bool := ⟨name, value⟩ ∈ p.properties

/-- Whether every required property is there. -/
def satisfies (p requirement : Platform) : Bool :=
  requirement.properties.all fun r => p.contains r.name r.value

/-- The name under which policies are advertised. -/
def policyProperty : String := "execution-policy"

/-- Advertise execution policies. -/
def advertise (p : Platform) (policies : List ExecutionPolicy) : Platform :=
  policies.foldl (fun p policy => p.add ⟨policyProperty, policy.name⟩) p

/-- The form shown to users. -/
def display (p : Platform) : String :=
  let pairs := p.properties.map fun property => property.name ++ ": " ++ property.value
  "\x7b" ++ ", ".intercalate pairs ++ "\x7d"

theorem contains_iff {p : Platform} {name value : String} :
    p.contains name value ↔ ⟨name, value⟩ ∈ p.properties := by
  simp [contains]

theorem satisfies_iff {p requirement : Platform} :
    p.satisfies requirement ↔ ∀ r ∈ requirement.properties, r ∈ p.properties := by
  simp [satisfies, contains]

theorem mem_add {p : Platform} {a b : Property} :
    b ∈ (p.add a).properties ↔ b = a ∨ b ∈ p.properties := by
  unfold add
  split <;> simp_all [or_comm]

end Platform

instance : Message Property where
  toJson p := .record [("name", toJson p.name), ("value", toJson p.value)]
  ofJson? j := do
    let [name, value] ← Message.fields? ["name", "value"] j | none
    return ⟨← Message.required? name, ← Message.required? value⟩

instance : Message Platform where
  toJson p := .record [("properties", toJson p.properties)]
  ofJson? j := do
    let [properties] ← Message.fields? ["properties"] j | none
    return ⟨← Message.withDefault? [] properties⟩

instance : Message Wrapper where
  toJson w := .record [("path", toJson w.path), ("arguments", toJson w.arguments)]
  ofJson? j := do
    let [path, arguments] ← Message.fields? ["path", "arguments"] j | none
    return ⟨← Message.required? path, ← Message.withDefault? [] arguments⟩

instance : Message ExecutionPolicy where
  toJson p := .record (("name", toJson p.name) :: Message.whenSome "wrapper" p.wrapper)
  ofJson? j := do
    let [name, wrapper] ← Message.fields? ["name", "wrapper"] j | none
    return ⟨← Message.required? name, ← Message.optional? wrapper⟩

end BuildWorker
