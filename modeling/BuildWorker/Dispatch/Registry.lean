import BuildWorker.Action

/-!
# The registry of claimed units

A worker remembers the units of work that it has claimed, so that it never claims one twice. A
unit is known by its operation's name: a second entry of a name is turned away, whatever else it
says.
-/

namespace BuildWorker

/-- The claimed units by name, the latest first. -/
structure Registry where
  /-- The units. -/
  entries : List (String × QueueEntry) := []

namespace Registry

/-- The unit of a name. -/
def get? (r : Registry) (name : String) : Option QueueEntry := r.entries.lookup name

/-- Whether a unit of a name is claimed. -/
def contains (r : Registry) (name : String) : Bool := (r.get? name).isSome

/-- How many units are claimed. -/
def size (r : Registry) : Nat := r.entries.length

/-- Claim a unit. -/
def insert (r : Registry) (e : QueueEntry) : Registry := ⟨(e.name, e) :: r.entries⟩

/-- Claim a unit unless one of its name is claimed. -/
def insertNew? (r : Registry) (e : QueueEntry) : Option Registry :=
  if r.contains e.name then none else some (r.insert e)

/-- Forget the unit of a name. -/
def erase (r : Registry) (name : String) : Registry := ⟨r.entries.filter (·.1 != name)⟩

@[simp] theorem get?_insert (r : Registry) (e : QueueEntry) (name : String) :
    (r.insert e).get? name = if name = e.name then some e else r.get? name := by
  by_cases h : name = e.name
  · simp [get?, insert, h]
  · have hb : (name == e.name) = false := by simpa using h
    simp [get?, insert, List.lookup_cons, h, hb]

@[simp] theorem get?_erase (r : Registry) (name other : String) :
    (r.erase name).get? other = if other = name then none else r.get? other := by
  obtain ⟨entries⟩ := r
  induction entries with
  | nil => simp [get?, erase]
  | cons p rest ih =>
    obtain ⟨k, e⟩ := p
    simp only [get?, erase] at ih
    by_cases hk : k = name
    · subst hk
      by_cases h : other = k
      · subst h
        simpa [get?, erase] using ih
      · have hb : (other == k) = false := by simpa using h
        simpa [get?, erase, List.lookup_cons, h, hb] using ih
    · have hkb : (k != name) = true := by simpa using hk
      by_cases h : other = k
      · subst h
        simp [get?, erase, hk]
      · have hb : (other == k) = false := by simpa using h
        simpa [get?, erase, List.filter, hkb, List.lookup_cons, hb] using ih

end Registry

end BuildWorker
