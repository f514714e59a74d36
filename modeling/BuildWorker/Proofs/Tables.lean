import Mathlib.Data.List.Nodup

/-!
# Tables

A table is a list of pairs in which the first pair of a key counts. Items that are only ever added
at the end are told by their positions.
-/

namespace BuildWorker

variable {α β : Type} [BEq α] [LawfulBEq α] {table : List (α × β)} {a : α} {b : β}

theorem mem_of_lookup (h : table.lookup a = some b) : (a, b) ∈ table := by
  obtain ⟨before, after, eq, -⟩ := List.lookup_eq_some_iff.1 h
  rw [eq]
  exact List.mem_append_right _ List.mem_cons_self

/-- When no key stands twice, every pair counts. -/
theorem lookup_eq_some_iff_mem (distinct : (table.map Prod.fst).Nodup) :
    table.lookup a = some b ↔ (a, b) ∈ table := by
  refine ⟨mem_of_lookup, fun mem => ?_⟩
  obtain ⟨before, after, eq⟩ := List.append_of_mem mem
  refine List.lookup_eq_some_iff.2 ⟨before, after, eq, fun pair there => ?_⟩
  rw [eq, List.map_append, List.map_cons] at distinct
  have apart : pair.1 ≠ a :=
    (List.nodup_append.1 distinct).2.2 pair.1 (List.mem_map_of_mem there) a List.mem_cons_self
  exact bne_iff_ne.2 apart.symm

/-- With an item more, a position holds what it held, or it is the last one and holds the item. -/
theorem getElem?_concat_eq_some {items : List β} {b c : β} {i : Nat} :
    (items ++ [b])[i]? = some c ↔ items[i]? = some c ∨ i = items.length ∧ c = b := by
  grind

end BuildWorker
