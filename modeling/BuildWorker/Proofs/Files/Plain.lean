import BuildWorker.Files.Lookup
import BuildWorker.Proofs.Tables
import BuildWorker.Proofs.Text.Utf8

/-!
# Plain file trees

A plain file tree is made of regular files and directories, with names that a disk can give and
that are text (`FileTree.IsPlain`). Sorting the entries of such a tree moves nothing
(`FileTree.IsPlain.at?_sorted`), and what a path leads to is there (`FileTree.find_at?`).
-/

namespace BuildWorker

/-! ### Names -/

instance : LawfulBEq FileName where
  eq_of_beq h := ByteArray.ext (eq_of_beq h)
  rfl {name} := beq_self_eq_true name.data

/-- A name that the entry of a directory can have, and that is text. -/
structure FileName.IsOrdinary (name : FileName) : Prop where
  valid : name.IsValidUTF8
  ne_empty : name.data.toList ≠ []
  /-- It is not too long. -/
  within : name.size ≤ FileTree.longestName
  /-- It holds no slash. -/
  slash : 0x2F ∉ name.data.toList
  /-- It holds no zero byte. -/
  zero : 0 ∉ name.data.toList
  /-- It does not mean to stay. -/
  ne_dot : name ≠ FileTree.dot
  /-- It does not mean to go up. -/
  ne_dots : name ≠ FileTree.dot ++ FileTree.dot

/-- The bytes of the text of an ordinary name are the name. -/
theorem FileName.IsOrdinary.toUTF8_text {name : FileName} (h : name.IsOrdinary) :
    name.text.toUTF8 = name := by
  change (Text.Utf8.lossy (String.ofByteArray name h.valid).toByteArray).toUTF8 = name
  rw [Text.Utf8.lossy_toByteArray]
  rfl

/-- The text of the bytes of a text is the text. -/
theorem FileName.text_toUTF8 (s : String) : FileName.text s.toUTF8 = s :=
  Text.Utf8.lossy_toByteArray s

namespace FileTree

/-! ### Plain trees -/

/-- Regular files and directories, all under ordinary names. -/
inductive IsPlain : FileTree → Prop
  /-- A regular file. -/
  | file (content : ByteArray) (mode : Nat) : IsPlain (.file content mode)
  /-- A directory of plain entries with distinct names. -/
  | directory (entries : List (FileName × FileTree)) (distinct : (entries.map Prod.fst).Nodup)
      (named : ∀ e ∈ entries, e.1.IsOrdinary) (plain : ∀ e ∈ entries, IsPlain e.2) :
      IsPlain (.directory entries)

theorem IsPlain.empty : IsPlain empty := .directory [] List.nodup_nil nofun nofun

/-! ### Places -/

theorem at?_append (t : FileTree) (p q : Place) : t.at? (p ++ q) = (t.at? p).bind (·.at? q) := by
  induction p generalizing t with
  | nil => rfl
  | cons name p ih =>
      change (t.entry? name).bind (fun u => u.at? (p ++ q)) =
        ((t.entry? name).bind (fun u => u.at? p)).bind _
      rw [Option.bind_assoc]
      exact congrArg _ (funext ih)

theorem at?_directory (entries : List (FileName × FileTree)) (name : FileName) (rest : Place) :
    (directory entries).at? (name :: rest) = (entries.lookup name).bind (·.at? rest) := rfl

/-- What a directory lists under a name is what the name leads to from its place. -/
theorem at?_entry {top : FileTree} {place : Place} {entries : List (FileName × FileTree)}
    (here : top.at? place = some (.directory entries)) (name : FileName) :
    top.at? (place ++ [name]) = entries.lookup name := by
  rw [at?_append, here]
  show (entries.lookup name).bind some = _
  exact Option.bind_fun_some _

/-! ### Sorting -/

theorem sortedEntries_eq_map (entries : List (FileName × FileTree)) :
    sortedEntries entries = entries.map fun e => (e.1, e.2.sorted) := by
  induction entries with
  | nil => rfl
  | cons e entries ih =>
      obtain ⟨name, t⟩ := e
      rw [sortedEntries, ih, List.map_cons]

/-- The entries of a sorted directory, in order. -/
def orderedEntries (entries : List (FileName × FileTree)) : List (FileName × FileTree) :=
  Directory.sortByName (·.1.text) (sortedEntries entries)

theorem sorted_directory (entries : List (FileName × FileTree)) :
    (directory entries).sorted = .directory (orderedEntries entries) := by
  rw [sorted, orderedEntries]

@[simp] theorem isDirectory_sorted (t : FileTree) : t.sorted.isDirectory = t.isDirectory := by
  cases t <;> rfl

theorem orderedEntries_perm (entries : List (FileName × FileTree)) :
    (orderedEntries entries).Perm (entries.map fun e => (e.1, e.2.sorted)) := by
  rw [orderedEntries, sortedEntries_eq_map]
  exact List.mergeSort_perm _ _

theorem mem_orderedEntries {entries : List (FileName × FileTree)} {name : FileName}
    {u : FileTree} :
    (name, u) ∈ orderedEntries entries ↔ ∃ t, (name, t) ∈ entries ∧ t.sorted = u := by
  rw [(orderedEntries_perm entries).mem_iff, List.mem_map]
  constructor
  · rintro ⟨⟨n, t⟩, mem, eq⟩
    obtain ⟨rfl, rfl⟩ := Prod.mk.inj eq
    exact ⟨t, mem, rfl⟩
  · rintro ⟨t, mem, rfl⟩
    exact ⟨(name, t), mem, rfl⟩

/-- What holds of all entries, each sorted, holds of the entries in order. -/
theorem forall_orderedEntries {P : FileName × FileTree → Prop}
    {entries : List (FileName × FileTree)} (h : ∀ e ∈ entries, P (e.1, e.2.sorted)) :
    ∀ e ∈ orderedEntries entries, P e := by
  intro e mem
  obtain ⟨t, there, sorted⟩ := mem_orderedEntries.1 mem
  rw [show e = (e.1, t.sorted) from Prod.ext rfl sorted.symm]
  exact h (e.1, t) there

theorem orderedEntries_nodup {entries : List (FileName × FileTree)}
    (distinct : (entries.map Prod.fst).Nodup) : ((orderedEntries entries).map Prod.fst).Nodup := by
  rw [((orderedEntries_perm entries).map Prod.fst).nodup_iff, List.map_map]
  exact distinct

theorem IsPlain.sorted {t : FileTree} (h : t.IsPlain) : t.sorted.IsPlain := by
  induction h with
  | file content mode => exact .file content mode
  | directory entries distinct named _ ih =>
      rw [sorted_directory]
      exact .directory _ (orderedEntries_nodup distinct)
        (forall_orderedEntries (P := fun e => e.1.IsOrdinary) named)
        (forall_orderedEntries (P := fun e => e.2.IsPlain) ih)

/-- Sorting moves nothing. -/
theorem IsPlain.at?_sorted {t : FileTree} (h : t.IsPlain) (place : Place) :
    t.sorted.at? place = (t.at? place).map FileTree.sorted := by
  induction place generalizing t with
  | nil => rfl
  | cons name rest ih =>
      cases h with
      | file content mode => rfl
      | directory entries distinct named plain =>
          rw [sorted_directory, at?_directory, at?_directory]
          -- Names are distinct, so the order in which entries stand does not matter to a lookup.
          have lookup : (orderedEntries entries).lookup name =
              (entries.lookup name).map FileTree.sorted := by
            apply Option.ext
            intro u
            rw [lookup_eq_some_iff_mem (orderedEntries_nodup distinct), mem_orderedEntries,
              Option.map_eq_some_iff]
            simp only [lookup_eq_some_iff_mem distinct]
          rw [lookup]
          cases found : entries.lookup name with
          | none => rfl
          | some t => exact ih (plain _ ((lookup_eq_some_iff_mem distinct).1 found))

/-! ### Looking up -/

theorem followNames_at? {top : FileTree}
    {atLink : Place → ByteArray → List FileName → Except LookupError Target}
    (links : ∀ place target rest p node,
      atLink place target rest = .ok (.found p node) → top.at? p = some node)
    {place p : Place} {names : List FileName} {node : FileTree}
    (h : followNames top atLink place names = .ok (.found p node)) : top.at? p = some node := by
  induction names generalizing place with
  | nil =>
      unfold followNames at h
      split at h
      next here =>
        cases h
        exact here
      next => cases h
  | cons name rest ih =>
      unfold followNames at h
      split at h
      · split at h
        · exact ih h
        split at h
        · exact ih h
        split at h
        · cases h
        split at h
        · split at h <;> cases h
        · exact links _ _ _ _ _ h
        · exact ih h
      · cases h
      · cases h

theorem follow_at? {top : FileTree} {links : Nat} {place p : Place} {names : List FileName}
    {node : FileTree} (h : follow top links place names = .ok (.found p node)) :
    top.at? p = some node := by
  induction links generalizing place p names node with
  | zero =>
      refine followNames_at? (fun place target rest p node found => ?_) h
      cases found
  | succ links ih =>
      refine followNames_at? (fun place target rest p node found => ?_) h
      split at found
      · cases found
      · exact ih found

/-- What is looked up is there, apart from the unknown directory above the top. -/
theorem find_at? {top : FileTree} {place p : Place} {path : ByteArray} {node : FileTree}
    (h : top.find place path = .ok (some (p, node))) : node = empty ∨ top.at? p = some node := by
  unfold find at h
  split at h
  next found =>
    cases h
    unfold lookup at found
    dsimp only at found
    split at found
    · cases found
    split at found
    · cases found
    split at found
    · split at found
      · cases found
        exact .inl rfl
      · cases found
    · exact .inr (follow_at? found)
  all_goals cases h

end FileTree

end BuildWorker
