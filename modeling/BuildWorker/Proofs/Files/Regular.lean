import BuildWorker.Proofs.Files.Plain

/-!
# Regular file trees and plain paths

A regular file tree is made of regular files and directories, with names that a disk can give
(`FileTree.IsRegular`). They need not be text. A plain path is names with slashes between them
(`FileTree.Spells`), however long they are.

Where there are no links, a plain path leads to where its names lead, or to nothing if there is
nothing, unless there is a fault with it (`FileTree.fault?`): it is too long, it leads through
something that is no directory, or it asks a directory for a name that is too long. A path with a
fault cannot be looked up (`FileTree.find_plain`).
-/

namespace BuildWorker

/-! ### Names and paths -/

/-- A name that stands for itself in a path. -/
structure FileName.IsPlain (name : FileName) : Prop where
  ne_empty : name.data.toList ≠ []
  /-- It holds no slash. -/
  slash : 0x2F ∉ name.data.toList
  /-- It holds no zero byte. -/
  zero : 0 ∉ name.data.toList
  /-- It does not mean to stay. -/
  ne_dot : name ≠ FileTree.dot
  /-- It does not mean to go up. -/
  ne_dots : name ≠ FileTree.dot ++ FileTree.dot

/-- A name that the entry of a directory can have. -/
structure FileName.IsUsable (name : FileName) : Prop extends name.IsPlain where
  /-- It is not too long. -/
  within : name.size ≤ FileTree.longestName

theorem FileName.IsOrdinary.isUsable {name : FileName} (h : name.IsOrdinary) : name.IsUsable :=
  ⟨⟨h.ne_empty, h.slash, h.zero, h.ne_dot, h.ne_dots⟩, h.within⟩

theorem FileName.IsPlain.isEmpty {name : FileName} (h : name.IsPlain) : name.isEmpty = false := by
  rw [ByteArray.isEmpty, beq_eq_false_iff_ne, ← ByteArray.size_data, ← Array.length_toList]
  exact mt List.length_eq_zero_iff.1 h.ne_empty

namespace FileTree

/-- A path that consists of names with slashes between them. -/
structure Spells (path : ByteArray) (names : Place) : Prop where
  plain : ∀ name ∈ names, name.IsPlain
  bytes_eq : path.data.toList = [0x2F].intercalate (names.map (·.data.toList))

/-- A name spells itself. -/
theorem Spells.single {name : FileName} (h : name.IsPlain) : Spells name [name] :=
  ⟨List.forall_mem_singleton.2 h, by simp⟩

theorem cut_eq_splitOn (bytes : List UInt8) : cut bytes = bytes.splitOn 0x2F := by
  induction bytes with
  | nil => rfl
  | cons b rest ih =>
      have step : (b :: rest).splitOn 0x2F =
          if b = 0x2F then [] :: rest.splitOn 0x2F
          else (rest.splitOn 0x2F).modifyHead (List.cons b) := by
        simp [List.splitOn, List.splitOnP_cons_eq_if_modifyHead]
      have nonempty : rest.splitOn 0x2F ≠ [] := List.splitOnP_ne_nil _ _
      rw [cut, ih, step]
      cases split : rest.splitOn 0x2F with
      | nil => exact absurd split nonempty
      | cons name names => rfl

theorem mem_intercalate {α : Type} {sep a : α} {lists : List (List α)}
    (h : a ∈ [sep].intercalate lists) : a = sep ∨ ∃ l ∈ lists, a ∈ l := by
  induction lists with
  | nil => simp at h
  | cons l rest ih =>
      cases rest with
      | nil =>
          simp at h
          simp [h]
      | cons l' rest =>
          rw [List.intercalate_cons_cons] at h
          simp at h ih ⊢
          tauto

variable {path : ByteArray} {names : Place}

theorem Spells.zero (h : Spells path names) : 0 ∉ path.data.toList := by
  rw [h.bytes_eq]
  intro mem
  rcases mem_intercalate mem with slash | ⟨bytes, listed, mem⟩
  · cases slash
  · obtain ⟨name, among, rfl⟩ := List.mem_map.1 listed
    exact (h.plain name among).zero mem

/-- What starts with a name does not start with a slash. -/
theorem Spells.relative (h : Spells path names) : path.data.toList.head? ≠ some 0x2F := by
  rw [h.bytes_eq]
  cases names with
  | nil => simp
  | cons name rest =>
      obtain ⟨nonempty, slash, -⟩ := h.plain name List.mem_cons_self
      obtain ⟨b, bytes, spelled⟩ := List.exists_cons_of_ne_nil nonempty
      rw [spelled] at slash
      cases rest <;> simp_all [List.intercalate_cons_cons, eq_comm]

/-- Cutting a path at its slashes gives the names that spell it. -/
theorem Spells.cut_eq (h : Spells path names) (nonempty : names ≠ []) :
    (cut path.data.toList).map (fun name => name.toByteArray) = names := by
  have slashes : ∀ bytes ∈ names.map (·.data.toList), 0x2F ∉ bytes := by
    intro bytes listed
    obtain ⟨name, among, rfl⟩ := List.mem_map.1 listed
    exact (h.plain name among).slash
  rw [h.bytes_eq, cut_eq_splitOn, List.splitOn_intercalate _ slashes (by simpa using nonempty),
    List.map_map]
  simp [Function.comp_def, Text.Utf8.toByteArray_toList]

/-- The steps of a path that is spelled by names are the names. -/
theorem Spells.steps_eq (h : Spells path names) : steps path = names := by
  rcases List.eq_nil_or_concat' names with rfl | ⟨init, last, rfl⟩
  · have empty : path = .empty := ByteArray.ext (Array.toList_inj.1 h.bytes_eq)
    rw [empty]
    rfl
  have pieces := h.cut_eq (by simp)
  have filled : last.isEmpty = false := (h.plain last (by simp)).isEmpty
  have nonempty : path.isEmpty = false := by
    by_contra empty
    have empty : path = .empty := by simpa [ByteArray.isEmpty] using empty
    -- Cutting nothing gives an empty name, and the names are not empty.
    rw [empty] at pieces
    cases init with
    | nil =>
        cases pieces
        cases filled
    | cons name init => simp [cut] at pieces
  have kept : init.filter (fun name => !name.isEmpty) = init := by
    rw [List.filter_eq_self]
    intro name among
    simp [(h.plain name (by simp [among])).isEmpty]
  simp [steps, pieces, nonempty, filled, kept]

/-! ### Regular trees -/

/-- Regular files and directories, all under names that a disk can give. -/
inductive IsRegular : FileTree → Prop
  /-- A regular file. -/
  | file (content : ByteArray) (mode : Nat) : IsRegular (.file content mode)
  /-- A directory of regular entries with distinct names. -/
  | directory (entries : List (FileName × FileTree)) (distinct : (entries.map Prod.fst).Nodup)
      (named : ∀ e ∈ entries, e.1.IsUsable) (regular : ∀ e ∈ entries, IsRegular e.2) :
      IsRegular (.directory entries)

theorem IsPlain.isRegular {t : FileTree} (h : t.IsPlain) : t.IsRegular := by
  induction h with
  | file content mode => exact .file content mode
  | directory entries distinct named _ ih =>
      exact .directory entries distinct (fun e mem => (named e mem).isUsable) ih

section

variable {entries : List (FileName × FileTree)}

theorem IsRegular.distinct (h : (FileTree.directory entries).IsRegular) :
    (entries.map Prod.fst).Nodup := by
  cases h
  assumption

theorem IsRegular.named (h : (FileTree.directory entries).IsRegular) :
    ∀ e ∈ entries, e.1.IsUsable := by
  cases h
  assumption

theorem IsRegular.inner (h : (FileTree.directory entries).IsRegular) :
    ∀ e ∈ entries, e.2.IsRegular := by
  cases h
  assumption

end

theorem IsRegular.at? {t u : FileTree} {place : Place} (h : t.IsRegular)
    (there : t.at? place = some u) : u.IsRegular := by
  induction place generalizing t with
  | nil =>
      cases there
      exact h
  | cons name rest ih =>
      cases h with
      | file content mode => cases there
      | directory entries distinct named regular =>
          rw [at?_directory, Option.bind_eq_some_iff] at there
          obtain ⟨inner, found, there⟩ := there
          exact ih (regular _ (mem_of_lookup found)) there

/-! ### Trees without links -/

/-- Files without symbolic links among them. -/
inductive IsLinkless : FileTree → Prop
  /-- A regular file. -/
  | file (content : ByteArray) (mode : Nat) : IsLinkless (.file content mode)
  /-- A directory of entries without links. -/
  | directory (entries : List (FileName × FileTree)) (linkless : ∀ e ∈ entries, IsLinkless e.2) :
      IsLinkless (.directory entries)
  /-- A special file. -/
  | special : IsLinkless .special

theorem IsRegular.isLinkless {t : FileTree} (h : t.IsRegular) : t.IsLinkless := by
  induction h with
  | file content mode => exact .file content mode
  | directory entries _ _ _ ih => exact .directory entries ih

/-- Why names cannot be followed, if they cannot: they lead through something that is no directory,
or a directory is asked for a name that is too long. Where there is nothing, nothing is asked. -/
def blocked? (t : FileTree) : Place → Option LookupError
  | [] => none
  | name :: rest =>
    if t.isDirectory = false then some .notDirectory
    else if longestName < name.size then some .tooLong
    else (t.entry? name).bind (blocked? · rest)

theorem blocked?_directory (entries : List (FileName × FileTree)) (name : FileName)
    (rest : Place) : (directory entries).blocked? (name :: rest) =
      if longestName < name.size then some .tooLong
      else (entries.lookup name).bind (blocked? · rest) := rfl

/-- Names can be followed when all that they lead through are directories, and none of these is
asked for a name that is too long. -/
theorem blocked?_eq_none_iff {t : FileTree} {names : Place} : t.blocked? names = none ↔
    ∀ init name rest u, init ++ name :: rest = names → t.at? init = some u →
      u.isDirectory = true ∧ name.size ≤ longestName := by
  induction names generalizing t with
  | nil => simp [blocked?]
  | cons first names ih =>
      rw [blocked?]
      constructor
      · intro free init name rest u split there
        split_ifs at free with none_ long
        cases init with
        | nil =>
            obtain ⟨rfl, -⟩ := List.cons.inj split
            cases there
            exact ⟨Bool.not_eq_false _ ▸ none_, Nat.not_lt.1 long⟩
        | cons n init =>
            obtain ⟨rfl, tail⟩ := List.cons.inj split
            obtain ⟨v, found, there⟩ := Option.bind_eq_some_iff.1 there
            rw [found] at free
            exact ih.1 free init name rest u tail there
      · intro all
        obtain ⟨isDirectory, within⟩ := all [] first names t rfl rfl
        rw [if_neg (by simp [isDirectory]), if_neg (Nat.not_lt.2 within)]
        cases found : t.entry? first with
        | none => rfl
        | some v =>
            refine ih.2 fun init name rest u split there => ?_
            refine all (first :: init) name rest u (congrArg (first :: ·) split) ?_
            rw [at?, found]
            exact there

/-- What a lookup comes to: a place and what is there, or nothing. -/
def reached : Except LookupError Target → Except LookupError (Option (Place × FileTree))
  | .ok (.found place node) => .ok (some (place, node))
  | .ok (.free _) | .error .missing => .ok none
  | .error e => .error e

variable {top t : FileTree} {place : Place}

/-- Where there are no links, names are followed as far as they lead through directories. -/
theorem followNames_linkless
    (atLink : Place → ByteArray → List FileName → Except LookupError Target)
    (here : top.at? place = some t) (linkless : t.IsLinkless)
    (plain : ∀ name ∈ names, name.IsPlain) :
    reached (followNames top atLink place names) =
      match t.blocked? names with
      | some e => .error e
      | none => .ok ((t.at? names).map fun node => (place ++ names, node)) := by
  induction names generalizing place t with
  | nil => simp [followNames, here, reached, at?, blocked?]
  | cons name rest ih =>
      rw [followNames, here]
      cases linkless with
      | file | special => rfl
      | directory entries linkless =>
          obtain ⟨-, -, -, ne_dot, ne_dots⟩ := plain name List.mem_cons_self
          rw [at?_directory, blocked?_directory]
          simp only [if_neg ne_dot, if_neg ne_dots]
          by_cases long : longestName < name.size
          · rw [if_pos long, if_pos long]
            rfl
          rw [if_neg long, if_neg long]
          cases found : entries.lookup name with
          | none => cases rest <;> rfl
          | some u =>
              have linkless : u.IsLinkless := linkless _ (mem_of_lookup found)
              have below : top.at? (place ++ [name]) = some u := (at?_entry here name).trans found
              have there := ih below linkless fun name mem =>
                plain name (List.mem_cons_of_mem _ mem)
              rw [List.append_assoc, List.singleton_append] at there
              cases linkless with
              | file | directory | special => exact there

/-- Where there are no links, a path that is not too long leads to where its names lead, unless they
cannot be followed. -/
theorem find_linkless (here : top.at? place = some t) (linkless : t.IsLinkless)
    (spells : Spells path names) (within : path.size ≤ longestPath) :
    top.find place path =
      match t.blocked? names with
      | some e => .error e
      | none => .ok ((t.at? names).map fun node => (place ++ names, node)) := by
  have followed : reached (top.follow mostLinks place names) = _ :=
    followNames_linkless _ here linkless spells.plain
  show reached (top.lookup place path) = _
  rw [lookup]
  simp only [List.contains_eq_mem, spells.zero, decide_false, Bool.false_eq_true, if_false,
    if_neg (Nat.not_lt.2 within), if_neg spells.relative, spells.steps_eq]
  exact followed

/-- A name alone leads to the entry of that name. -/
theorem find_entry {entries : List (FileName × FileTree)} {name : FileName}
    (here : top.at? place = some (.directory entries)) (regular : (directory entries).IsRegular)
    (mem : (name, t) ∈ entries) : top.find place name = .ok (some (place ++ [name], t)) := by
  obtain ⟨plain, within⟩ := regular.named _ mem
  have found : entries.lookup name = some t := (lookup_eq_some_iff_mem regular.distinct).2 mem
  rw [find_linkless here regular.isLinkless (.single plain) (Nat.le_trans within (by decide)),
    blocked?_directory, if_neg (Nat.not_lt.2 within), at?_directory, found]
  rfl

end FileTree

/-! ### Plain paths -/

/-- A relative path made of plain names. -/
structure PlainPath where
  text : String
  names : FileTree.Place
  spells : FileTree.Spells text.toUTF8 names

/-- The path that consists of a name alone. -/
def PlainPath.single (text : String) (plain : FileName.IsPlain text.toUTF8) : PlainPath :=
  ⟨text, [text.toUTF8], .single plain⟩

/-- Why a path cannot be looked up, if it cannot: it is too long as a whole, or its names cannot be
followed. -/
def FileTree.fault? (t : FileTree) (p : PlainPath) : Option LookupError :=
  if longestPath < p.text.toUTF8.size then some .tooLong else t.blocked? p.names

/-- There is no fault with a path that is not too long, if all that it leads through are
directories, and none of these is asked for a name that is too long. -/
theorem FileTree.fault?_eq_none_iff {t : FileTree} {p : PlainPath} : t.fault? p = none ↔
    p.text.toUTF8.size ≤ longestPath ∧
    ∀ init name rest u, init ++ name :: rest = p.names → t.at? init = some u →
      u.isDirectory = true ∧ name.size ≤ longestName := by
  rw [fault?, ← blocked?_eq_none_iff]
  split
  next long => exact ⟨nofun, fun h => absurd h.1 (Nat.not_le.2 long)⟩
  next within => exact (and_iff_right (Nat.not_lt.1 within)).symm

/-- Where there are no links, a path leads to where its names lead unless there is a fault. -/
theorem FileTree.find_plain {top t : FileTree} {place : Place} (here : top.at? place = some t)
    (linkless : t.IsLinkless) (p : PlainPath) :
    top.find place p.text.toUTF8 =
      match t.fault? p with
      | some e => .error e
      | none => .ok ((t.at? p.names).map fun node => (place ++ p.names, node)) := by
  by_cases within : p.text.toUTF8.size ≤ longestPath
  · rw [fault?, if_neg (Nat.not_lt.2 within)]
    exact find_linkless here linkless p.spells within
  · have long := Nat.lt_of_not_le within
    rw [fault?, if_pos long, find, lookup]
    simp only [List.contains_eq_mem, p.spells.zero, decide_false, Bool.false_eq_true, if_false,
      if_pos long]

end BuildWorker
