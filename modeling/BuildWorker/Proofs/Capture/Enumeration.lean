import BuildWorker.Proofs.Capture.Errands
import BuildWorker.Proofs.Directory.Order
import BuildWorker.Proofs.Files.Plain

/-!
# Captures and the order of directories

A disk lists the entries of a directory in whatever order it likes, and the orders of two
directories have nothing to do with each other. Two trees are enumerations of the same files if
each directory lists the same names, perhaps in another order, and this holds again of what stands
under each name (`FileTree.Reordered`).

Such trees are one when their entries are sorted (`FileTree.Reordered.sorted_eq`), as long as the
names of a directory are distinct texts: a sorted list without ties has only one order. Paths lead
to the same places in both (`FileTree.Reordered.find`). So the errands of a capture are the same
list, and the capture ends the same, with the same result and the same store
(`Depot.captureOutputs_reordered`).
-/

namespace BuildWorker

/-- A valid name is told by its text. -/
theorem FileName.text_inj {a b : FileName} (validA : a.IsValidUTF8) (validB : b.IsValidUTF8)
    (same : a.text = b.text) : a = b := by
  have textA : a.text = String.ofByteArray a validA := text_toUTF8 (String.ofByteArray a validA)
  have textB : b.text = String.ofByteArray b validB := text_toUTF8 (String.ofByteArray b validB)
  exact congrArg String.toByteArray (textA.symm.trans (same.trans textB))

namespace FileTree

/-! ### Enumerations of the same files -/

/-- Files under names that are texts, distinct within a directory. -/
inductive IsNamed : FileTree → Prop
  /-- A regular file. -/
  | file (content : ByteArray) (mode : Nat) : IsNamed (.file content mode)
  /-- A directory. -/
  | directory {entries : List (FileName × FileTree)} (distinct : (entries.map Prod.fst).Nodup)
      (valid : ∀ e ∈ entries, e.1.IsValidUTF8) (named : ∀ e ∈ entries, IsNamed e.2) :
      IsNamed (.directory entries)
  /-- A symbolic link. -/
  | link (target : ByteArray) : IsNamed (.link target)
  /-- A special file. -/
  | special : IsNamed .special

/-- The same files, with the entries of each directory perhaps in another order. -/
inductive Reordered : FileTree → FileTree → Prop
  /-- A regular file. -/
  | file (content : ByteArray) (mode : Nat) : Reordered (.file content mode) (.file content mode)
  /-- A directory with the same names, under each of which are the same files. -/
  | directory {entries others : List (FileName × FileTree)}
      (names : (entries.map Prod.fst).Perm (others.map Prod.fst))
      (below : ∀ name t u, (name, t) ∈ entries → (name, u) ∈ others → Reordered t u) :
      Reordered (.directory entries) (.directory others)
  /-- A symbolic link. -/
  | link (target : ByteArray) : Reordered (.link target) (.link target)
  /-- A special file. -/
  | special : Reordered .special .special

theorem IsPlain.isNamed {t : FileTree} (plain : t.IsPlain) : t.IsNamed := by
  induction plain with
  | file content mode => exact .file content mode
  | directory entries distinct ordinary _ ih =>
      exact .directory distinct (fun e mem => (ordinary e mem).valid) ih

/-- What one directory lists, another with the same names lists. -/
theorem exists_of_names {entries others : List (FileName × FileTree)}
    (names : (entries.map Prod.fst).Perm (others.map Prod.fst)) {name : FileName} {t : FileTree}
    (mem : (name, t) ∈ entries) : ∃ u, (name, u) ∈ others := by
  have listed : name ∈ others.map Prod.fst := names.mem_iff.1 (List.mem_map_of_mem mem)
  obtain ⟨⟨_, u⟩, there, rfl⟩ := List.mem_map.1 listed
  exact ⟨u, there⟩

section

variable {t u : FileTree}

theorem IsNamed.refl (named : t.IsNamed) : t.Reordered t := by
  induction named with
  | file content mode => exact .file content mode
  | link target => exact .link target
  | special => exact .special
  | directory distinct _ _ ih =>
      refine .directory (.refl _) fun name t u mem there => ?_
      -- Names are distinct, so what stands under a name is one tree.
      have one : t = u := by
        rw [← lookup_eq_some_iff_mem distinct] at mem there
        exact Option.some.inj (mem.symm.trans there)
      exact one ▸ ih (name, t) mem

/-- Listing the entries of a directory in another order. -/
theorem Reordered.of_perm {entries others : List (FileName × FileTree)}
    (perm : entries.Perm others) (named : IsNamed (.directory entries)) :
    Reordered (.directory entries) (.directory others) := by
  obtain - | ⟨names, below⟩ := named.refl
  exact .directory (perm.map _) fun name t u mem there => below name t u mem (perm.mem_iff.2 there)

theorem Reordered.isNamed (h : t.Reordered u) (named : t.IsNamed) : u.IsNamed := by
  induction h with
  | file | link | special => exact named
  | directory names _ ih =>
      obtain - | ⟨distinct, valid, named⟩ := named
      refine .directory (names.nodup_iff.1 distinct) ?_ ?_
      · rintro ⟨name, u⟩ there
        obtain ⟨t, mem⟩ := exists_of_names names.symm there
        exact valid (name, t) mem
      · rintro ⟨name, u⟩ there
        obtain ⟨t, mem⟩ := exists_of_names names.symm there
        exact ih name t u mem there (named (name, t) mem)

theorem IsNamed.of_at? {place : Place} (named : t.IsNamed) (found : t.at? place = some u) :
    u.IsNamed := by
  induction place generalizing t with
  | nil =>
      cases found
      exact named
  | cons name rest ih =>
      cases named with
      | file | link | special => cases found
      | directory _ _ named =>
          rw [at?_directory, Option.bind_eq_some_iff] at found
          obtain ⟨inner, listed, found⟩ := found
          exact ih (named _ (mem_of_lookup listed)) found

/-! ### Sorting -/

theorem orderedEntries_pairwise (entries : List (FileName × FileTree)) :
    (orderedEntries entries).Pairwise fun a b => a.1.text ≤ b.1.text :=
  Directory.sortByName_pairwise (fun e : FileName × FileTree => e.1.text) (sortedEntries entries)

theorem IsNamed.sorted (named : t.IsNamed) : t.sorted.IsNamed := by
  induction named with
  | file content mode => exact .file content mode
  | link target => exact .link target
  | special => exact .special
  | directory distinct valid _ ih =>
      rw [sorted_directory]
      exact .directory (orderedEntries_nodup distinct)
        (forall_orderedEntries (P := fun e => e.1.IsValidUTF8) valid)
        (forall_orderedEntries (P := fun e => e.2.IsNamed) ih)

/-- **Sorted, two enumerations are one.** -/
theorem Reordered.sorted_eq (h : t.Reordered u) (named : t.IsNamed) : t.sorted = u.sorted := by
  induction h with
  | file | link | special => rfl
  | @directory entries others names below ih =>
      have named' := (Reordered.directory names below).isNamed named
      obtain - | ⟨distinct, valid, named⟩ := named
      obtain - | ⟨distinct', -, -⟩ := named'
      have nodup {l : List (FileName × FileTree)} (distinct : (l.map Prod.fst).Nodup) :
          (orderedEntries l).Nodup := (orderedEntries_nodup distinct).of_map _
      have same (name : FileName) (v : FileTree) :
          (name, v) ∈ orderedEntries entries ↔ (name, v) ∈ orderedEntries others := by
        rw [mem_orderedEntries, mem_orderedEntries]
        constructor
        · rintro ⟨t, mem, rfl⟩
          obtain ⟨u, there⟩ := exists_of_names names mem
          exact ⟨u, there, (ih name t u mem there (named _ mem)).symm⟩
        · rintro ⟨u, there, rfl⟩
          obtain ⟨t, mem⟩ := exists_of_names names.symm there
          exact ⟨t, mem, ih name t u mem there (named _ mem)⟩
      have perm : (orderedEntries entries).Perm (orderedEntries others) :=
        (List.perm_ext_iff_of_nodup (nodup distinct) (nodup distinct')).2 fun e => same e.1 e.2
      -- Entries that neither precedes have one text, so one name, so they are one.
      have antisymm (a b : FileName × FileTree) (memA : a ∈ orderedEntries entries)
          (memB : b ∈ orderedEntries others) (ab : a.1.text ≤ b.1.text)
          (ba : b.1.text ≤ a.1.text) : a = b := by
        have memB := (same b.1 b.2).2 memB
        obtain ⟨s, thereA, -⟩ := mem_orderedEntries.1 memA
        obtain ⟨t, thereB, -⟩ := mem_orderedEntries.1 memB
        have name : a.1 = b.1 :=
          FileName.text_inj (valid (a.1, s) thereA) (valid (b.1, t) thereB)
            (String.le_antisymm ab ba)
        have tree : a.2 = b.2 := by
          have lookupA := (lookup_eq_some_iff_mem (orderedEntries_nodup distinct)).2 memA
          have lookupB := (lookup_eq_some_iff_mem (orderedEntries_nodup distinct)).2 memB
          rw [name, lookupB] at lookupA
          exact (Option.some.inj lookupA).symm
        exact Prod.ext name tree
      rw [sorted_directory, sorted_directory,
        perm.eq_of_pairwise antisymm (orderedEntries_pairwise _) (orderedEntries_pairwise _)]

/-! ### Places and paths -/

/-- Under a name, both directories list the same files or nothing. -/
theorem Reordered.lookup_rel {entries others : List (FileName × FileTree)}
    (names : (entries.map Prod.fst).Perm (others.map Prod.fst))
    (below : ∀ name t u, (name, t) ∈ entries → (name, u) ∈ others → Reordered t u)
    (distinct : (entries.map Prod.fst).Nodup) (name : FileName) :
    Option.Rel Reordered (entries.lookup name) (others.lookup name) := by
  have distinct' := names.nodup_iff.1 distinct
  cases here : entries.lookup name with
  | some t =>
      have mem := mem_of_lookup here
      obtain ⟨u, there⟩ := exists_of_names names mem
      rw [(lookup_eq_some_iff_mem distinct').2 there]
      exact .some (below name t u mem there)
  | none =>
      cases there : others.lookup name with
      | none => exact .none
      | some u =>
          obtain ⟨t, mem⟩ := exists_of_names names.symm (mem_of_lookup there)
          rw [(lookup_eq_some_iff_mem distinct).2 mem] at here
          cases here

/-- At a place, both trees have the same files or nothing. -/
theorem Reordered.at? (h : t.Reordered u) (named : t.IsNamed) (place : Place) :
    Option.Rel Reordered (t.at? place) (u.at? place) := by
  induction place generalizing t u with
  | nil => exact .some h
  | cons name rest ih =>
      cases h with
      | file | link | special => exact .none
      | @directory entries others names below =>
          obtain - | ⟨distinct, -, inner⟩ := named
          have found := lookup_rel names below distinct name
          rw [at?_directory, at?_directory]
          cases here : entries.lookup name <;> cases there : others.lookup name <;>
            rw [here, there] at found <;> cases found
          case none.none => exact .none
          case some.some t u same => exact ih same (inner _ (mem_of_lookup here))

end

/-- Two ends of a path that differ in the order of entries at most. -/
inductive Target.Alike : Except LookupError Target → Except LookupError Target → Prop
  | found (place : Place) {t u : FileTree} (same : t.Reordered u) :
      Alike (.ok (.found place t)) (.ok (.found place u))
  | free (place : Place) : Alike (.ok (.free place)) (.ok (.free place))
  | error (e : LookupError) : Alike (.error e) (.error e)

/-- Two findings that are named and differ in the order of entries at most. -/
inductive FoundAlike : Except LookupError (Option (Place × FileTree)) →
    Except LookupError (Option (Place × FileTree)) → Prop
  | node (place : Place) {t u : FileTree} (named : t.IsNamed) (same : t.Reordered u) :
      FoundAlike (.ok (some (place, t))) (.ok (some (place, u)))
  | nothing : FoundAlike (.ok none) (.ok none)
  | error (e : LookupError) : FoundAlike (.error e) (.error e)

section

variable {top top' : FileTree}

theorem Reordered.followNames (h : top.Reordered top') (named : top.IsNamed)
    {atLink atLink' : Place → ByteArray → List FileName → Except LookupError Target}
    (links : ∀ place target rest,
      Target.Alike (atLink place target rest) (atLink' place target rest))
    (place : Place) (names : List FileName) :
    Target.Alike (top.followNames atLink place names) (top'.followNames atLink' place names) := by
  induction names generalizing place with
  | nil =>
      have node := h.at? named place
      unfold FileTree.followNames
      cases here : top.at? place <;> cases there : top'.at? place <;>
        rw [here, there] at node <;> cases node
      case none.none => exact .error _
      case some.some t u same => exact .found place same
  | cons name rest ih =>
      have node := h.at? named place
      unfold FileTree.followNames
      cases here : top.at? place <;> cases there : top'.at? place <;>
        rw [here, there] at node <;> cases node
      case none.none => exact .error _
      case some.some t u same =>
        cases same with
        | file | link | special => exact .error _
        | @directory entries others =>
            dsimp only
            split
            · exact ih place
            split
            · exact ih place.dropLast
            split
            · exact .error _
            have entry := h.at? named (place ++ [name])
            rw [at?_entry here, at?_entry there] at entry
            cases listed : entries.lookup name <;> cases listed' : others.lookup name <;>
              rw [listed, listed'] at entry <;> cases entry
            case none.none =>
              dsimp only
              split
              · exact .free _
              · exact .error _
            case some.some t u same =>
              cases same with
              | link target => exact links place target rest
              | file | special | directory => exact ih (place ++ [name])

theorem Reordered.follow (h : top.Reordered top') (named : top.IsNamed) (links : Nat)
    (place : Place) (names : List FileName) :
    Target.Alike (top.follow links place names) (top'.follow links place names) := by
  induction links generalizing place names with
  | zero => exact h.followNames named (fun _ _ _ => .error _) place names
  | succ links ih =>
      refine h.followNames named (fun place target rest => ?_) place names
      split
      · exact .error _
      · exact ih place (steps target ++ rest)

theorem Reordered.lookup (h : top.Reordered top') (named : top.IsNamed) (place : Place)
    (path : ByteArray) : Target.Alike (top.lookup place path) (top'.lookup place path) := by
  unfold FileTree.lookup
  dsimp only
  split
  · exact .error _
  split
  · exact .error _
  split
  · split
    · exact .found [] IsPlain.empty.isNamed.refl
    · exact .error _
  · exact h.follow named mostLinks place (steps path)

/-- **Paths lead to the same places.** -/
theorem Reordered.find (h : top.Reordered top') (named : top.IsNamed) (place : Place)
    (path : ByteArray) : FoundAlike (top.find place path) (top'.find place path) := by
  have ends := h.lookup named place path
  have leads (p : Place) (t : FileTree) (found : top.lookup place path = .ok (.found p t)) :
      t.IsNamed := by
    have found : top.find place path = .ok (some (p, t)) := by rw [FileTree.find, found]
    rcases find_at? found with rfl | there
    · exact IsPlain.empty.isNamed
    · exact named.of_at? there
  unfold FileTree.find
  generalize top.lookup place path = here at ends leads
  generalize top'.lookup place path = there at ends
  cases ends with
  | found place same => exact .node place (leads _ _ rfl) same
  | free place => exact .nothing
  | error e =>
      cases e with
      | missing => exact .nothing
      | notDirectory | tooLong | tooManyLinks | invalid => exact .error _

/-! ### Errands -/

open Capture

mutual

/-- A walk has the same errands. -/
theorem Reordered.errands_eq (h : top.Reordered top') (named : top.IsNamed) (place : Place) :
    ∀ t : FileTree, top.errands place t = top'.errands place t
  | .directory entries => by
      rw [errands, errands, Reordered.entryErrands_eq h named place entries]
  | .file _ _ => by rw [errands, errands] <;> exact nofun
  | .link _ => by rw [errands, errands] <;> exact nofun
  | .special => by rw [errands, errands] <;> exact nofun

theorem Reordered.entryErrands_eq (h : top.Reordered top') (named : top.IsNamed) (place : Place) :
    ∀ entries : List (FileName × FileTree),
      top.entryErrands place entries = top'.entryErrands place entries
  | [] => rfl
  | (name, t) :: rest => by
      have found := h.find named place name
      rw [entryErrands, entryErrands, Reordered.entryErrands_eq h named place rest,
        Reordered.errands_eq h named (place ++ [name]) t]
      generalize top.find place name = here at found
      generalize top'.find place name = there at found
      rcases found with ⟨_, _, _ | _ | _ | _⟩ | _ | _ <;> rfl

end

mutual

/-- A walk captures the same listings. -/
theorem Reordered.captured_eq (h : top.Reordered top') (named : top.IsNamed) (place : Place) :
    ∀ t : FileTree, top.captured place t = top'.captured place t
  | .directory entries => by
      rw [captured, captured, Reordered.capturedEntries_eq h named place entries]
  | .file _ _ => by rw [captured, captured] <;> exact nofun
  | .link _ => by rw [captured, captured] <;> exact nofun
  | .special => by rw [captured, captured] <;> exact nofun

theorem Reordered.capturedEntries_eq (h : top.Reordered top') (named : top.IsNamed)
    (place : Place) : ∀ entries : List (FileName × FileTree),
      top.capturedEntries place entries = top'.capturedEntries place entries
  | [] => rfl
  | (name, t) :: rest => by
      have found := h.find named place name
      rw [capturedEntries, capturedEntries, Reordered.capturedEntries_eq h named place rest,
        Reordered.captured_eq h named (place ++ [name]) t]
      generalize top.find place name = here at found
      generalize top'.find place name = there at found
      rcases found with ⟨_, _, _ | _ | _ | _⟩ | _ | _ <;> rfl

end

theorem Reordered.fileErrands_eq (h : top.Reordered top') (named : top.IsNamed) (root : Place)
    (path : String) : top.fileErrands root path = top'.fileErrands root path := by
  have found := h.find named root path.toUTF8
  unfold fileErrands
  generalize top.find root path.toUTF8 = here at found
  generalize top'.find root path.toUTF8 = there at found
  rcases found with ⟨_, _, _ | _ | _ | _⟩ | _ | _ <;> rfl

/-- A declared directory is captured as the same listings. -/
theorem Reordered.outputDirectory?_eq (h : top.Reordered top') (named : top.IsNamed)
    (root : Place) (path : String) :
    top.outputDirectory? root path = top'.outputDirectory? root path := by
  have found := h.find named root path.toUTF8
  unfold outputDirectory?
  generalize top.find root path.toUTF8 = here at found
  generalize top'.find root path.toUTF8 = there at found
  rcases found with ⟨place, named', same⟩ | _ | _
  case node =>
    cases same with
    | file | link | special => rfl
    | directory names below =>
        dsimp only
        rw [h.captured_eq named, (Reordered.directory names below).sorted_eq named']
  all_goals rfl

theorem Reordered.directoryErrands_eq (h : top.Reordered top') (named : top.IsNamed)
    (root : Place) (path : String) :
    top.directoryErrands root path = top'.directoryErrands root path := by
  have found := h.find named root path.toUTF8
  unfold directoryErrands
  generalize top.find root path.toUTF8 = here at found
  generalize top'.find root path.toUTF8 = there at found
  rcases found with ⟨place, named', same⟩ | _ | _
  case node =>
    cases same with
    | file | link | special => rfl
    | directory names below =>
        dsimp only
        rw [h.captured_eq named, h.errands_eq named,
          (Reordered.directory names below).sorted_eq named']
  all_goals rfl

/-- **A capture has the same errands in the same order.** -/
theorem Reordered.outputErrands_eq (h : top.Reordered top') (named : top.IsNamed) (root : Place)
    (files directories : List String) :
    top.outputErrands root files directories = top'.outputErrands root files directories := by
  rw [outputErrands, outputErrands, funext (h.fileErrands_eq named root),
    funext (h.directoryErrands_eq named root)]

end

end FileTree

namespace Depot

/-- **A capture does not depend on the order in which directories are listed.** On two
enumerations of the same files, it ends the same, with the same violations in the same order, leaves
the same result, with the same digests of trees, and the same depot. The listings that it makes of a
declared directory, and so the text of its tree, are the same as well. -/
theorem captureOutputs_reordered {top top' : FileTree} (named : top.IsNamed)
    (reordered : top.Reordered top') (d : Depot) (settings : CaptureSettings)
    (root : FileTree.Place) (action : Digest) (result : ActionResult)
    (files directories : List String) :
    d.captureOutputs settings top root action result files directories =
        d.captureOutputs settings top' root action result files directories ∧
      ∀ path ∈ directories, top.outputDirectory? root path = top'.outputDirectory? root path := by
  refine ⟨?_, fun path _ => reordered.outputDirectory?_eq named root path⟩
  rw [Capture.captureOutputs_eq, Capture.captureOutputs_eq,
    reordered.outputErrands_eq named root files directories]

/-- A file and a link to it, as a directory lists them. -/
def sampleEntries : List (FileName × FileTree) :=
  [("d".toUTF8, .link "c".toUTF8), ("c".toUTF8, .file "2".toUTF8 0o755)]

/-- A disk with a file and the directory. -/
def sampleListing : FileTree :=
  .directory [("b".toUTF8, .file "1".toUTF8 0o644), ("a".toUTF8, .directory sampleEntries)]

/-- The same files, with both directories listed backwards. -/
def sampleBackwards : FileTree :=
  .directory [("a".toUTF8, .directory sampleEntries.reverse), ("b".toUTF8, .file "1".toUTF8 0o644)]

theorem sampleEntries_named : FileTree.IsNamed (.directory sampleEntries) := by
  refine .directory (by decide +kernel) (by decide +kernel) ?_
  rintro _ (_ | ⟨_, _ | ⟨_, _ | _⟩⟩)
  · exact .link _
  · exact .file _ _

theorem sampleListing_named : sampleListing.IsNamed := by
  refine .directory (by decide +kernel) (by decide +kernel) ?_
  rintro _ (_ | ⟨_, _ | ⟨_, _ | _⟩⟩)
  · exact .file _ _
  · exact sampleEntries_named

theorem sampleListing_backwards : sampleListing.Reordered sampleBackwards := by
  refine .directory (by decide +kernel) ?_
  rintro name t u (_ | ⟨_, _ | ⟨_, _ | _⟩⟩) (_ | ⟨_, _ | ⟨_, _ | _⟩⟩)
  · exact .file _ _
  · exact .of_perm sampleEntries.reverse_perm.symm sampleEntries_named

/-- Both are captured into a new store. -/
theorem sampleListing_captured :
    (ofStore (.ofLimit 0)).captureOutputs {} sampleListing [] .empty {} ["b"] ["."] =
      (ofStore (.ofLimit 0)).captureOutputs {} sampleBackwards [] .empty {} ["b"] ["."] ∧
    sampleListing.outputDirectory? [] "." = sampleBackwards.outputDirectory? [] "." := by
  obtain ⟨same, listings⟩ := captureOutputs_reordered sampleListing_named sampleListing_backwards
    (ofStore (.ofLimit 0)) {} [] .empty {} ["b"] ["."]
  exact ⟨same, listings "." (List.mem_singleton_self _)⟩

end Depot

end BuildWorker
