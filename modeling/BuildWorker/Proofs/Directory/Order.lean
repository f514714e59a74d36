import BuildWorker.Directory
import BuildWorker.Proofs.Text.Utf8
import Mathlib.Data.List.Nodup
import Mathlib.Data.String.Basic

/-!
# Listings in order

A directory that is listed from entries with distinct names has its files in strict order, and its
subdirectories as well (`Directory.ofEntries_isOrdered`). Names are sorted by code point, which is
the order of their bytes.
-/

namespace BuildWorker.Directory

section

variable {α : Type} {name : α → String} {items : List α}

theorem sortByName_pairwise (name : α → String) (items : List α) :
    (sortByName name items).Pairwise fun a b => name a ≤ name b := by
  have sorted := @List.pairwise_mergeSort α (fun a b => decide (¬ name b < name a))
    (fun a b c ab bc => by
      rw [decide_eq_true_eq, String.not_lt] at *
      exact String.le_trans ab bc)
    (fun a b => by
      simp only [Bool.or_eq_true, decide_eq_true_eq, String.not_lt]
      exact String.le_total (name a) (name b))
    items
  exact sorted.imp fun before => String.not_lt.1 (of_decide_eq_true before)

theorem mem_sortByName {a : α} : a ∈ sortByName name items ↔ a ∈ items :=
  List.mem_mergeSort

theorem sortByName_perm (name : α → String) (items : List α) :
    (sortByName name items).Perm items :=
  List.mergeSort_perm _ _

/-- Distinct names are in strict order. -/
theorem sortByName_increasing (distinct : (items.map name).Nodup) :
    (sortByName name items).Pairwise fun a b => name a < name b := by
  have apart : (sortByName name items).Pairwise fun a b => name a ≠ name b :=
    List.pairwise_map.1 (((sortByName_perm name items).map name).nodup_iff.2 distinct)
  exact (sortByName_pairwise name items).imp₂ (fun _ _ le ne => lt_of_le_of_ne le ne) apart

/-- Distinct names are in strict order byte by byte. -/
theorem sortByName_strict (distinct : (items.map name).Nodup) :
    (sortByName name items).Pairwise fun a b =>
      (name a).toUTF8.data.toList < (name b).toUTF8.data.toList :=
  (sortByName_increasing distinct).imp Text.Utf8.toUTF8_lt

/-- What is in strict order is how its items are sorted. -/
theorem sortByName_eq {sorted : List α} (perm : items.Perm sorted)
    (strict : sorted.Pairwise fun a b => name a < name b) : sortByName name items = sorted := by
  have perm : (sortByName name items).Perm sorted := (sortByName_perm name items).trans perm
  have distinct : (sorted.map name).Nodup := List.pairwise_map.2 (strict.imp ne_of_lt)
  refine perm.eq_of_pairwise (fun a b memA memB ab ba => ?_) (sortByName_pairwise name items)
    (strict.imp le_of_lt)
  exact List.inj_on_of_nodup_map distinct (perm.mem_iff.1 memA) memB (String.le_antisymm ab ba)

/-- Items with distinct names are sorted alike when and only when they are the same items. -/
theorem sortByName_eq_iff_perm {others : List α} (distinct : (others.map name).Nodup) :
    sortByName name items = sortByName name others ↔ items.Perm others := by
  constructor
  · intro same
    have perm := (sortByName_perm name items).symm
    rw [same] at perm
    exact perm.trans (sortByName_perm name others)
  · intro perm
    exact sortByName_eq (perm.trans (sortByName_perm name others).symm)
      (sortByName_increasing distinct)

end

/-- The files and the subdirectories are in strict order of the bytes of their names, and no name
is that of a file and of a subdirectory. -/
structure IsOrdered (d : Directory) : Prop where
  files : d.files.Pairwise fun a b => a.name.toUTF8.data.toList < b.name.toUTF8.data.toList
  directories :
    d.directories.Pairwise fun a b => a.name.toUTF8.data.toList < b.name.toUTF8.data.toList
  apart : ∀ f ∈ d.files, ∀ n ∈ d.directories, f.name ≠ n.name

theorem ofEntries_isOrdered {files : List FileNode} {directories : List DirectoryNode}
    (distinct : (files.map FileNode.name ++ directories.map DirectoryNode.name).Nodup) :
    (ofEntries files directories).IsOrdered := by
  obtain ⟨ofFiles, ofDirectories, apart⟩ := List.nodup_append.1 distinct
  refine ⟨sortByName_strict ofFiles, sortByName_strict ofDirectories, fun f memF n memN => ?_⟩
  exact apart _ (List.mem_map_of_mem (mem_sortByName.1 memF)) _
    (List.mem_map_of_mem (mem_sortByName.1 memN))

end BuildWorker.Directory
