import BuildWorker.Proofs.Capture.Enumeration
import BuildWorker.Proofs.Capture.Running
import BuildWorker.Proofs.Directory.Order
import Mathlib.Data.List.Perm.Subperm

/-!
# The tree of an output directory is closed

The tree that is stored for an output directory has all directories below it and no other, each of
them once (`Capture.outputDirectory_closed`). Its children stand in the order in which a descent
first comes to them, so each of them is referred to by the root or by a child before it
(`Tree.IsClosed`).

Keeping one directory of each digest drops directories whose parents are kept, and parents whose
directories are kept elsewhere. That every child is still referred to is therefore proved of the
list before anything is dropped (`Referenced`), and dropping a directory that is already known
keeps it (`Referenced.filter`).

How the entries of a directory add up to a listing is said once, by `CapturedEntries.Assembled`.
What is true of the listing and of those below it is proved by induction on that.
-/

namespace BuildWorker

/-! ### Closed trees -/

/-- Whether a directory lists a subdirectory with the digest of another. -/
def Directory.Refers (d child : Directory) : Prop :=
  ∃ n ∈ d.directories, n.digest = child.digest

/-- A tree in which every reference resolves and that has nothing else. -/
structure Tree.IsClosed (t : Tree) : Prop where
  /-- A subdirectory that is listed is found, and what is found has its digest. -/
  resolves : ∀ d ∈ t.root :: t.children, ∀ n ∈ d.directories,
    ∃ child ∈ t.children, t.findChild? n.digest = some child ∧ child.digest = n.digest
  distinct : (t.children.map Directory.digest).Nodup
  /-- The root or a child before it refers to a child. -/
  referenced : ∀ before child after, t.children = before ++ child :: after →
    ∃ d ∈ t.root :: before, d.Refers child
  ordered : ∀ d ∈ t.root :: t.children, d.IsOrdered

/-! ### Directories after those that refer to them -/

/-- Directories each of which is referred to by a known one or by one before it. -/
inductive Referenced : List Directory → List Directory → Prop
  | nil (known : List Directory) : Referenced known []
  | cons {known rest : List Directory} {k d : Directory} (mem : k ∈ known) (refers : k.Refers d)
      (later : Referenced (d :: known) rest) : Referenced known (d :: rest)

namespace Referenced

variable {known others list list' : List Directory}

theorem mono (h : Referenced known list) (sub : known ⊆ others) : Referenced others list := by
  induction h generalizing others with
  | nil => exact .nil others
  | cons mem refers _ ih => exact .cons (sub mem) refers (ih (List.cons_subset_cons _ sub))

theorem append (h : Referenced known list) (h' : Referenced known list') :
    Referenced known (list ++ list') := by
  induction h with
  | nil => exact h'
  | cons mem refers _ ih =>
      exact .cons mem refers (ih (h'.mono (List.subset_cons_self _ _)))

/-- Known directories can be dropped: what they refer to is still referred to by them. -/
theorem filter {keep : Directory → Bool} (h : Referenced known list)
    (dropped : ∀ d ∈ list, keep d = false → d ∈ known) : Referenced known (list.filter keep) := by
  induction h with
  | nil => exact .nil _
  | @cons known rest k d mem refers _ ih =>
      rw [List.forall_mem_cons] at dropped
      obtain ⟨here, dropped⟩ := dropped
      have rest := ih fun e there drop => List.mem_cons_of_mem _ (dropped e there drop)
      cases kept : keep d with
      | true =>
          rw [List.filter_cons_of_pos kept]
          exact .cons mem refers rest
      | false =>
          rw [List.filter_cons_of_neg (Bool.eq_false_iff.1 kept)]
          exact rest.mono (List.cons_subset.2 ⟨here kept, List.Subset.refl _⟩)

/-- Of directories that occur again, the first can be kept. -/
theorem eraseDups {known list : List Directory} (h : Referenced known list) :
    Referenced known list.eraseDups := by
  cases h with
  | nil => exact .nil known
  | @cons _ rest k d mem refers later =>
      rw [List.eraseDups_cons]
      have kept : Referenced (d :: known) (rest.filter fun e => !e == d) :=
        later.filter fun e _ drop => List.mem_cons.2 (.inl (by simpa using drop))
      exact .cons mem refers (eraseDups kept)
termination_by list.length
decreasing_by
  exact Nat.lt_succ_of_le (List.length_filter_le _ _)

theorem exists_refers (h : Referenced known list) {before after : List Directory}
    {child : Directory} (split : list = before ++ child :: after) :
    ∃ d ∈ known ++ before, d.Refers child := by
  induction h generalizing before with
  | nil => simp at split
  | @cons known rest k d mem refers _ ih =>
      cases before with
      | nil =>
          obtain ⟨rfl, -⟩ := List.cons.inj split
          exact ⟨k, List.mem_append_left _ mem, refers⟩
      | cons first before =>
          obtain ⟨rfl, rest⟩ := List.cons.inj split
          obtain ⟨e, known, refers⟩ := ih rest
          refine ⟨e, ?_, refers⟩
          simp only [List.mem_append, List.mem_cons] at known ⊢
          tauto

end Referenced

/-! ### What a listing is made of -/

namespace CapturedEntries

/-- Entries of some names that add up to captured entries. -/
inductive Assembled : List String → CapturedEntries → Prop
  | nil : Assembled [] {}
  /-- An entry that is passed over. -/
  | skip (name : String) {names : List String} {e : CapturedEntries} (others : Assembled names e) :
      Assembled (name :: names) e
  | file (f : FileNode) {names : List String} {e : CapturedEntries} (others : Assembled names e) :
      Assembled (f.name :: names) { e with files := f :: e.files }
  /-- A directory whose entries have distinct names. -/
  | directory (name : String) {names inner : List String} {e child : CapturedEntries}
      (distinct : inner.Nodup) (below : Assembled inner child) (others : Assembled names e) :
      Assembled (name :: names) { e with
        directories := ⟨name, child.close.digest⟩ :: e.directories
        descendants := (child.close.digest, child.close.directory) :: child.descendants ++
          e.descendants }

namespace Assembled

variable {names : List String} {e : CapturedEntries}

/-- The captured entries have names of their own. -/
theorem subperm (h : Assembled names e) :
    (e.files.map FileNode.name ++ e.directories.map DirectoryNode.name).Subperm names := by
  induction h with
  | nil => exact .refl _
  | skip name _ ih => exact ih.trans (List.sublist_cons_self _ _).subperm
  | file f _ ih => exact (List.subperm_cons _).2 ih
  | directory name _ _ _ _ ih =>
      exact List.perm_middle.subperm.trans ((List.subperm_cons _).2 ih)

theorem isOrdered (h : Assembled names e) (distinct : names.Nodup) :
    e.close.directory.IsOrdered := by
  obtain ⟨own, perm, sublist⟩ := h.subperm
  exact Directory.ofEntries_isOrdered (perm.nodup_iff.1 (distinct.sublist sublist))

theorem isOrdered_below (h : Assembled names e) : ∀ x ∈ e.descendants, x.2.IsOrdered := by
  induction h with
  | nil => nofun
  | skip _ _ ih | file _ _ ih => exact ih
  | directory name distinct below _ inner ih =>
      simp only [List.cons_append, List.forall_mem_cons, List.forall_mem_append]
      exact ⟨below.isOrdered distinct, inner, ih⟩

/-- Every directory below goes with the digest of its listing. -/
theorem own (h : Assembled names e) : ∀ x ∈ e.descendants, x.1 = x.2.digest := by
  induction h with
  | nil => nofun
  | skip _ _ ih | file _ _ ih => exact ih
  | directory name _ _ _ inner ih =>
      simp only [List.cons_append, List.forall_mem_cons, List.forall_mem_append]
      exact ⟨rfl, inner, ih⟩

theorem mem_directories_close {n : DirectoryNode} :
    n ∈ e.close.directory.directories ↔ n ∈ e.directories :=
  Directory.mem_sortByName

/-- A subdirectory that is listed is below. -/
theorem listed (h : Assembled names e) :
    ∀ n ∈ e.directories, n.digest ∈ e.descendants.map Prod.fst := by
  induction h with
  | nil => nofun
  | skip _ _ ih | file _ _ ih => exact ih
  | directory name _ _ _ _ ih =>
      rw [List.forall_mem_cons]
      simp only [List.cons_append, List.map_cons, List.map_append, List.mem_cons, List.mem_append]
      exact ⟨.inl trivial, fun n mem => .inr (.inr (ih n mem))⟩

/-- So is one that is listed by a directory below. -/
theorem listed_below (h : Assembled names e) : ∀ x ∈ e.descendants, ∀ n ∈ x.2.directories,
    n.digest ∈ e.descendants.map Prod.fst := by
  induction h with
  | nil => nofun
  | skip _ _ ih | file _ _ ih => exact ih
  | directory name _ below _ inner ih =>
      rw [List.cons_append, List.forall_mem_cons, List.forall_mem_append]
      simp only [List.map_cons, List.map_append, List.mem_cons, List.mem_append]
      refine ⟨fun n mem => ?_, fun x mem n listed => ?_, fun x mem n listed => ?_⟩
      · exact .inr (.inl (below.listed n (mem_directories_close.1 mem)))
      · exact .inr (.inl (inner x mem n listed))
      · exact .inr (.inr (ih x mem n listed))

/-- Each directory below is referred to by the one that lists the entries or by one before it. -/
theorem referenced (h : Assembled names e) {known : List Directory} {k : Directory}
    (mem : k ∈ known) (lists : ∀ n ∈ e.directories, n ∈ k.directories) :
    Referenced known (e.descendants.map Prod.snd) := by
  induction h generalizing known k with
  | nil => exact .nil known
  | skip _ _ ih | file _ _ ih => exact ih mem lists
  | @directory name _ _ e child _ _ _ inner ih =>
      rw [List.forall_mem_cons] at lists
      obtain ⟨this, others⟩ := lists
      rw [List.cons_append, List.map_cons, List.map_append]
      have below : Referenced (child.close.directory :: known) (child.descendants.map Prod.snd) :=
        inner List.mem_cons_self fun n listed => mem_directories_close.2 listed
      exact .cons mem ⟨_, this, rfl⟩ (below.append (ih (List.mem_cons_of_mem _ mem) others))

theorem isClosed (h : Assembled names e) (distinct : names.Nodup)
    (digested : Digested e.descendants) : e.close.tree.IsClosed := by
  have mem_children {d : Directory} :
      d ∈ e.close.tree.children ↔ d ∈ e.descendants.map Prod.snd := digested.mem_kept
  have root : Referenced [e.close.directory] (e.descendants.map Prod.snd) :=
    h.referenced List.mem_cons_self fun n listed => mem_directories_close.2 listed
  constructor
  case resolves =>
    intro d mem n listed
    have below : n.digest ∈ e.descendants.map Prod.fst := by
      rcases List.mem_cons.1 mem with rfl | mem
      · exact h.listed n (mem_directories_close.1 listed)
      · obtain ⟨x, there, rfl⟩ := List.mem_map.1 (mem_children.1 mem)
        exact h.listed_below x there n listed
    obtain ⟨x, there, same⟩ := List.mem_map.1 below
    have kept : x.2 ∈ e.close.tree.children := mem_children.2 (List.mem_map_of_mem there)
    rw [h.own x there] at same
    exact ⟨x.2, kept, same ▸ Tree.findChild?_digest digested.nodup_kept kept, same⟩
  case distinct => exact digested.nodup_kept
  case referenced =>
    intro before child after split
    exact root.eraseDups.exists_refers (digested.kept_eq.symm.trans split)
  case ordered =>
    intro d mem
    rcases List.mem_cons.1 mem with rfl | mem
    · exact h.isOrdered distinct
    · obtain ⟨x, there, rfl⟩ := List.mem_map.1 (mem_children.1 mem)
      exact h.isOrdered_below x there

end Assembled

end CapturedEntries

/-! ### What is captured of a directory -/

namespace FileTree

mutual

/-- The directories below one at a place, each before those below it. -/
def descendants (place : Place) : FileTree → List (Place × FileTree)
  | .directory entries => entryDescendants place entries
  | _ => []

/-- The directories among entries of the directory at a place, each before those below it. -/
def entryDescendants (place : Place) : List (FileName × FileTree) → List (Place × FileTree)
  | [] => []
  | (name, t) :: rest =>
    (if t.isDirectory then (place ++ [name], t) :: descendants (place ++ [name]) t else []) ++
      entryDescendants place rest

end

/-- The listing of a directory at a place, as it is captured. -/
def listing (top : FileTree) (place : Place) (t : FileTree) : Directory :=
  (top.captured place t).directory

/-- The listings of the directories below one at a place, each before those below it. -/
def listings (top : FileTree) (place : Place) (t : FileTree) : List Directory :=
  (t.descendants place).map fun x => top.listing x.1 x.2

section

variable {top : FileTree}

mutual

theorem descendants_captured (place : Place) : ∀ t : FileTree,
    (top.captured place t).descendants.map Prod.snd = top.listings place t
  | .directory entries => by
      rw [captured, listings, descendants]
      exact descendants_capturedEntries place entries
  | .file _ _ | .link _ | .special => by
      rw [captured, listings, descendants]
      · rfl
      · nofun
      · nofun

theorem descendants_capturedEntries (place : Place) : ∀ entries : List (FileName × FileTree),
    (top.capturedEntries place entries).descendants.map Prod.snd =
      (entryDescendants place entries).map fun x => top.listing x.1 x.2
  | [] => by
      rw [capturedEntries, entryDescendants]
      rfl
  | (name, t) :: rest => by
      rw [capturedEntries, entryDescendants, List.map_append,
        ← descendants_capturedEntries place rest]
      by_cases isDirectory : t.isDirectory = true
      · rw [if_pos isDirectory, if_pos isDirectory, List.map_cons,
          ← listings, ← descendants_captured (place ++ [name]) t]
        simp [listing]
      · rw [if_neg isDirectory, if_neg isDirectory]
        rcases top.find place name with - | (- | ⟨-, - | - | - | -⟩) <;> rfl

end

/-- Entries that add up to a capture: their names are distinct, and each is accounted for. -/
def AddsUp (top : FileTree) (entries : List (FileName × FileTree)) : Prop :=
  ∀ place, (entries.map (·.1.text)).Nodup ∧
    CapturedEntries.Assembled (entries.map (·.1.text)) (top.capturedEntries place entries)

theorem assembled_entries {entries : List (FileName × FileTree)}
    (inner : ∀ e ∈ entries, ∀ es, e.2 = .directory es → top.AddsUp es) (place : Place) :
    CapturedEntries.Assembled (entries.map (·.1.text)) (top.capturedEntries place entries) := by
  induction entries with
  | nil =>
      rw [capturedEntries]
      exact .nil
  | cons e rest ih =>
      obtain ⟨name, t⟩ := e
      have others := ih fun e mem => inner e (List.mem_cons_of_mem _ mem)
      rw [capturedEntries, List.map_cons]
      by_cases isDirectory : t.isDirectory = true
      · rw [if_pos isDirectory]
        cases t with
        | directory es =>
            obtain ⟨distinct, below⟩ := inner _ List.mem_cons_self es rfl (place ++ [name])
            rw [captured]
            exact .directory name.text distinct below others
        | file | link | special => cases isDirectory
      · rw [if_neg isDirectory]
        rcases top.find place name with - | (- | ⟨-, ⟨content, mode⟩ | - | - | -⟩)
        case neg.ok.some.file => exact .file ⟨name.text, .ofBytes content, isExecutable mode⟩ others
        all_goals exact .skip name.text others

variable (top) in
/-- The entries of a directory with distinct texts for names add up to what is captured of it. -/
theorem IsNamed.addsUp {entries : List (FileName × FileTree)}
    (named : (FileTree.directory entries).IsNamed) : top.AddsUp entries := by
  generalize same : FileTree.directory entries = t at named
  induction named generalizing entries with
  | file | link | special => cases same
  | @directory entries distinct valid _ ih =>
      cases same
      intro place
      refine ⟨?_, assembled_entries (fun e mem es same => ih e mem same.symm) place⟩
      refine List.pairwise_map.2 ((List.pairwise_map.1 distinct).imp_of_mem ?_)
      intro a b memA memB ne same
      exact ne (FileName.text_inj (valid a memA) (valid b memB) same)

end

end FileTree

namespace Capture

open FileTree

variable {settings : CaptureSettings} {top : FileTree}

/-! ### A run -/

/-- Errands of a walk that are run to the end lead on and leave the result. -/
theorem runAll_walks {errands : List Errand} (walks : ∀ e ∈ errands, Walks top e)
    {c c' : Capture} (h : runAll settings errands c = .ok () c') :
    c.Leads c' ∧ c'.result = c.result := by
  induction errands generalizing c with
  | nil =>
      cases h
      exact ⟨.refl _, rfl⟩
  | cons e rest ih =>
      rw [List.forall_mem_cons] at walks
      obtain ⟨walks, others⟩ := walks
      obtain ⟨_, c₁, first, later⟩ := bind_ok h
      obtain ⟨leads, result⟩ := ih others later
      cases walks with
      | check =>
          rw [checkInterrupted_ok first] at leads result
          exact ⟨leads, result⟩
      | content found =>
          obtain ⟨before, kept, -⟩ :=
            reportOversized_ok (c.depot.insert_stores settings.writeDeadline _).1 first
          exact ⟨before.trans leads, result.trans kept⟩
      | lost => cases first

theorem walk_leads {place : Place} {t : FileTree} {c c' : Capture} {found : CapturedDirectory}
    (h : walk settings top place t c = .ok found c') :
    found = top.captured place t ∧ c.Leads c' ∧ c'.result = c.result := by
  rw [walk_eq] at h
  obtain ⟨_, c₁, walked, done⟩ := bind_ok h
  cases done
  exact ⟨rfl, runAll_walks (walks_errands place t) walked⟩

/-- A directory that is captured has its tree recorded, and stored unless there are violations. -/
theorem outputDirectory_records {root place : Place} {path : String}
    {entries : List (FileName × FileTree)}
    (found : top.find root path.toUTF8 = .ok (some (place, .directory entries)))
    {c c' : Capture} (done : outputDirectory settings top root path c = .ok () c') :
    let tree := (top.captured place (FileTree.directory entries).sorted).tree
    c'.result.outputDirectories = c.result.outputDirectories ++ [⟨path, .ofMessage tree⟩] ∧
      c'.Keeps (.ofMessage tree) := by
  unfold outputDirectory at done
  obtain ⟨_, _, check, done⟩ := bind_ok done
  rw [checkInterrupted_ok check] at done
  obtain ⟨_, _, looked, done⟩ := bind_ok done
  obtain ⟨same, rfl⟩ := find_ok looked
  rw [found] at same
  cases same
  obtain ⟨captured, c₁, walked, done⟩ := bind_ok done
  obtain ⟨rfl, -, kept⟩ := walk_leads walked
  obtain ⟨_, c₂, put, done⟩ := bind_ok done
  obtain ⟨-, result, keeps⟩ := putBlob_ok put
  cases done
  refine ⟨?_, keeps⟩
  show c₂.result.outputDirectories ++ _ = _
  rw [result, kept]
  rfl

/-- **The tree of an output directory is closed.** A directory whose files have distinct texts for
names is captured as a tree whose root is its listing, and whose children are the listings of the
directories below it, each once, in the order in which a descent first comes to it. Every reference
in the tree resolves, every child is referred to by the root or by a child before it, and every
listing is in strict order. The tree is recorded by its digest, and it is stored unless there are
violations.

Links and special files may be among the files. Of the texts of the listings below, no two may
share a digest. -/
theorem outputDirectory_closed {root place : Place} {path : String}
    {entries : List (FileName × FileTree)}
    (found : top.find root path.toUTF8 = .ok (some (place, .directory entries)))
    (named : (FileTree.directory entries).IsNamed)
    (distinguishes : Digest.Distinguishes
      ((top.listings place (FileTree.directory entries).sorted).map Message.encode))
    {c c' : Capture} (done : outputDirectory settings top root path c = .ok () c') :
    ∃ tree : Tree,
      tree.root = top.listing place (FileTree.directory entries).sorted ∧
      tree.children = (top.listings place (FileTree.directory entries).sorted).eraseDups ∧
      tree.IsClosed ∧
      c'.result.outputDirectories = c.result.outputDirectories ++ [⟨path, .ofMessage tree⟩] ∧
      c'.Keeps (.ofMessage tree) := by
  have records := outputDirectory_records found done
  have inOrder := named.sorted
  rw [sorted_directory] at distinguishes inOrder records ⊢
  obtain ⟨distinct, assembled⟩ := inOrder.addsUp top place
  have below : (top.captured place (.directory (orderedEntries entries))).descendants.map Prod.snd =
      top.listings place (.directory (orderedEntries entries)) := descendants_captured place _
  rw [captured] at records below
  rw [← below] at distinguishes ⊢
  have digested := Digested.of_distinguishes assembled.own distinguishes
  refine ⟨_, ?_, digested.kept_eq, assembled.isClosed distinct digested, records⟩
  rw [listing, captured]
  rfl

/-- A directory with a file. -/
def sampleInner : FileTree := .directory [("f".toUTF8, .file "1".toUTF8 0o644)]

/-- The directory twice, once further down. -/
def sampleTwice : FileTree :=
  .directory [("b".toUTF8, .directory [("a".toUTF8, sampleInner)]), ("a".toUTF8, sampleInner)]

/-- A disk with that. -/
def sampleTwiceDisk : FileTree := .directory [("o".toUTF8, sampleTwice)]

/-- A capture into a new store. -/
def sampleNew : Capture := ⟨.ofStore (.ofLimit 0), {}, []⟩

theorem sampleTwice_named : sampleTwice.IsNamed := by
  have inner : sampleInner.IsNamed := by
    refine .directory (by decide +kernel) (by decide +kernel) fun e mem => ?_
    cases List.mem_singleton.1 mem
    exact .file _ _
  refine .directory (by decide +kernel) (by decide +kernel) ?_
  rw [List.forall_mem_cons, List.forall_mem_singleton]
  refine ⟨.directory (by decide +kernel) (by decide +kernel) fun e mem => ?_, inner⟩
  cases List.mem_singleton.1 mem
  exact inner

theorem sampleTwice_sorted : sampleTwice.sorted = .directory
    [("a".toUTF8, sampleInner), ("b".toUTF8, .directory [("a".toUTF8, sampleInner)])] := by
  have less : FileName.text "a".toUTF8 < FileName.text "b".toUTF8 := by
    rw [FileName.text_toUTF8, FileName.text_toUTF8]
    decide
  -- What is further down is in order already.
  have entries : sortedEntries
      [("b".toUTF8, .directory [("a".toUTF8, sampleInner)]), ("a".toUTF8, sampleInner)] =
      [("b".toUTF8, .directory [("a".toUTF8, sampleInner)]), ("a".toUTF8, sampleInner)] := by
    with_unfolding_all rfl
  rw [sampleTwice, sorted_directory, orderedEntries, entries]
  exact congrArg FileTree.directory
    (Directory.sortByName_eq (.swap _ _ _) (List.pairwise_pair.2 less))

theorem sampleTwice_errands : sampleTwiceDisk.errands ["o".toUTF8] sampleTwice.sorted =
    [.check, .check, .check, .check, .content "1".toUTF8, .check, .check, .check, .check, .check,
      .content "1".toUTF8] := by
  rw [sampleTwice_sorted]
  with_unfolding_all rfl

/-- The listing of the directory. -/
def sampleInnerListing : Directory := ⟨[⟨"f", .ofBytes "1".toUTF8, false⟩], []⟩

/-- The listing of what it is in further down. -/
def sampleOuterListing : Directory := ⟨[], [⟨"a", sampleInnerListing.digest⟩]⟩

theorem sampleTwice_listings : sampleTwiceDisk.listings ["o".toUTF8] sampleTwice.sorted =
    [sampleInnerListing, sampleOuterListing, sampleInnerListing] := by
  rw [sampleTwice_sorted]
  with_unfolding_all rfl

theorem sampleTwice_closed : ∃ c', outputDirectory {} sampleTwiceDisk [] "o" sampleNew = .ok () c' ∧
    ∃ tree : Tree, tree.children = [sampleInnerListing, sampleOuterListing] ∧ tree.IsClosed ∧
      c'.result.outputDirectories = [⟨"o", .ofMessage tree⟩] := by
  have distinguishes : Digest.Distinguishes
      ((sampleTwiceDisk.listings ["o".toUTF8] sampleTwice.sorted).map Message.encode) := by
    have pair : Digest.Distinguishes
        [Message.encode sampleInnerListing, Message.encode sampleOuterListing] :=
      Digest.distinguishes_pair (by decide +kernel)
    have twice {a b : ByteArray} : [a, b, a] ⊆ [a, b] := by simp
    rw [sampleTwice_listings]
    exact pair.mono fun text mem => twice mem
  have once : (sampleTwiceDisk.listings ["o".toUTF8] sampleTwice.sorted).eraseDups =
      [sampleInnerListing, sampleOuterListing] := by
    rw [sampleTwice_listings]
    simp [List.eraseDups_cons, sampleInnerListing, sampleOuterListing]
  have runs : ∃ c', outputDirectory {} sampleTwiceDisk [] "o" sampleNew = .ok () c' := by
    have errands : sampleTwiceDisk.directoryErrands [] "o" = .check ::
        (sampleTwiceDisk.errands ["o".toUTF8] sampleTwice.sorted ++ [.tree _, .directory _]) := rfl
    rw [sampleTwice_errands] at errands
    obtain ⟨c', -, run⟩ := @runAll_settles {} sampleNew (Depot.calm_ofStore _)
      (Store.sound_ofLimit 0) (sampleTwiceDisk.directoryErrands [] "o") (by
        intro data mem
        rw [errands] at mem
        have only : data = "1".toUTF8 := by simpa using mem
        rw [only]
        decide)
    rw [← outputDirectory_eq, errands] at run
    exact ⟨c', run⟩
  obtain ⟨c', done⟩ := runs
  have found : sampleTwiceDisk.find [] "o".toUTF8 = .ok (some (["o".toUTF8], sampleTwice)) := rfl
  obtain ⟨tree, -, children, closed, recorded, -⟩ :=
    outputDirectory_closed found sampleTwice_named distinguishes done
  exact ⟨c', done, tree, children.trans once, closed, recorded⟩

end Capture

end BuildWorker
