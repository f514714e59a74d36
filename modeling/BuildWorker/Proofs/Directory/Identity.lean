import BuildWorker.Proofs.Directory.Encoding
import BuildWorker.Proofs.Directory.Order
import BuildWorker.Proofs.Store.Integrity

/-!
# A directory is told by its digest

The order in which entries are given does not show in a listing, and a listing is told by its text,
whatever characters the names are made of. So two directories have one digest when and only when
they have the same entries, unless the hash confuses the two texts.
-/

namespace BuildWorker.Directory

/-- The listings of entries with distinct names are equal when and only when the entries are. -/
theorem ofEntries_eq_iff {files otherFiles : List FileNode}
    {directories otherDirectories : List DirectoryNode}
    (distinctFiles : (otherFiles.map FileNode.name).Nodup)
    (distinctDirectories : (otherDirectories.map DirectoryNode.name).Nodup) :
    ofEntries files directories = ofEntries otherFiles otherDirectories ↔
      files.Perm otherFiles ∧ directories.Perm otherDirectories := by
  rw [ofEntries, ofEntries, mk.injEq, sortByName_eq_iff_perm distinctFiles,
    sortByName_eq_iff_perm distinctDirectories]

/-- The digest tells one listing from another, unless it confuses their texts. -/
theorem digest_eq_iff {d other : Directory}
    (distinguishes : Digest.Distinguishes [Message.encode d, Message.encode other]) :
    d.digest = other.digest ↔ d = other := by
  constructor
  · intro same
    have texts : Message.encode d = Message.encode other :=
      distinguishes _ List.mem_cons_self _ (List.mem_cons_of_mem _ List.mem_cons_self) same
    exact Message.encode_injective texts
  · exact congrArg digest

/-- **The digest of a directory changes when and only when its entries change.** Names have to be
distinct among the files and among the subdirectories of one of the two directories only: those of
the other are compared with them. -/
theorem digest_ofEntries_eq_iff {files otherFiles : List FileNode}
    {directories otherDirectories : List DirectoryNode}
    (distinctFiles : (otherFiles.map FileNode.name).Nodup)
    (distinctDirectories : (otherDirectories.map DirectoryNode.name).Nodup)
    (distinguishes : Digest.Distinguishes [Message.encode (ofEntries files directories),
      Message.encode (ofEntries otherFiles otherDirectories)]) :
    (ofEntries files directories).digest = (ofEntries otherFiles otherDirectories).digest ↔
      files.Perm otherFiles ∧ directories.Perm otherDirectories := by
  rw [digest_eq_iff distinguishes, ofEntries_eq_iff distinctFiles distinctDirectories]

/-- Files whose names hold a quote, a backslash, a control character and a letter that is not
ASCII. -/
def sampleFiles : List FileNode :=
  [⟨"\"\\", ⟨"b", 2⟩, false⟩, ⟨"ü\n", ⟨"a", 1⟩, true⟩]

/-- A subdirectory. -/
def sampleDirectories : List DirectoryNode := [⟨"sub", ⟨"c", 3⟩⟩]

/-- The same files, one of which may no longer be executed. -/
def sampleChanged : List FileNode := sampleFiles.map fun f => { f with isExecutable := false }

theorem ofEntries_sample : ofEntries sampleFiles sampleDirectories =
    ⟨sampleFiles, sampleDirectories⟩ := by
  rw [ofEntries, sortByName_eq (.refl _) (by decide), sortByName_eq (.refl _) (by decide)]

theorem ofEntries_changed : ofEntries sampleChanged sampleDirectories =
    ⟨sampleChanged, sampleDirectories⟩ := by
  rw [ofEntries, sortByName_eq (.refl _) (by decide), sortByName_eq (.refl _) (by decide)]

theorem sampleFiles_told :
    (ofEntries sampleFiles.reverse sampleDirectories).digest =
      (ofEntries sampleFiles sampleDirectories).digest ∧
    (ofEntries sampleChanged sampleDirectories).digest ≠
      (ofEntries sampleFiles sampleDirectories).digest := by
  have distinctFiles : (sampleFiles.map FileNode.name).Nodup := by decide
  have distinctDirectories : (sampleDirectories.map DirectoryNode.name).Nodup := by decide
  have swapped : ofEntries sampleFiles.reverse sampleDirectories =
      ofEntries sampleFiles sampleDirectories :=
    (ofEntries_eq_iff distinctFiles distinctDirectories).2 ⟨List.reverse_perm _, .refl _⟩
  constructor
  · refine (digest_ofEntries_eq_iff distinctFiles distinctDirectories ?_).2
      ⟨List.reverse_perm _, .refl _⟩
    rw [swapped]
    intro a memA b memB _
    simp only [List.mem_cons, List.not_mem_nil, or_false, or_self] at memA memB
    rw [memA, memB]
  · refine fun same => absurd ((digest_ofEntries_eq_iff distinctFiles distinctDirectories
      (Digest.distinguishes_pair ?_)).1 same).1 (by decide)
    rw [ofEntries_sample, ofEntries_changed]
    decide +kernel

end BuildWorker.Directory
