import BuildWorker.Capture.Outputs
import BuildWorker.Proofs.Directory.Encoding
import BuildWorker.Proofs.Directory.Expansion
import BuildWorker.Proofs.Files.Plain
import BuildWorker.Proofs.Store.Integrity

/-!
# The listing of a directory

`FileTree.walked` is what a plain directory is captured as, without the store and the failures on
the way. Expanding its tree gives back the directory (`FileTree.expands_tree_iff`): the same
paths, and at each the same.

The tree keeps one directory of each digest, so a subdirectory is resolved to the first listing
with its digest. That this is its own listing is where different listings have to have different
digests.
-/

namespace BuildWorker

/-! ### What is on the disk -/

namespace FileTree

/-- What is at a place, as a tree tells it. -/
def entry : FileTree → Option TreeEntry
  | .file content mode => some (.file (.ofBytes content) (isExecutable mode))
  | .directory _ => some .directory
  | _ => none

/-- What a path of texts leads to, as a tree tells it. -/
def leadsTo (t : FileTree) (path : List String) : Option TreeEntry :=
  (t.at? (path.map String.toUTF8)).bind entry

@[simp] theorem entry_sorted (t : FileTree) : t.sorted.entry = t.entry := by
  cases t <;> rfl

theorem IsPlain.leadsTo_sorted {t : FileTree} (h : t.IsPlain) (path : List String) :
    t.sorted.leadsTo path = t.leadsTo path := by
  rw [leadsTo, leadsTo, h.at?_sorted]
  cases t.at? (path.map String.toUTF8) with
  | none => rfl
  | some u => exact u.entry_sorted

mutual

/-- The contents of the files, at every depth. -/
def contents : FileTree → List ByteArray
  | .file content _ => [content]
  | .directory entries => entryContents entries
  | _ => []

/-- The contents of the files in entries, at every depth. -/
def entryContents : List (FileName × FileTree) → List ByteArray
  | [] => []
  | (_, t) :: rest => t.contents ++ entryContents rest

end

theorem contents_subset {entries : List (FileName × FileTree)} {name : FileName} {t : FileTree}
    (h : (name, t) ∈ entries) : t.contents ⊆ (directory entries).contents := by
  rw [contents]
  induction entries with
  | nil => cases h
  | cons e entries ih =>
      obtain ⟨n, u⟩ := e
      rw [entryContents]
      rcases List.mem_cons.1 h with same | h
      · obtain ⟨rfl, rfl⟩ := Prod.mk.inj same
        exact List.subset_append_left _ _
      · exact List.Subset.trans (ih h) (List.subset_append_right _ _)

theorem mem_contents_of_at? {t : FileTree} {place : Place} {content : ByteArray} {mode : Nat}
    (h : t.at? place = some (.file content mode)) : content ∈ t.contents := by
  induction place generalizing t with
  | nil =>
      cases h
      exact List.mem_singleton_self _
  | cons name rest ih =>
      cases t with
      | directory entries =>
          rw [at?_directory, Option.bind_eq_some_iff] at h
          obtain ⟨u, found, h⟩ := h
          exact contents_subset (mem_of_lookup found) (ih h)
      | file | link | special => cases h

/-! ### What it is captured as -/

mutual

/-- What a plain directory, whose entries are in order, is captured as. -/
def walked : FileTree → CapturedDirectory
  | .directory entries => (walkedEntries entries).close
  | _ => ({} : CapturedEntries).close

/-- What plain entries are captured as. -/
def walkedEntries : List (FileName × FileTree) → CapturedEntries
  | [] => {}
  | (name, t) :: rest =>
    let others := walkedEntries rest
    match t with
    | .directory entries =>
      let child := walked (.directory entries)
      { others with
        directories := ⟨name.text, child.digest⟩ :: others.directories
        descendants := (child.digest, child.directory) :: child.descendants ++ others.descendants }
    | .file content mode =>
      { others with files := ⟨name.text, .ofBytes content, isExecutable mode⟩ :: others.files }
    | _ => others

end

theorem digest_walked (t : FileTree) : t.walked.digest = t.walked.directory.digest := by
  cases t <;> rfl

theorem mem_walked_files {entries : List (FileName × FileTree)} {f : FileNode} :
    f ∈ (walkedEntries entries).files ↔ ∃ name content mode, (name, .file content mode) ∈ entries ∧
      f = ⟨name.text, .ofBytes content, isExecutable mode⟩ := by
  induction entries with
  | nil => simp [walkedEntries]
  | cons e rest ih =>
      obtain ⟨name, t⟩ := e
      cases t with
      | directory | link | special => simp [walkedEntries, ih]
      | file content mode =>
          simp only [walkedEntries, List.mem_cons, ih, Prod.mk.injEq, FileTree.file.injEq]
          constructor
          · rintro (rfl | ⟨n, c, m, mem, rfl⟩)
            · exact ⟨name, content, mode, .inl ⟨rfl, rfl, rfl⟩, rfl⟩
            · exact ⟨n, c, m, .inr mem, rfl⟩
          · rintro ⟨n, c, m, ⟨rfl, rfl, rfl⟩ | mem, rfl⟩
            · exact .inl rfl
            · exact .inr ⟨n, c, m, mem, rfl⟩

theorem mem_walked_directories {entries : List (FileName × FileTree)} {d : DirectoryNode} :
    d ∈ (walkedEntries entries).directories ↔ ∃ name inner, (name, .directory inner) ∈ entries ∧
      d = ⟨name.text, (walked (.directory inner)).digest⟩ := by
  induction entries with
  | nil => simp [walkedEntries]
  | cons e rest ih =>
      obtain ⟨name, t⟩ := e
      cases t with
      | file | link | special => simp [walkedEntries, ih]
      | directory inner =>
          simp only [walkedEntries, List.mem_cons, ih, Prod.mk.injEq, FileTree.directory.injEq]
          constructor
          · rintro (rfl | ⟨n, i, mem, rfl⟩)
            · exact ⟨name, inner, .inl ⟨rfl, rfl⟩, rfl⟩
            · exact ⟨n, i, .inr mem, rfl⟩
          · rintro ⟨n, i, ⟨rfl, rfl⟩ | mem, rfl⟩
            · exact .inl rfl
            · exact .inr ⟨n, i, mem, rfl⟩

/-- The descendants of a directory are its subdirectories and their descendants. -/
theorem mem_walked_descendants {entries : List (FileName × FileTree)} {x : Digest × Directory} :
    x ∈ (walkedEntries entries).descendants ↔ ∃ name inner, (name, .directory inner) ∈ entries ∧
      (x = ((walked (.directory inner)).digest, (walked (.directory inner)).directory) ∨
        x ∈ (walked (.directory inner)).descendants) := by
  induction entries with
  | nil => simp [walkedEntries]
  | cons e rest ih =>
      obtain ⟨name, t⟩ := e
      cases t with
      | file | link | special => simp [walkedEntries, ih]
      | directory inner =>
          simp only [walkedEntries, List.cons_append, List.mem_cons, List.mem_append, ih,
            Prod.mk.injEq, FileTree.directory.injEq]
          constructor
          · rintro (same | within | ⟨n, i, mem, rest⟩)
            · exact ⟨name, inner, .inl ⟨rfl, rfl⟩, .inl same⟩
            · exact ⟨name, inner, .inl ⟨rfl, rfl⟩, .inr within⟩
            · exact ⟨n, i, .inr mem, rest⟩
          · rintro ⟨n, i, ⟨rfl, rfl⟩ | mem, rest⟩
            · rcases rest with same | within
              · exact .inl same
              · exact .inr (.inl within)
            · exact .inr (.inr ⟨n, i, mem, rest⟩)

/-- Every descendant goes with the digest of its listing. -/
theorem digest_descendants {t : FileTree} (h : t.IsPlain) {x : Digest × Directory}
    (mem : x ∈ t.walked.descendants) : x.1 = x.2.digest := by
  induction h with
  | file => cases mem
  | directory entries _ _ _ ih =>
      rw [walked] at mem
      obtain ⟨name, inner, there, rfl | within⟩ := mem_walked_descendants.1 mem
      · exact digest_walked _
      · exact ih _ there within

end FileTree

/-! ### Resolving -/

/-- Where no two children have a digest, the digest of a child leads to it. -/
theorem Tree.findChild?_digest {t : Tree} (distinct : (t.children.map Directory.digest).Nodup)
    {child : Directory} (mem : child ∈ t.children) : t.findChild? child.digest = some child := by
  unfold findChild?
  cases found : t.children.find? (·.digest == child.digest) with
  | none => exact absurd (beq_self_eq_true _) (List.find?_eq_none.1 found child mem)
  | some d =>
      have same : (d.digest == child.digest) = true :=
        List.find?_some (p := fun c : Directory => c.digest == child.digest) found
      exact congrArg some (List.inj_on_of_nodup_map distinct (List.mem_of_find?_eq_some found) mem
        (beq_iff_eq.1 same))

theorem nodup_eraseDups {α : Type} [BEq α] [LawfulBEq α] (list : List α) :
    list.eraseDups.Nodup := by
  cases list with
  | nil => simp
  | cons a rest =>
      rw [List.eraseDups_cons, List.nodup_cons, List.mem_eraseDups]
      exact ⟨by simp, nodup_eraseDups _⟩
termination_by list.length
decreasing_by
  exact Nat.lt_succ_of_le (List.length_filter_le _ _)

/-- Directories that go with the digests of their listings, by which they are told apart. -/
structure Digested (list : List (Digest × Directory)) : Prop where
  own : ∀ x ∈ list, x.1 = x.2.digest
  apart : ∀ d ∈ list.map Prod.snd, ∀ d' ∈ list.map Prod.snd, d.digest = d'.digest → d = d'

namespace Digested

variable {list : List (Digest × Directory)}

theorem of_distinguishes (own : ∀ x ∈ list, x.1 = x.2.digest)
    (distinguishes : Digest.Distinguishes ((list.map Prod.snd).map Message.encode)) :
    Digested list := by
  refine ⟨own, fun d mem d' mem' same => Message.encode_injective ?_⟩
  exact distinguishes _ (List.mem_map_of_mem mem) _ (List.mem_map_of_mem mem') same

/-- Keeping one directory of each digest is keeping one of each listing. -/
theorem distinctDirectories_eq (h : Digested list) (seen : List Digest) :
    distinctDirectories seen list =
      ((list.map Prod.snd).filter fun d => decide (d.digest ∉ seen)).eraseDups := by
  obtain ⟨own, apart⟩ := h
  induction list generalizing seen with
  | nil => rfl
  | cons x rest ih =>
      obtain ⟨digest, d⟩ := x
      obtain rfl : digest = d.digest := own _ List.mem_cons_self
      have ih (seen : List Digest) := ih seen (fun y mem => own y (List.mem_cons_of_mem _ mem))
        (fun e mem e' mem' => apart e (List.mem_cons_of_mem _ mem) e' (List.mem_cons_of_mem _ mem'))
      rw [distinctDirectories, List.map_cons]
      by_cases known : d.digest ∈ seen
      · rw [if_pos known, ih, List.filter_cons_of_neg (by simpa using known)]
      · rw [if_neg known, ih, List.filter_cons_of_pos (by simpa using known), List.eraseDups_cons,
          List.filter_filter]
        refine congrArg (d :: List.eraseDups ·) (List.filter_congr fun e mem => ?_)
        have same : e.digest = d.digest ↔ e = d :=
          ⟨apart e (List.mem_cons_of_mem _ mem) d List.mem_cons_self, congrArg Directory.digest⟩
        rw [Bool.eq_iff_iff]
        simp only [Bool.and_eq_true, Bool.not_eq_true', beq_eq_false_iff_ne, decide_eq_true_eq,
          List.mem_cons, not_or, same, ne_eq]

theorem kept_eq (h : Digested list) :
    distinctDirectories [] list = (list.map Prod.snd).eraseDups := by
  rw [h.distinctDirectories_eq []]
  simp

theorem mem_kept (h : Digested list) {d : Directory} :
    d ∈ distinctDirectories [] list ↔ d ∈ list.map Prod.snd := by
  rw [h.kept_eq, List.mem_eraseDups]

theorem nodup_kept (h : Digested list) :
    ((distinctDirectories [] list).map Directory.digest).Nodup := by
  refine List.Nodup.map_on (fun d mem d' mem' same => ?_) (h.kept_eq ▸ nodup_eraseDups _)
  exact h.apart d (h.mem_kept.1 mem) d' (h.mem_kept.1 mem') same

end Digested

/-- The texts of the listings in a tree, and of the tree. -/
def CapturedDirectory.texts (c : CapturedDirectory) : List ByteArray :=
  Message.encode c.tree :: c.descendants.map fun x => Message.encode x.2

namespace FileTree

/-- In the tree of a directory, the digest of a descendant resolves to its listing. -/
theorem findChild?_tree {t : FileTree} (h : t.IsPlain)
    (distinguishes : Digest.Distinguishes t.walked.texts) {x : Digest × Directory}
    (mem : x ∈ t.walked.descendants) : t.walked.tree.findChild? x.1 = some x.2 := by
  have digested : Digested t.walked.descendants := by
    refine .of_distinguishes (fun _ => digest_descendants h) (distinguishes.mono fun text mem => ?_)
    rw [List.map_map] at mem
    exact List.mem_cons_of_mem _ mem
  have kept : x.2 ∈ t.walked.tree.children := digested.mem_kept.2 (List.mem_map_of_mem mem)
  rw [digested.own x mem]
  exact Tree.findChild?_digest digested.nodup_kept kept

/-- A tree in which every descendant of a directory resolves expands the directory's listing to
what is on the disk. -/
theorem expands_walked_iff {tree : Tree} {t : FileTree} (h : t.IsPlain)
    (isDirectory : t.isDirectory = true)
    (resolved : ∀ x ∈ t.walked.descendants, tree.findChild? x.1 = some x.2)
    (path : List String) (e : TreeEntry) :
    tree.Expands t.walked.directory path e ↔ t.leadsTo path = some e := by
  -- By induction on the path, since the listing is resolved one name at a time.
  induction path generalizing t with
  | nil =>
      rw [Tree.expands_nil]
      cases h with
      | file => cases isDirectory
      | directory =>
          change _ ↔ some TreeEntry.directory = some e
          rw [Option.some_inj, eq_comm]
  | cons name path ih =>
      cases h with
      | file => cases isDirectory
      | directory entries distinct named plain =>
          have listed {n : FileName} {u : FileTree} (mem : (n, u) ∈ entries) :
              entries.lookup n.text.toUTF8 = some u := by
            rw [(named _ mem).toUTF8_text]
            exact (lookup_eq_some_iff_mem distinct).2 mem
          have inner {n : FileName} {i : List (FileName × FileTree)}
              (mem : (n, .directory i) ∈ entries) :
              tree.findChild? (walked (.directory i)).digest =
                  some (walked (.directory i)).directory ∧
                (tree.Expands (walked (.directory i)).directory path e ↔
                  leadsTo (.directory i) path = some e) := by
            refine ⟨resolved (_, _) (mem_walked_descendants.2 ⟨n, i, mem, .inl rfl⟩), ?_⟩
            exact ih (plain _ mem) rfl fun x below =>
              resolved x (mem_walked_descendants.2 ⟨n, i, mem, .inr below⟩)
          have leadsTo_cons : leadsTo (.directory entries) (name :: path) =
              (entries.lookup name.toUTF8).bind (·.leadsTo path) := by
            rw [leadsTo, List.map_cons, at?_directory, Option.bind_assoc]
            rfl
          rw [Tree.expands_cons, leadsTo_cons]
          constructor
          -- What is listed is on the disk.
          · rintro (⟨f, mem, rfl, rfl, rfl⟩ | ⟨n, mem, rfl, rest⟩)
            · obtain ⟨n, content, mode, there, rfl⟩ := mem_walked_files.1 (List.mem_mergeSort.1 mem)
              rw [listed there]
              rfl
            · obtain ⟨n, i, there, rfl⟩ := mem_walked_directories.1 (List.mem_mergeSort.1 mem)
              rw [listed there]
              obtain ⟨found, expands⟩ := inner there
              rcases rest with ⟨child, found', rest⟩ | ⟨unresolved, -⟩
              · rw [found] at found'
                cases found'
                exact expands.1 rest
              · rw [found] at unresolved
                cases unresolved
          -- What is on the disk is listed.
          · intro leads
            obtain ⟨u, found, leads⟩ := Option.bind_eq_some_iff.1 leads
            have mem : (name.toUTF8, u) ∈ entries := (lookup_eq_some_iff_mem distinct).1 found
            have text := FileName.text_toUTF8 name
            cases plain _ mem with
            | file content mode =>
                refine .inl ⟨_, List.mem_mergeSort.2 (mem_walked_files.2
                  ⟨_, content, mode, mem, rfl⟩), text, ?_⟩
                cases path with
                | nil =>
                    cases leads
                    exact ⟨rfl, rfl⟩
                | cons => cases leads
            | directory i =>
                refine .inr ⟨_, List.mem_mergeSort.2 (mem_walked_directories.2
                  ⟨_, i, mem, rfl⟩), text, .inl ⟨_, (inner mem).1, (inner mem).2.2 leads⟩⟩

/-- The tree of a plain directory expands to what is on the disk. -/
theorem expands_tree_iff {t : FileTree} (h : t.IsPlain) (isDirectory : t.isDirectory = true)
    (distinguishes : Digest.Distinguishes t.walked.texts) (path : List String) (e : TreeEntry) :
    t.walked.tree.Expands t.walked.tree.root path e ↔ t.leadsTo path = some e :=
  expands_walked_iff h isDirectory (fun _ => findChild?_tree h distinguishes) path e

end FileTree

end BuildWorker
