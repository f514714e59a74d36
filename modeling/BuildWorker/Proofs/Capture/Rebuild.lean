import BuildWorker.Proofs.Capture.Streams

/-!
# Rebuilding outputs from the store

When a capture succeeds, the store has all that it takes to rebuild what was captured
(`Depot.captureOutputs_rebuilds`). A recorded file is fetched by its digest. A recorded directory
is fetched as a tree, which expands to what is on the disk, and the files that it names are fetched
by theirs (`Tree.Rebuilds`).

Directories have to be plain: a capture follows links, and replaces what is no text in a name. And
what is digested has to have digests of its own, among itself and with what is in the store.
Nothing is asked of the depot: however its calls fail or are interrupted, a capture that succeeds
has stored what it records.
-/

namespace BuildWorker

/-- What a declared path leads to. -/
def FileTree.declared? (top : FileTree) (root : FileTree.Place) (path : String) :
    Option FileTree :=
  match top.find root path.toUTF8 with
  | .ok (some (_, t)) => some t
  | _ => none

/-- All that a capture takes a digest of: contents of files, listings and trees. -/
def FileTree.digested : FileTree → List ByteArray
  | .directory entries =>
    let t := (FileTree.directory entries).sorted
    t.contents ++ t.walked.texts
  | t => t.contents

/-- All that a capture of declared paths takes a digest of. -/
def FileTree.digestedAt (top : FileTree) (root : FileTree.Place) (paths : List String) :
    List ByteArray :=
  paths.flatMap fun path => ((top.declared? root path).map FileTree.digested).getD []

theorem FileTree.mem_digestedAt {top : FileTree} {root : FileTree.Place} {paths : List String}
    {path : String} {t : FileTree} {text : ByteArray} (mem : path ∈ paths)
    (declared : top.declared? root path = some t) (digested : text ∈ t.digested) :
    text ∈ top.digestedAt root paths := by
  refine List.mem_flatMap.2 ⟨path, mem, ?_⟩
  rw [declared]
  exact digested

/-- A file that a path leads to is there with its content. -/
theorem FileTree.at?_of_leadsTo {t : FileTree} {path : List String} {digest : Digest}
    {executable : Bool} (h : t.leadsTo path = some (.file digest executable)) :
    ∃ content mode, t.at? (path.map String.toUTF8) = some (.file content mode) ∧
      digest = .ofBytes content := by
  obtain ⟨u, there, entry⟩ := Option.bind_eq_some_iff.1 h
  cases u with
  | file content mode =>
      refine ⟨content, mode, there, ?_⟩
      exact (TreeEntry.file.inj (Option.some.inj entry)).1.symm
  | directory | link | special => cases entry

/-- A tree and a store from which a file tree can be rebuilt. -/
structure Tree.Rebuilds (tree : Tree) (s : Store) (t : FileTree) : Prop where
  expands : ∀ path e, tree.Expands tree.root path e ↔ t.leadsTo path = some e
  /-- The files that it names are fetched. -/
  fetches : ∀ path digest isExecutable,
    tree.Expands tree.root path (.file digest isExecutable) → digest.isEmpty = false →
      ∃ content mode, t.at? (path.map String.toUTF8) = some (.file content mode) ∧
        (s.get digest).1 = some ⟨digest, content⟩

namespace Capture

/-! ### What is recorded -/

/-- A record of a file that is there, and whose content is in the store. -/
def FileRecorded (top : FileTree) (root : FileTree.Place) (c : Capture) (f : OutputFile) : Prop :=
  ∃ content mode, top.declared? root f.path = some (.file content mode) ∧
    f.digest = .ofBytes content ∧ f.isExecutable = FileTree.isExecutable mode ∧
    (f.digest.isEmpty = false → c.Keeps f.digest)

/-- A record of a directory that is there, and whose tree and contents are in the store. -/
def DirectoryRecorded (top : FileTree) (root : FileTree.Place) (c : Capture)
    (o : OutputDirectory) : Prop :=
  ∃ entries, top.declared? root o.path = some (.directory entries) ∧
    o.treeDigest = .ofMessage (FileTree.directory entries).sorted.walked.tree ∧
    c.Keeps o.treeDigest ∧ c.KeepsAll (FileTree.directory entries).sorted.contents

/-- A part of a capture that adds records to the result. -/
structure Adds (top : FileTree) (root : FileTree.Place) (c c' : Capture)
    (files : List OutputFile) (directories : List OutputDirectory) : Prop where
  /-- The capture goes on. -/
  leads : c.Leads c'
  /-- The files are added. -/
  files_eq : c'.result.outputFiles = c.result.outputFiles ++ files
  /-- The directories are added. -/
  directories_eq : c'.result.outputDirectories = c.result.outputDirectories ++ directories
  files_recorded : ∀ f ∈ files, FileRecorded top root c' f
  directories_recorded : ∀ o ∈ directories, DirectoryRecorded top root c' o

section

variable {top : FileTree} {root : FileTree.Place} {settings : CaptureSettings}

theorem FileRecorded.leads {c c' : Capture} {f : OutputFile} (h : FileRecorded top root c f)
    (leads : c.Leads c') : FileRecorded top root c' f := by
  obtain ⟨content, mode, there, digest, executable, keeps⟩ := h
  exact ⟨content, mode, there, digest, executable, fun filled => (keeps filled).leads leads⟩

theorem DirectoryRecorded.leads {c c' : Capture} {o : OutputDirectory}
    (h : DirectoryRecorded top root c o) (leads : c.Leads c') :
    DirectoryRecorded top root c' o := by
  obtain ⟨entries, there, digest, keeps, contents⟩ := h
  exact ⟨entries, there, digest, keeps.leads leads, contents.leads leads⟩

theorem Adds.of_leads {c c' : Capture} (leads : c.Leads c') (result : c'.result = c.result) :
    Adds top root c c' [] [] := by
  refine ⟨leads, ?_, ?_, nofun, nofun⟩
  · rw [result, List.append_nil]
  · rw [result, List.append_nil]

theorem Adds.trans {c c' c'' : Capture} {files files' : List OutputFile}
    {directories directories' : List OutputDirectory} (h : Adds top root c c' files directories)
    (h' : Adds top root c' c'' files' directories') :
    Adds top root c c'' (files ++ files') (directories ++ directories') := by
  refine ⟨h.leads.trans h'.leads, ?_, ?_, fun f mem => ?_, fun o mem => ?_⟩
  · rw [h'.files_eq, h.files_eq, List.append_assoc]
  · rw [h'.directories_eq, h.directories_eq, List.append_assoc]
  · rcases List.mem_append.1 mem with mem | mem
    · exact (h.files_recorded f mem).leads h'.leads
    · exact h'.files_recorded f mem
  · rcases List.mem_append.1 mem with mem | mem
    · exact (h.directories_recorded o mem).leads h'.leads
    · exact h'.directories_recorded o mem

/-- A violation that is reported. -/
theorem report_adds {v : Violation} {c c' : Capture} (h : report v c = .ok () c') :
    Adds top root c c' [] [] := by
  cases h
  -- With a violation in the list there is nothing to show of the state before.
  refine .of_leads ⟨.refl, fun none_ => ?_⟩ rfl
  exact absurd none_ (List.append_ne_nil_of_right_ne_nil _ (List.cons_ne_nil _ _))

/-! ### The steps of a capture -/

theorem outputFile_adds {path : String} {c c' : Capture}
    (h : outputFile settings top root path c = .ok () c') :
    ∃ files, Adds top root c c' files [] ∧ (files.map OutputFile.path).Sublist [path] := by
  unfold outputFile at h
  obtain ⟨_, _, check, unchecked⟩ := bind_ok h
  rw [checkInterrupted_ok check] at unchecked
  obtain ⟨found, _, looked, found_ok⟩ := bind_ok unchecked
  obtain ⟨there, eq⟩ := find_ok looked
  rw [eq] at found_ok
  split at found_ok
  · cases found_ok
    exact ⟨[], .of_leads (.refl _) rfl, List.nil_sublist _⟩
  · exact ⟨[], report_adds found_ok, List.nil_sublist _⟩
  next place content mode =>
    obtain ⟨digest, c₁, stored, recorded⟩ := bind_ok found_ok
    obtain ⟨own, leads, result, keeps⟩ := captureContent_ok stored
    cases recorded
    have there : top.declared? root path = some (.file content mode) := by
      rw [FileTree.declared?, there]
    refine ⟨[⟨path, digest, FileTree.isExecutable mode⟩], ⟨⟨leads.evolves, leads.clean⟩,
      ?_, ?_, ?_, nofun⟩, List.Sublist.refl _⟩
    · rw [← result]
    · rw [← result, List.append_nil]
    · intro f mem
      cases List.mem_singleton.1 mem
      exact ⟨content, mode, there, own, rfl, keeps⟩
  next => cases found_ok

theorem outputDirectory_adds {path : String} {c c' : Capture}
    (plain : ∀ entries, top.declared? root path = some (.directory entries) →
      (FileTree.directory entries).IsPlain)
    (h : outputDirectory settings top root path c = .ok () c') :
    ∃ directories, Adds top root c c' [] directories ∧
      (directories.map OutputDirectory.path).Sublist [path] := by
  unfold outputDirectory at h
  obtain ⟨_, _, check, unchecked⟩ := bind_ok h
  rw [checkInterrupted_ok check] at unchecked
  obtain ⟨found, _, looked, found_ok⟩ := bind_ok unchecked
  obtain ⟨there, eq⟩ := find_ok looked
  rw [eq] at found_ok
  split at found_ok
  · cases found_ok
    exact ⟨[], .of_leads (.refl _) rfl, List.nil_sublist _⟩
  next place entries =>
    have declared : top.declared? root path = some (.directory entries) := by
      rw [FileTree.declared?, there]
    obtain ⟨captured, c₁, walk, walk_done⟩ := bind_ok found_ok
    obtain ⟨listing, walked⟩ := walk_ok (plain entries declared) rfl (FileTree.find_at? there) walk
    subst listing
    obtain ⟨_, c₂, stored, recorded⟩ := bind_ok walk_done
    obtain ⟨leads, result, keeps⟩ := putBlob_ok stored
    have keepsAll := walked.keeps.leads leads
    have leads := walked.leads.trans leads
    have result := result.trans walked.result_eq
    cases recorded
    refine ⟨[⟨path, .ofMessage (FileTree.directory entries).sorted.walked.tree⟩],
      ⟨⟨leads.evolves, leads.clean⟩, ?_, ?_, nofun, ?_⟩, List.Sublist.refl _⟩
    · rw [← result, List.append_nil]
    · rw [← result]
      rfl
    · intro o mem
      cases List.mem_singleton.1 mem
      exact ⟨entries, declared, rfl, keeps, keepsAll⟩
  · exact ⟨[], report_adds found_ok, List.nil_sublist _⟩

/-! ### The whole capture -/

/-- Do something with each item in turn. -/
abbrev forEach {α : Type} (items : List α) (act : α → Capturing Unit) : Capturing PUnit :=
  forIn items PUnit.unit fun a _ => do act a; pure (.yield PUnit.unit)

/-- A loop whose steps are related is related as a whole. -/
theorem forEach_ok {α : Type} {act : α → Capturing Unit} {R : List α → Capture → Capture → Prop}
    {items : List α} (nil : ∀ c, R [] c c)
    (cons : ∀ a ∈ items, ∀ rest c c' c'', act a c = .ok () c' → R rest c' c'' →
      R (a :: rest) c c'')
    {c c' : Capture} {u : PUnit}
    (h : forEach items act c = .ok u c') :
    R items c c' := by
  unfold forEach at h
  induction items generalizing c with
  | nil =>
      cases h
      exact nil _
  | cons a items ih =>
      rw [List.forIn_cons] at h
      obtain ⟨_, c₁, step, rest⟩ := bind_ok h
      obtain ⟨_, c₂, acted, yielded⟩ := bind_ok step
      cases yielded
      refine cons a List.mem_cons_self items c c₁ c' acted ?_
      exact ih (fun b mem => cons b (List.mem_cons_of_mem _ mem)) rest

theorem outputFiles_add {paths : List String} {c c' : Capture} {u : PUnit}
    (h : forEach paths (outputFile settings top root) c = .ok u c') :
    ∃ files, Adds top root c c' files [] ∧ (files.map OutputFile.path).Sublist paths := by
  refine forEach_ok (R := fun paths c c' => ∃ files, Adds top root c c' files [] ∧
    (files.map OutputFile.path).Sublist paths) ?_ ?_ h
  · exact fun c => ⟨[], .of_leads (.refl c) rfl, List.Sublist.refl _⟩
  · intro path _ rest c c' c'' step rest
    obtain ⟨files, adds, paths⟩ := outputFile_adds step
    obtain ⟨files', adds', paths'⟩ := rest
    refine ⟨files ++ files', adds.trans adds', ?_⟩
    rw [List.map_append]
    exact paths.append paths'

theorem outputDirectories_add {paths : List String} {c c' : Capture} {u : PUnit}
    (plain : ∀ path ∈ paths, ∀ entries, top.declared? root path = some (.directory entries) →
      (FileTree.directory entries).IsPlain)
    (h : forEach paths (outputDirectory settings top root) c = .ok u c') :
    ∃ directories, Adds top root c c' [] directories ∧
      (directories.map OutputDirectory.path).Sublist paths := by
  refine forEach_ok (R := fun paths c c' => ∃ directories, Adds top root c c' [] directories ∧
    (directories.map OutputDirectory.path).Sublist paths) ?_ ?_ h
  · exact fun c => ⟨[], .of_leads (.refl c) rfl, List.Sublist.refl _⟩
  · intro path mem rest c c' c'' step rest
    obtain ⟨directories, adds, paths⟩ := outputDirectory_adds (plain path mem) step
    obtain ⟨directories', adds', paths'⟩ := rest
    refine ⟨directories ++ directories', adds.trans adds', ?_⟩
    rw [List.map_append]
    exact paths.append paths'

/-- What becomes of a state when standard output and error are moved. -/
structure Moves (c c' : Capture) : Prop where
  evolves : c.depot.store.Evolves c'.depot.store
  /-- The recorded files stay. -/
  files_eq : c'.result.outputFiles = c.result.outputFiles
  /-- The recorded directories stay. -/
  directories_eq : c'.result.outputDirectories = c.result.outputDirectories

theorem relocateStreams_moves {c c' : Capture} (h : relocateStreams settings c = .ok () c') :
    c.Moves c' := by
  have evolves := relocateStreams_evolves settings c
  have files := relocateStreams_apart ActionResult.outputFiles
    StandardStream.outputFiles_note settings c
  have directories := relocateStreams_apart ActionResult.outputDirectories
    StandardStream.outputDirectories_note settings c
  rw [h] at evolves files directories
  exact ⟨evolves, files, directories⟩

/-- A capture that succeeds adds records of what is there, and stops with no violation. -/
theorem outputs_ok {action : Digest} {files directories : List String} {c c' : Capture}
    (plain : ∀ path ∈ directories, ∀ entries,
      top.declared? root path = some (.directory entries) → (FileTree.directory entries).IsPlain)
    (h : outputs settings top root action files directories c = .ok () c') :
    ∃ c₁ newFiles newDirectories, Adds top root c c₁ newFiles newDirectories ∧
      c₁.violations = [] ∧ c₁.Moves c' ∧ (newFiles.map OutputFile.path).Sublist files ∧
      (newDirectories.map OutputDirectory.path).Sublist directories := by
  unfold outputs at h
  obtain ⟨_, c₁, first, rest⟩ := bind_ok h
  obtain ⟨newFiles, adds, paths⟩ := outputFiles_add first
  obtain ⟨_, c₂, second, rest⟩ := bind_ok rest
  obtain ⟨newDirectories, adds', paths'⟩ := outputDirectories_add plain second
  obtain ⟨_, _, got, rest⟩ := bind_ok rest
  cases got
  have adds := adds.trans adds'
  rw [List.append_nil, List.nil_append] at adds
  cases clean : c₂.violations with
  | nil =>
      rw [clean] at rest
      exact ⟨c₂, newFiles, newDirectories, adds, clean, relocateStreams_moves rest, paths, paths'⟩
  | cons v rest_ =>
      rw [clean] at rest
      obtain ⟨_, _, thrown, -⟩ := bind_ok rest
      cases thrown

end

end Capture

namespace Depot

/-- **What a successful capture records can be rebuilt from the store.** -/
theorem captureOutputs_rebuilds {d : Depot} {settings : CaptureSettings} {top : FileTree}
    {root : FileTree.Place} {action : Digest} {result : ActionResult}
    {files directories : List String} (reachable : d.store.Reachable)
    (plain : ∀ path ∈ directories, ∀ entries,
      top.declared? root path = some (.directory entries) → (FileTree.directory entries).IsPlain)
    {result' : ActionResult} {d' : Depot}
    (captured : d.captureOutputs settings top root action result files directories =
      (.ok (), result', d'))
    (distinguishes : Digest.Distinguishes
      (top.digestedAt root (files ++ directories) ++ d'.store.blobs.map Prod.snd)) :
    ∃ newFiles newDirectories,
      result'.outputFiles = result.outputFiles ++ newFiles ∧
      (newFiles.map OutputFile.path).Sublist files ∧
      result'.outputDirectories = result.outputDirectories ++ newDirectories ∧
      (newDirectories.map OutputDirectory.path).Sublist directories ∧
      (∀ f ∈ newFiles, ∃ content mode,
        top.declared? root f.path = some (.file content mode) ∧
        f.digest = .ofBytes content ∧ f.isExecutable = FileTree.isExecutable mode ∧
        (f.digest.isEmpty = false → (d'.store.get f.digest).1 = some ⟨f.digest, content⟩)) ∧
      ∀ o ∈ newDirectories, ∃ entries text, ∃ tree : Tree,
        top.declared? root o.path = some (.directory entries) ∧
        (d'.store.get o.treeDigest).1 = some ⟨o.treeDigest, text⟩ ∧
        Message.decode? text = some tree ∧
        tree.Rebuilds d'.store (.directory entries) := by
  unfold captureOutputs at captured
  split at captured
  next c' ok =>
    cases captured
    obtain ⟨c₁, newFiles, newDirectories, adds, clean, moves, paths, paths'⟩ :=
      Capture.outputs_ok plain ok
    -- What the store holds in the end is genuine, so a digest fetches the only content it can.
    have sound : c'.depot.store.Sound :=
      moves.evolves.sound (adds.leads.evolves.sound reachable.sound)
    have fetch {content : ByteArray} (mem : content ∈ top.digestedAt root (files ++ directories))
        (there : c₁.depot.store.contains (.ofBytes content) = true) :
        (c'.depot.store.get (.ofBytes content)).1 = some ⟨.ofBytes content, content⟩ := by
      refine sound.get_ofBytes (distinguishes.mono fun data within => ?_)
        (moves.evolves.contains there)
      rcases List.mem_cons.1 within with rfl | stored
      · exact List.mem_append_left _ mem
      · exact List.mem_append_right _ stored
    refine ⟨newFiles, newDirectories, moves.files_eq.trans adds.files_eq, paths,
      moves.directories_eq.trans adds.directories_eq, paths', fun f mem => ?_, fun o mem => ?_⟩
    · obtain ⟨content, mode, declared, digest, executable, keeps⟩ := adds.files_recorded f mem
      refine ⟨content, mode, declared, digest, executable, fun filled => ?_⟩
      rw [digest] at keeps filled ⊢
      have listed : f.path ∈ files ++ directories :=
        List.mem_append_left _ (paths.subset (List.mem_map_of_mem mem))
      exact fetch (FileTree.mem_digestedAt listed declared (List.mem_singleton_self _))
        (keeps filled clean)
    · obtain ⟨entries, declared, digest, keeps, contents⟩ := adds.directories_recorded o mem
      have listed : o.path ∈ directories := paths'.subset (List.mem_map_of_mem mem)
      have plain := plain o.path listed entries declared
      have digested {text : ByteArray} (mem : text ∈ (FileTree.directory entries).digested) :
          text ∈ top.digestedAt root (files ++ directories) :=
        FileTree.mem_digestedAt (List.mem_append_right _ listed) declared mem
      -- The tree was made of the sorted directory, and sorting changes no place.
      let t := (FileTree.directory entries).sorted
      have texts {text : ByteArray} (mem : text ∈ t.walked.texts) :
          text ∈ (FileTree.directory entries).digested :=
        List.mem_append_right _ mem
      have isDirectory : t.isDirectory = true := FileTree.isDirectory_sorted _
      have expands (path : List String) (e : TreeEntry) :
          t.walked.tree.Expands t.walked.tree.root path e ↔
            (FileTree.directory entries).leadsTo path = some e := by
        rw [FileTree.expands_tree_iff plain.sorted isDirectory (distinguishes.mono
          fun text mem => List.mem_append_left _ (digested (texts mem)))]
        rw [plain.leadsTo_sorted]
      refine ⟨entries, Message.encode t.walked.tree, t.walked.tree, declared, ?_,
        Message.decode?_encode _, expands, ?_⟩
      · rw [digest] at keeps ⊢
        exact fetch (digested (texts List.mem_cons_self)) (keeps clean)
      · intro path digest executable met filled
        obtain ⟨content, mode, there, rfl⟩ := FileTree.at?_of_leadsTo ((expands path _).1 met)
        refine ⟨content, mode, there, ?_⟩
        have sorted : t.at? (path.map String.toUTF8) = some (.file content mode) := by
          rw [plain.at?_sorted, there]
          rfl
        have mem : content ∈ t.contents := FileTree.mem_contents_of_at? sorted
        exact fetch (digested (List.mem_append_left _ mem)) (contents content mem filled clean)
  next => cases captured

/-! ### A capture that succeeds -/

/-- The content of a file. -/
def sampleContent : ByteArray := "x".toUTF8

/-- A directory with a file. -/
def sampleDirectory : FileTree := .directory [("a".toUTF8, .file sampleContent 0o755)]

/-- A disk with the directory. -/
def sampleDisk : FileTree := .directory [("o".toUTF8, sampleDirectory)]

/-- The file and the directory are captured into a new store. -/
def sampleRun : Except ExecutionError Unit × ActionResult × Depot :=
  (ofStore (.ofLimit 0)).captureOutputs {} sampleDisk [] .empty {} ["o/a"] ["o"]

theorem sampleDirectory_plain : sampleDirectory.IsPlain := by
  refine .directory _ (by decide +kernel) ?_ ?_
  · intro e mem
    cases List.mem_singleton.1 mem
    constructor <;> decide +kernel
  · intro e mem
    cases List.mem_singleton.1 mem
    exact .file _ _

theorem sampleDisk_declared : sampleDisk.declared? [] "o" = some sampleDirectory := rfl

theorem sampleFile_declared :
    sampleDisk.declared? [] "o/a" = some (.file sampleContent 0o755) := by
  with_unfolding_all rfl

theorem sampleDisk_digested : sampleDisk.digestedAt [] ["o/a", "o"] =
    [sampleContent, sampleContent, Message.encode sampleDirectory.walked.tree] := by
  with_unfolding_all rfl

theorem sampleRun_stores : sampleRun.1.isOk = true ∧ sampleRun.2.2.store.blobs.map Prod.snd =
    [sampleContent, Message.encode sampleDirectory.walked.tree] := by
  decide +kernel

theorem sampleRun_records :
    sampleRun.2.1.outputFiles = [⟨"o/a", .ofBytes sampleContent, true⟩] ∧
    sampleRun.2.1.outputDirectories = [⟨"o", .ofMessage sampleDirectory.walked.tree⟩] := by
  decide +kernel

/-- The file and the directory are recorded, and both can be rebuilt. -/
theorem sampleRun_rebuilds : sampleRun.1 = .ok () ∧
    sampleRun.2.1.outputFiles = [⟨"o/a", .ofBytes sampleContent, true⟩] ∧
    sampleRun.2.1.outputDirectories = [⟨"o", .ofMessage sampleDirectory.walked.tree⟩] ∧
    (∀ f ∈ sampleRun.2.1.outputFiles,
      (sampleRun.2.2.store.get f.digest).1 = some ⟨f.digest, sampleContent⟩) ∧
    ∀ o ∈ sampleRun.2.1.outputDirectories, ∃ text, ∃ tree : Tree,
      (sampleRun.2.2.store.get o.treeDigest).1 = some ⟨o.treeDigest, text⟩ ∧
      Message.decode? text = some tree ∧ tree.Rebuilds sampleRun.2.2.store sampleDirectory := by
  have ok : sampleRun.1 = .ok () := by
    have isOk := sampleRun_stores.1
    cases h : sampleRun.1 with
    | ok => rfl
    | error e =>
        rw [h] at isOk
        cases isOk
  have distinguishes : Digest.Distinguishes (sampleDisk.digestedAt [] (["o/a"] ++ ["o"]) ++
      sampleRun.2.2.store.blobs.map Prod.snd) := by
    have pair : Digest.Distinguishes [sampleContent, Message.encode sampleDirectory.walked.tree] :=
      Digest.distinguishes_pair (by decide +kernel)
    refine pair.mono fun text mem => ?_
    rw [List.singleton_append, sampleDisk_digested, sampleRun_stores.2] at mem
    simp only [List.cons_append, List.nil_append, List.mem_cons, List.not_mem_nil] at mem ⊢
    tauto
  obtain ⟨newFiles, newDirectories, addedFiles, -, added, -, fetched, recorded⟩ :=
    @captureOutputs_rebuilds (ofStore (.ofLimit 0)) {} sampleDisk [] .empty {} ["o/a"] ["o"]
      ⟨0, .refl⟩
      (by
        intro path mem entries declared
        cases List.mem_singleton.1 mem
        rw [sampleDisk_declared] at declared
        rw [← Option.some.inj declared]
        exact sampleDirectory_plain)
      sampleRun.2.1 sampleRun.2.2 (Prod.ext ok rfl) distinguishes
  obtain ⟨file, directory⟩ := sampleRun_records
  rw [show ({} : ActionResult).outputFiles = [] from rfl, List.nil_append] at addedFiles
  rw [show ({} : ActionResult).outputDirectories = [] from rfl, List.nil_append] at added
  refine ⟨ok, file, directory, fun f mem => ?_, fun o mem => ?_⟩
  · obtain ⟨content, mode, declared, -, -, whole⟩ := fetched f (addedFiles ▸ mem)
    rw [file, List.mem_singleton] at mem
    subst mem
    rw [sampleFile_declared] at declared
    cases declared
    exact whole (by decide +kernel)
  · obtain ⟨entries, text, tree, declared, found, decoded, rebuilds⟩ := recorded o (added ▸ mem)
    rw [directory, List.mem_singleton] at mem
    subst mem
    rw [sampleDisk_declared] at declared
    rw [← Option.some.inj declared] at rebuilds
    exact ⟨text, tree, found, decoded, rebuilds⟩

end Depot

end BuildWorker
