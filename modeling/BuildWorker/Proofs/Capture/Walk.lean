import BuildWorker.Proofs.Capture.Insertion
import BuildWorker.Proofs.Capture.Listing
import BuildWorker.Proofs.Files.Regular

/-!
# Walking a directory

A walk that succeeds tells the listing of the directory (`Capture.walk_ok`): that of
`FileTree.walked`, with the contents of all files in the store.

A capture goes on after content that the store refuses for its size, and reports it. What a step
has stored is therefore said of a capture without violations (`Capture.Keeps`), and that there are
none in the end means that there were none before (`Capture.Leads`).
-/

namespace BuildWorker.Capture

/-! ### Steps that succeed -/

theorem bind_ok {α β : Type} {x : Capturing α} {f : α → Capturing β} {c c'' : Capture} {b : β}
    (h : (x >>= f) c = .ok b c'') : ∃ a c', x c = .ok a c' ∧ f a c' = .ok b c'' := by
  simp only [bind, EStateM.bind] at h
  split at h
  next a c' eq => exact ⟨a, c', eq, h⟩
  next => cases h

theorem checkInterrupted_ok {c c' : Capture} (h : checkInterrupted c = .ok () c') : c' = c := by
  obtain ⟨_, _, got, h⟩ := bind_ok h
  cases got
  by_cases interrupted : c.depot.interrupted
  · rw [if_pos interrupted] at h
    cases h
  · rw [if_neg interrupted] at h
    cases h
    rfl

theorem find_ok {top : FileTree} {place : FileTree.Place} {path : ByteArray}
    {found : Option (FileTree.Place × FileTree)} {c c' : Capture}
    (h : Capture.find top place path c = .ok found c') :
    top.find place path = .ok found ∧ c' = c := by
  unfold Capture.find at h
  generalize top.find place path = answer at h
  cases answer with
  | error e => cases h
  | ok found =>
      cases h
      exact ⟨rfl, rfl⟩

theorem atDepot_run {α : Type} (f : Depot → Except ExecutionError α × Depot) (c : Capture) :
    atDepot f c = match (f c.depot).1 with
      | .ok a => .ok a { c with depot := (f c.depot).2 }
      | .error e => .error e { c with depot := (f c.depot).2 } := by
  have got : (get : Capturing Capture) c = .ok c c := rfl
  have put (c' : Capture) : (set c' : Capturing PUnit) c = .ok ⟨⟩ c' := rfl
  simp only [atDepot, bind, EStateM.bind, got, put]
  cases (f c.depot).1 <;> rfl

theorem reportOversized_run (act : Capturing Unit) (c : Capture) :
    reportOversized act c = match act c with
      | .ok () c' => .ok () c'
      | .error (.store (.entryLimit digest)) c' => report (.oversized digest) c'
      | .error e c' => .error e c' := by
  simp only [reportOversized, tryCatch, tryCatchThe, MonadExceptOf.tryCatch, EStateM.tryCatch]
  cases act c with
  | ok => rfl
  | error e c' =>
      dsimp only
      split
      · rfl
      next other =>
        split
        next eq => cases eq
        next eq =>
          cases eq
          exact absurd rfl (other _)
        next eq =>
          cases eq
          rfl

/-! ### What a part of a capture keeps -/

/-- What a successful part of a capture does to the state: the store evolves, and violations
stay. -/
structure Leads (c c' : Capture) : Prop where
  evolves : c.depot.store.Evolves c'.depot.store
  /-- There are no violations in the end only if there were none before. -/
  clean : c'.violations = [] → c.violations = []

theorem Leads.refl (c : Capture) : c.Leads c := ⟨.refl, id⟩

theorem Leads.trans {c c' c'' : Capture} (h : c.Leads c') (h' : c'.Leads c'') : c.Leads c'' :=
  ⟨h.evolves.trans h'.evolves, h.clean ∘ h'.clean⟩

/-- Unless there are violations, a digest is in the store. -/
def Keeps (c : Capture) (digest : Digest) : Prop :=
  c.violations = [] → c.depot.store.contains digest = true

theorem Keeps.leads {c c' : Capture} {digest : Digest} (h : c.Keeps digest) (leads : c.Leads c') :
    c'.Keeps digest :=
  fun clean => leads.evolves.contains (h (leads.clean clean))

/-- Something done with the depot, where content that is too large is reported: unless there is a
violation in the end, it was done. -/
theorem reportOversized_ok {f : Depot → Except ExecutionError Unit × Depot} {c c' : Capture}
    (evolves : c.depot.store.Evolves (f c.depot).2.store)
    (h : reportOversized (atDepot f) c = .ok () c') :
    c.Leads c' ∧ c'.result = c.result ∧
      (c'.violations = [] → (f c.depot).1 = .ok () ∧ c'.depot = (f c.depot).2) := by
  rw [reportOversized_run, atDepot_run] at h
  generalize f c.depot = r at h evolves
  obtain ⟨answer, d⟩ := r
  cases answer with
  | ok =>
      cases h
      exact ⟨⟨evolves, id⟩, rfl, fun _ => ⟨rfl, rfl⟩⟩
  | error e =>
      dsimp only at h
      split at h
      next eq => cases eq
      next eq =>
        cases eq
        cases h
        -- A report leaves a violation, and then nothing is claimed.
        have reported {violations : List Violation} {v : Violation} {p : Prop}
            (none_ : violations ++ [v] = []) : p :=
          absurd none_ (List.append_ne_nil_of_right_ne_nil _ (List.cons_ne_nil _ _))
        exact ⟨⟨evolves, reported⟩, rfl, reported⟩
      next => cases h

theorem captureContent_ok {settings : CaptureSettings} {content : ByteArray} {digest : Digest}
    {c c' : Capture} (h : captureContent settings content c = .ok digest c') :
    digest = .ofBytes content ∧ c.Leads c' ∧ c'.result = c.result ∧
      (digest.isEmpty = false → c'.Keeps digest) := by
  have stores := c.depot.insert_stores settings.writeDeadline content
  unfold captureContent at h
  generalize Digest.ofBytes content = own at h stores
  obtain ⟨_, c'', reported, h⟩ := bind_ok h
  cases h
  obtain ⟨leads, result, done⟩ := reportOversized_ok stores.1 reported
  refine ⟨rfl, leads, result, fun filled clean => ?_⟩
  obtain ⟨ok, depot⟩ := done clean
  rw [depot]
  rcases stores.2 ok with empty | there
  · rw [filled] at empty
    cases empty
  · exact there

theorem putBlob_ok {data : ByteArray} {c c' : Capture}
    (h : reportOversized (putBlob (.ofBytes data)) c = .ok () c') :
    c.Leads c' ∧ c'.result = c.result ∧ c'.Keeps (.ofBytes data) := by
  have stores := c.depot.put_stores data
  obtain ⟨leads, result, done⟩ := reportOversized_ok stores.1 h
  refine ⟨leads, result, fun clean => ?_⟩
  obtain ⟨ok, depot⟩ := done clean
  rw [depot]
  generalize c.depot.put (.ofBytes data) = r at stores ok
  obtain ⟨answer, d⟩ := r
  cases answer with
  | ok => exact stores.2 rfl
  | error => cases ok

/-! ### Walking -/

/-- Unless there are violations, the contents are in the store, apart from empty ones. -/
def KeepsAll (c : Capture) (contents : List ByteArray) : Prop :=
  ∀ content ∈ contents, (Digest.ofBytes content).isEmpty = false → c.Keeps (.ofBytes content)

theorem KeepsAll.leads {c c' : Capture} {contents : List ByteArray} (h : c.KeepsAll contents)
    (leads : c.Leads c') : c'.KeepsAll contents :=
  fun content mem filled => (h content mem filled).leads leads

theorem KeepsAll.append {c : Capture} {these those : List ByteArray} (h : c.KeepsAll these)
    (h' : c.KeepsAll those) : c.KeepsAll (these ++ those) := by
  intro content mem
  rcases List.mem_append.1 mem with mem | mem
  · exact h content mem
  · exact h' content mem

/-- What a successful walk returns and leaves. -/
structure Walked (c c' : Capture) (contents : List ByteArray) : Prop where
  /-- The capture goes on. -/
  leads : c.Leads c'
  result_eq : c'.result = c.result
  /-- The contents are in the store. -/
  keeps : c'.KeepsAll contents

/-- A walk of entries, each of which is walked as it should be. -/
theorem walkEntries_ok {settings : CaptureSettings} {top : FileTree} {place : FileTree.Place}
    {entries : List (FileName × FileTree)}
    (plain : ∀ e ∈ entries, e.2.IsPlain)
    (files : ∀ name content mode, (name, .file content mode) ∈ entries →
      top.find place name = .ok (some (place ++ [name], .file content mode)))
    (directories : ∀ name inner, (name, .directory inner) ∈ entries → ∀ c c' captured,
      walk settings top (place ++ [name]) (.directory inner) c = .ok captured c' →
        captured = FileTree.walked (.directory inner) ∧
          Walked c c' (FileTree.contents (.directory inner)))
    {c c' : Capture} {captured : CapturedEntries}
    (h : walkEntries settings top place entries c = .ok captured c') :
    captured = FileTree.walkedEntries entries ∧ Walked c c' (FileTree.entryContents entries) := by
  induction entries generalizing c c' captured with
  | nil =>
      unfold walkEntries at h
      cases h
      exact ⟨rfl, .refl c, rfl, nofun⟩
  | cons e rest ih =>
      obtain ⟨name, t⟩ := e
      -- The hypotheses about all entries hold of the rest, from whatever state the walk goes on.
      have ih {c c' : Capture} {captured : CapturedEntries} :=
        @ih (fun e mem => plain e (List.mem_cons_of_mem _ mem))
          (fun name content mode mem => files name content mode (List.mem_cons_of_mem _ mem))
          (fun name inner mem => directories name inner (List.mem_cons_of_mem _ mem)) c c' captured
      unfold walkEntries at h
      obtain ⟨_, _, check, h⟩ := bind_ok h
      rw [checkInterrupted_ok check] at h
      cases plain _ List.mem_cons_self with
      | directory inner =>
          obtain ⟨child, c₁, walked, h⟩ := bind_ok h
          obtain ⟨rfl, first⟩ := directories name inner List.mem_cons_self _ _ _ walked
          obtain ⟨others, c₂, walked, h⟩ := bind_ok h
          obtain ⟨rfl, second⟩ := ih walked
          cases h
          refine ⟨rfl, first.leads.trans second.leads, second.result_eq.trans first.result_eq, ?_⟩
          exact (first.keeps.leads second.leads).append second.keeps
      | file content mode =>
          obtain ⟨found, _, looked, h⟩ := bind_ok h
          obtain ⟨found_eq, rfl⟩ := find_ok looked
          rw [files name content mode List.mem_cons_self] at found_eq
          cases found_eq
          obtain ⟨digest, c₁, stored, h⟩ := bind_ok h
          obtain ⟨rfl, leads, result, keeps⟩ := captureContent_ok stored
          obtain ⟨others, c₂, walked, h⟩ := bind_ok h
          obtain ⟨rfl, second⟩ := ih walked
          cases h
          refine ⟨rfl, leads.trans second.leads, second.result_eq.trans result, ?_⟩
          refine KeepsAll.append ?_ second.keeps
          intro content' mem filled
          cases List.mem_singleton.1 mem
          exact (keeps filled).leads second.leads

/-- A successful walk of a plain directory returns its listing, and all that its files hold is in
the store. -/
theorem walk_ok {settings : CaptureSettings} {top : FileTree} {place : FileTree.Place}
    {t : FileTree} (plain : t.IsPlain) (isDirectory : t.isDirectory = true)
    (here : t = .empty ∨ top.at? place = some t) {c c' : Capture} {captured : CapturedDirectory}
    (h : walk settings top place t.sorted c = .ok captured c') :
    captured = t.sorted.walked ∧ Walked c c' t.sorted.contents := by
  induction plain generalizing place c c' captured with
  | file => cases isDirectory
  | directory entries distinct named plain ih =>
      have regular := FileTree.IsPlain.isRegular (.directory entries distinct named plain)
      have sorted := FileTree.IsPlain.sorted (.directory entries distinct named plain)
      rw [FileTree.sorted_directory] at h sorted ⊢
      unfold walk at h
      obtain ⟨_, _, check, h⟩ := bind_ok h
      rw [checkInterrupted_ok check] at h
      obtain ⟨found, c₁, walked, h⟩ := bind_ok h
      cases h
      -- The unknown directory above the top looks empty, so whatever has entries is on the disk.
      have below {name : FileName} {t : FileTree} (mem : (name, t) ∈ entries) :
          top.at? place = some (.directory entries) ∧ entries.lookup name = some t := by
        refine ⟨?_, (lookup_eq_some_iff_mem distinct).2 mem⟩
        rcases here with empty | here
        · cases empty
          cases mem
        · exact here
      -- The entries are walked sorted, but each is found on the disk as it is.
      have walked_ok := walkEntries_ok ?plain ?files ?directories walked
      case plain =>
        cases sorted with
        | directory _ _ _ plain => exact plain
      case files =>
        intro name content mode mem
        obtain ⟨t, mem, eq⟩ := FileTree.mem_orderedEntries.1 mem
        cases t with
        | file =>
            cases eq
            exact FileTree.find_entry (below mem).1 regular mem
        | directory | link | special => cases eq
      case directories =>
        intro name inner mem c c' captured h
        obtain ⟨t, mem, eq⟩ := FileTree.mem_orderedEntries.1 mem
        rw [← eq] at h ⊢
        refine ih (name, t) mem ?_ (.inr ?_) h
        · rw [← FileTree.isDirectory_sorted, eq]
          rfl
        · exact (FileTree.at?_entry (below mem).1 name).trans (below mem).2
      obtain ⟨rfl, rest⟩ := walked_ok
      exact ⟨rfl, rest⟩

end BuildWorker.Capture
