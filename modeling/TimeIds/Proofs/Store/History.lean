import TimeIds.Proofs.Store.Load

/-!
# A store after any history

A store is loaded and saved again and again, while others write its document or take it away. What
the next loading gives is all decided by what is then at the path, but for one thing: a document
that names no interval, or none at all, leaves the interval as it was. So nothing of what was loaded
or saved before gets mixed with what is read, and a loading that fails is as if it had not been
tried.

* **`StoreOnDisk.sameDocument_after`** – the document stays, and an interval that was given;
* **`StoreOnDisk.loadsAnew_of_reads`** – a loading that reads something;
* **`StoreOnDisk.loads_anew`** – the loading of any store after any history.
-/

namespace TimeIds

/-- What is asked of a store, and what others do to the files. -/
inductive StoreAction (σ : Type)
  | load (sequence : Nat → UInt16)
  | save (nodes : List Node)
  | saveAt (nodes : List Node) (ticks : Ticks)
  | outside (change : σ → σ)

/-- A store, and the file system. -/
structure StoreOnDisk (σ : Type) where
  store : Store
  disk : σ

variable {σ : Type}

namespace StoreOnDisk

/-- What there is after an operation that may fail: a failure leaves the store as it is. -/
def kept (s : StoreOnDisk σ) : Except IdError Store × σ → StoreOnDisk σ
  | (.ok store, disk) => ⟨store, disk⟩
  | (.error _, disk) => ⟨s.store, disk⟩

/-- The files are those that the operation leaves, be it refused or not. -/
theorem disk_kept (s : StoreOnDisk σ) (result : Except IdError Store × σ) :
    (s.kept result).disk = result.2 := by
  obtain ⟨outcome, d⟩ := result
  cases outcome <;> rfl

/-- A failure leaves the store, so only a success can take it to another document. -/
theorem sameDocument_kept {s : StoreOnDisk σ} {result : Except IdError Store × σ}
    (h : ∀ store d, result = (.ok store, d) → s.store.SameDocument store) :
    s.store.SameDocument (s.kept result).store := by
  obtain ⟨outcome, d⟩ := result
  cases outcome with
  | error e => exact .refl s.store
  | ok store => exact h store d rfl

end StoreOnDisk

variable [Disk (StateM σ)]

/-- What there is at a path: nothing, or what reading it comes to. -/
def Disk.found (path : Path) (d : σ) : Option (Except FileFault String) :=
  match (Disk.isPresent path : OnDisk σ Bool) d with
  | (false, _) => none
  | (true, d') => some ((Disk.readText path : OnDisk σ (Except FileFault String)) d').1

namespace StoreOnDisk

/-- Loads the store: the answer, and what there is after it. -/
def load (s : StoreOnDisk σ) (sequence : Nat → UInt16) : Except IdError Unit × StoreOnDisk σ :=
  let result := (s.store.load sequence : OnDisk σ (Except IdError Store)) s.disk
  (result.1.map fun _ => (), s.kept result)

/-- What there is after one of these. -/
def step (s : StoreOnDisk σ) : StoreAction σ → StoreOnDisk σ
  | .load sequence => (s.load sequence).2
  | .save nodes => s.kept ((s.store.save nodes : OnDisk σ (Except IdError Store)) s.disk)
  | .saveAt nodes ticks =>
    s.kept ((s.store.saveAt nodes ticks : OnDisk σ (Except IdError Store)) s.disk)
  | .outside change => { s with disk := change s.disk }

/-- What there is after a number of them. -/
def after (s : StoreOnDisk σ) (history : List (StoreAction σ)) : StoreOnDisk σ :=
  history.foldl step s

/-! ## The document stays the same -/

/-- Neither loading nor saving takes a store to another document, and others only have the files. -/
theorem sameDocument_step (s : StoreOnDisk σ) (a : StoreAction σ) :
    s.store.SameDocument (s.step a).store := by
  cases a with
  | load sequence => exact sameDocument_kept fun _ _ => Store.sameDocument_of_load
  | save nodes =>
    refine sameDocument_kept fun store d h => ?_
    rw [Store.eq_holding_of_save h]
    exact s.store.sameDocument_holding nodes
  | saveAt nodes ticks =>
    refine sameDocument_kept fun store d h => ?_
    rw [Store.eq_holding_of_save h]
    exact s.store.sameDocument_holding _
  | outside change => exact .refl s.store

/-- **The document stays**, and so does an interval that was given, whatever the history. -/
theorem sameDocument_after (s : StoreOnDisk σ) (history : List (StoreAction σ)) :
    s.store.SameDocument (s.after history).store := by
  induction history generalizing s with
  | nil => exact .refl s.store
  | cons a rest ih => exact (s.sameDocument_step a).trans (ih (s.step a))

/-! ## One loading -/

/-- What the loading of a store comes to where `found` is what there is of its document. A fault is
told as `unreadable` puts it, and a document with the interval `documented` gives the store the
interval `interval documented`. -/
structure LoadsAnew (sequence : Nat → UInt16) (found : Option (Except FileFault String))
    (unreadable : FileFault → IdError) (interval : Option UInt64 → UInt64) (before : Store)
    (answer : Except IdError Unit) (after : Store) : Prop where
  missing : found = none → answer = .ok () ∧ after.nodes = [] ∧ after.interval = interval none
  unreadable : ∀ fault, found = some (.error fault) → answer = .error (unreadable fault)
  rejected : ∀ text fault, found = some (.ok text) → Json.entries text = .error fault →
    answer = .error (.json fault)
  read : ∀ text e, found = some (.ok text) → Json.entries text = .ok e →
    let documented := e.interval.map fun v => v.word?.getD 0
    answer = .ok () ∧ Document.ofText sequence text = .ok ⟨documented, after.nodes⟩ ∧
      after.interval = interval documented
  failed : ∀ e, answer = .error e → after = before

/-- The interval after a document was read is decided by that of the document. -/
theorem interval_reread (s : Store) (doc : Document) :
    (s.reread doc).interval = (s.reread ⟨doc.interval, []⟩).interval := by
  cases s <;> rfl

variable {s : StoreOnDisk σ} {d' : σ}

/-- The nodes of a store that reads a document are those of the document. -/
theorem nodes_reread {store : Store} {d : σ} {result : Except FileFault String}
    (hreads : store.Reads d result d') (doc : Document) : (store.reread doc).nodes = doc.nodes := by
  cases hreads <;> rfl

/-- **A loading that reads something.** -/
theorem loadsAnew_of_reads {result : Except FileFault String}
    (hreads : s.store.Reads s.disk result d') (sequence : Nat → UInt16) :
    LoadsAnew sequence (some result) s.store.unreadable
      (fun documented => (s.store.reread ⟨documented, []⟩).interval) s.store
      (s.load sequence).1 (s.load sequence).2.store := by
  unfold load
  rw [Store.load_of_reads hreads]
  -- each way that reading can go makes one field of the conclusion say something
  cases result with
  | error fault =>
    refine ⟨nofun, ?_, nofun, nofun, fun _ _ => rfl⟩
    rintro fault' ⟨⟩
    rfl
  | ok text =>
    cases hentries : Json.entries text with
    | error fault =>
      rw [Store.taken_of_rejected hentries]
      refine ⟨nofun, nofun, ?_, ?_, fun _ _ => rfl⟩
      · rintro text' fault' ⟨⟩ hfault
        cases hentries.symm.trans hfault
        rfl
      · rintro text' e ⟨⟩ he
        cases hentries.symm.trans he
    | ok e =>
      rw [Store.taken_of_read hentries]
      refine ⟨nofun, nofun, ?_, ?_, nofun⟩
      · rintro text' fault' ⟨⟩ hfault
        cases hentries.symm.trans hfault
      · rintro text' e' ⟨⟩ he'
        cases hentries.symm.trans he'
        refine ⟨rfl, ?_, interval_reread s.store _⟩
        show _ = Except.ok (Document.mk _ (s.store.reread (e.document sequence)).nodes)
        rw [Document.ofText_of_entries hentries, nodes_reread hreads]
        rfl

/-- The interval of a store that writes, after a document was read. -/
theorem interval_loaded (f : FileStore) (doc : Document) :
    (f.loaded doc).interval = f.override.getD (doc.interval.getD f.interval) := by
  unfold FileStore.interval
  show f.override.getD (doc.interval.getD f.documented) = _
  -- an interval that was given hides both
  cases f.override <;> rfl

/-- A store on the document of a store that writes. -/
theorem loadsAnew_file {f : FileStore} (hsame : (Store.file f).SameDocument s.store)
    (sequence : Nat → UInt16) :
    LoadsAnew sequence (Disk.found f.path s.disk) .file
      (fun documented => f.override.getD (documented.getD s.store.interval)) s.store
      (s.load sequence).1 (s.load sequence).2.store := by
  obtain ⟨store, d⟩ := s
  cases hsame with
  | @file _ f' hpath hoverride =>
    rw [← hpath, ← hoverride]
    unfold Disk.found
    cases hpresent : (Disk.isPresent f'.path : OnDisk σ Bool) d with
    | mk present d₁ =>
      cases present with
      | false =>
        unfold load
        rw [Store.load_of_missing hpresent]
        -- there is nothing to be read, so nothing names an interval
        exact ⟨fun _ => ⟨rfl, rfl, interval_loaded f' ⟨none, []⟩⟩, nofun, nofun, nofun, nofun⟩
      | true =>
        have hloads := loadsAnew_of_reads (s := ⟨.file f', d⟩) (.file hpresent rfl) sequence
        -- the interval of the reading, as the statement writes it
        have hinterval : (fun documented => ((Store.file f').reread ⟨documented, []⟩).interval) =
            fun documented => f'.override.getD (documented.getD f'.interval) :=
          funext fun documented => interval_loaded f' ⟨documented, []⟩
        rw [hinterval] at hloads
        exact hloads

/-- A store on the document of a store that only reads. -/
theorem loadsAnew_resource {path : Path} {nodes : List Node}
    (hsame : (Store.resource (some path) nodes).SameDocument s.store) (sequence : Nat → UInt16) :
    LoadsAnew sequence (some ((Disk.readText path : OnDisk σ (Except FileFault String)) s.disk).1)
      (fun fault => .configuration (.unreadable path fault)) (fun _ => readOnlyInterval) s.store
      (s.load sequence).1 (s.load sequence).2.store := by
  obtain ⟨store, d⟩ := s
  cases hsame with
  | resource _ _ nodes' =>
    exact loadsAnew_of_reads (s := ⟨.resource (some path) nodes', d⟩) (.resource rfl) sequence

/-- Without a path there is nothing to be read, after any history. -/
theorem load_unconfigured {nodes : List Node}
    (hsame : (Store.resource none nodes).SameDocument s.store) (sequence : Nat → UInt16) :
    (s.load sequence).1 = .error (.configuration .noResource) ∧
      (s.load sequence).2.store = s.store := by
  obtain ⟨store, d⟩ := s
  cases hsame
  exact ⟨rfl, rfl⟩

/-- A store that only reads never asks to be flushed. -/
theorem interval_of_resource {path : Option Path} {nodes : List Node} {store : Store}
    (hsame : (Store.resource path nodes).SameDocument store) :
    store.interval = readOnlyInterval := by
  cases hsame
  rfl

/-! ## After any history -/

/-- **A store is loaded anew**, whatever was loaded and saved before, with or without success, and
whatever others did to the files meanwhile. A loading changes no file, and one that fails leaves the
store as it was. Otherwise the nodes are those that the text at the path is read as, or none where a
store that writes finds nothing there. Its interval is the one it was given, or else that of the
document, which counts as 0 if it cannot be used, or else the one it had. A store that only reads
goes the same way, but its interval is always the same, and it is a fault of the configuration that
there is no path, or that what is at the path cannot be read, be it missing or not. -/
theorem loads_anew {tree : σ → FileTree} (htree : Disk.Follows tree) (opened : StoreOnDisk σ)
    (history : List (StoreAction σ)) (sequence : Nat → UInt16) :
    let s := opened.after history
    let left := s.load sequence
    tree left.2.disk = tree s.disk ∧
      (∀ f, opened.store = .file f →
        LoadsAnew sequence (Disk.found f.path s.disk) .file
          (fun documented => f.override.getD (documented.getD s.store.interval)) s.store left.1
          left.2.store) ∧
      (∀ path nodes, opened.store = .resource path nodes →
        left.2.store.interval = readOnlyInterval ∧
          match path with
          | none => left.1 = .error (.configuration .noResource) ∧ left.2.store = s.store
          | some path =>
            LoadsAnew sequence
              (some ((Disk.readText path : OnDisk σ (Except FileFault String)) s.disk).1)
              (fun fault => .configuration (.unreadable path fault)) (fun _ => readOnlyInterval)
              s.store left.1 left.2.store) := by
  intro s left
  have hsame : opened.store.SameDocument s.store := opened.sameDocument_after history
  have hleft : s.store.SameDocument left.2.store := s.sameDocument_step (.load sequence)
  refine ⟨?_, fun f hf => ?_, fun path nodes hpath => ⟨?_, ?_⟩⟩
  · -- the store is kept or not, but the files are those that loading leaves
    show tree (s.kept _).disk = tree s.disk
    rw [disk_kept]
    exact Store.tree_load htree s.store sequence s.disk
  · rw [hf] at hsame
    exact loadsAnew_file hsame sequence
  · rw [hpath] at hsame
    exact interval_of_resource (hsame.trans hleft)
  · rw [hpath] at hsame
    cases path with
    | none => exact load_unconfigured hsame sequence
    | some path => exact loadsAnew_resource hsame sequence

/-- A document is loaded before there is one, saved, overwritten by others with one that names an
interval, loaded and saved again, and taken away. -/
def overwritten : List (StoreAction FileTree) :=
  [.load fun _ => 5, .save [⟨⟨2, 0, 0, 0, 0, 1⟩, 9, 5⟩],
    .outside (·.insert ["s.json"] (.file (.text "[7]"))), .load fun _ => 5,
    .saveAt [⟨⟨2, 0, 0, 0, 0, 2⟩, 9, 5⟩] 20, .outside (·.erase ["s.json"])]

/-- What is left of all that is the interval. -/
theorem loads_anew_where_a_document_was :
    let s := (⟨.file { path := ⟨"s.json"⟩ }, {}⟩ : StoreOnDisk FileTree).after overwritten
    Disk.Follows (id : FileTree → FileTree) ∧
      s.store.nodes = [⟨⟨2, 0, 0, 0, 0, 2⟩, 20, 5⟩] ∧
      (s.load fun _ => 5).1 = .ok () ∧ (s.load fun _ => 5).2.store.nodes = [] ∧
      (s.load fun _ => 5).2.store.interval = 7 := by
  intro s
  have hgone : Disk.found ⟨"s.json"⟩ s.disk = none :=
    Option.isNone_iff_eq_none.1 (by decide +kernel)
  have hinterval : s.store.interval = 7 := by decide +kernel
  obtain ⟨-, hfile, -⟩ := loads_anew Disk.follows_tree
    (⟨.file { path := ⟨"s.json"⟩ }, {}⟩ : StoreOnDisk FileTree) overwritten fun _ => 5
  obtain ⟨hanswer, hnodes, hkept⟩ := (hfile _ rfl).missing hgone
  simp only [Option.getD_none] at hkept
  exact ⟨Disk.follows_tree, by decide +kernel, hanswer, hnodes, hkept.trans hinterval⟩

/-- A store that only reads does not fail like one that writes, though there is something at the
path. -/
theorem load_of_a_directory :
    let t : FileTree := ⟨[(["s.json"], .directory)], []⟩
    let reading : StoreOnDisk FileTree := ⟨.resource (some ⟨"s.json"⟩) [], t⟩
    let writing : StoreOnDisk FileTree := ⟨.file { path := ⟨"s.json"⟩ }, t⟩
    t.isPresent ⟨"s.json"⟩ = true ∧
      (writing.load fun _ => 5).1 = .error (.file .isDirectory) ∧
      (reading.load fun _ => 5).1 = .error (.configuration (.unreadable ⟨"s.json"⟩ .isDirectory)) ∧
      (reading.load fun _ => 5).1 ≠ (writing.load fun _ => 5).1 :=
  ⟨by decide +kernel, rfl, rfl, nofun⟩

end StoreOnDisk
end TimeIds
