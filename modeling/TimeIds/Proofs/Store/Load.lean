import TimeIds.Proofs.Disk.Confined
import TimeIds.Proofs.Document.RoundTrip
import TimeIds.Proofs.Store.Save

/-!
# Loading a store

There are two ways to come by the text of a document. A store that only reads it reads at once, and
one that writes it asks first whether there is one, since it can do without. What is made of the
text is the same for both, and so is what a failure leaves: loading gives a store only at its very
end.

* **`Store.loading_load`** – all that loading can come to;
* **`Store.loaded_of_load`** – what it makes of the store, if it succeeds;
* **`Store.load_of_holds`** – a document that was saved is loaded as it is;
* **`Store.tree_load`** – no file is changed.
-/

namespace TimeIds

variable {σ : Type} [Disk (StateM σ)]

/-- A text with entries is a document, whatever is drawn for the sequences that are missing. -/
theorem Document.ofText_of_entries {s : String} {e : Entries} (h : Json.entries s = .ok e)
    (sequence : Nat → UInt16) : ofText sequence s = .ok (e.document sequence) := by
  unfold ofText
  rw [h]

namespace Store

/-- The store reads the text of its document, to that result. -/
inductive Reads (d : σ) : Store → Except FileFault String → σ → Prop
  | resource {path : Path} {nodes : List Node} {result : Except FileFault String} {d' : σ}
      (hread : (Disk.readText path : OnDisk σ (Except FileFault String)) d = (result, d')) :
      Reads d (.resource (some path) nodes) result d'
  | file {f : FileStore} {d₁ : σ} {result : Except FileFault String} {d' : σ}
      (hpresent : (Disk.isPresent f.path : OnDisk σ Bool) d = (true, d₁))
      (hread : (Disk.readText f.path : OnDisk σ (Except FileFault String)) d₁ = (result, d')) :
      Reads d (.file f) result d'

/-- How a store that cannot read its document says so. -/
def unreadable : Store → FileFault → IdError
  | resource (some path) _, fault => .configuration (.unreadable path fault)
  | _, fault => .file fault

/-- The store after its document was read. -/
def reread (s : Store) (doc : Document) : Store :=
  match s with
  | memory nodes => .memory nodes
  | resource path _ => .resource path doc.nodes
  | file f => .file (f.loaded doc)

/-- What a store makes of the result of reading. -/
def taken (s : Store) (sequence : Nat → UInt16) : Except FileFault String → Except IdError Store
  | .error fault => .error (s.unreadable fault)
  | .ok text => (Document.ofText sequence text).map s.reread

variable {sequence : Nat → UInt16} {s : Store} {d d' : σ}

/-- A text that is no document makes no store, of either kind. -/
theorem taken_of_rejected {text : String} {fault : Json.Fault}
    (hentries : Json.entries text = .error fault) :
    s.taken sequence (.ok text) = .error (.json fault) := by
  unfold taken Document.ofText
  dsimp only
  rw [hentries]
  rfl

/-- A text with entries makes a store of either kind. -/
theorem taken_of_read {text : String} {e : Entries} (hentries : Json.entries text = .ok e) :
    s.taken sequence (.ok text) = .ok (s.reread (e.document sequence)) := by
  unfold taken
  dsimp only
  rw [Document.ofText_of_entries hentries]
  rfl

/-- **Once the text is read, both kinds of stores load alike.** All that tells them apart is how
they read, and how they name a fault in it. -/
theorem load_of_reads {result : Except FileFault String} (hreads : s.Reads d result d')
    (sequence : Nat → UInt16) :
    (s.load sequence : OnDisk σ (Except IdError Store)) d = (s.taken sequence result, d') := by
  cases hreads with
  | resource hread =>
    unfold load
    dsimp only
    rw [OnDisk.bind_apply, hread]
    cases result <;> rfl
  | @file f d₁ _ _ hpresent hread =>
    unfold load FileStore.load
    dsimp only
    rw [OnDisk.bind_apply, OnDisk.bind_apply, hpresent]
    dsimp only
    rw [if_pos rfl, OnDisk.bind_apply, hread]
    cases result with
    | error fault => rfl
    | ok text =>
      unfold taken
      dsimp only
      -- the reader of the text is the same, and fails before a store is made
      cases Document.ofText sequence text <;> rfl

/-- A store that writes does without a document: it has no nodes then. -/
theorem load_of_missing {f : FileStore}
    (hmissing : (Disk.isPresent f.path : OnDisk σ Bool) d = (false, d')) (sequence : Nat → UInt16) :
    ((Store.file f).load sequence : OnDisk σ (Except IdError Store)) d =
      (.ok (.file { f with nodes := [] }), d') := by
  unfold load FileStore.load
  dsimp only
  rw [OnDisk.bind_apply, OnDisk.bind_apply, hmissing]
  rfl

/-- What loading a store comes to. -/
inductive Loading (sequence : Nat → UInt16) (d : σ) : Store → Except IdError Store × σ → Prop
  | given (nodes : List Node) : Loading sequence d (.memory nodes) (.ok (.memory nodes), d)
  | unconfigured (nodes : List Node) :
      Loading sequence d (.resource none nodes) (.error (.configuration .noResource), d)
  | missing {f : FileStore} {d' : σ}
      (hmissing : (Disk.isPresent f.path : OnDisk σ Bool) d = (false, d')) :
      Loading sequence d (.file f) (.ok (.file { f with nodes := [] }), d')
  | unreadable {s : Store} {fault : FileFault} {d' : σ} (hreads : s.Reads d (.error fault) d') :
      Loading sequence d s (.error (s.unreadable fault), d')
  | rejected {s : Store} {text : String} {fault : Json.Fault} {d' : σ}
      (hreads : s.Reads d (.ok text) d') (hentries : Json.entries text = .error fault) :
      Loading sequence d s (.error (.json fault), d')
  | read {s : Store} {text : String} {e : Entries} {d' : σ} (hreads : s.Reads d (.ok text) d')
      (hentries : Json.entries text = .ok e) :
      Loading sequence d s (.ok (s.reread (e.document sequence)), d')

/-- A text that is read decides by itself what loading comes to. -/
theorem loading_of_reads {result : Except FileFault String} (hreads : s.Reads d result d')
    (sequence : Nat → UInt16) :
    s.Loading sequence d ((s.load sequence : OnDisk σ (Except IdError Store)) d) := by
  rw [load_of_reads hreads]
  cases result with
  | error fault => exact .unreadable hreads
  | ok text =>
    cases hentries : Json.entries text with
    | error fault =>
      rw [taken_of_rejected hentries]
      exact .rejected hreads hentries
    | ok e =>
      rw [taken_of_read hentries]
      exact .read hreads hentries

/-- **What loading comes to.** -/
theorem loading_load (s : Store) (sequence : Nat → UInt16) (d : σ) :
    s.Loading sequence d ((s.load sequence : OnDisk σ (Except IdError Store)) d) := by
  cases s with
  | memory nodes => exact .given nodes
  | resource path nodes =>
    cases path with
    | none => exact .unconfigured nodes
    | some path => exact loading_of_reads (.resource rfl) sequence
  | file f =>
    cases hpresent : (Disk.isPresent f.path : OnDisk σ Bool) d with
    | mk present d₁ =>
      cases present with
      | false =>
        rw [load_of_missing hpresent]
        exact .missing hpresent
      | true => exact loading_of_reads (.file hpresent rfl) sequence

/-! ## What is left -/

/-- What loading makes of a store: given nodes stay as they are, and those of a document are read
anew. -/
inductive Loaded : Store → Store → Prop
  | memory (nodes : List Node) : Loaded (.memory nodes) (.memory nodes)
  | resource (path : Option Path) (nodes : List Node) {found : List Node}
      (hfound : Document.Storable found) : Loaded (.resource path nodes) (.resource path found)
  | file {f f' : FileStore} (hpath : f'.path = f.path) (hfound : Document.Storable f'.nodes) :
      Loaded (.file f) (.file f')

theorem Loaded.path? {s s' : Store} (h : s.Loaded s') : s'.path? = s.path? := by
  cases h with
  | memory nodes => rfl
  | resource path nodes hfound => rfl
  | file hpath hfound => exact congrArg some hpath

/-- Loading that succeeds keeps given nodes, and reads those of a document from it, so that they may
be stored. -/
theorem loaded_of_load {s s' : Store} {sequence : Nat → UInt16} {d d' : σ}
    (h : (s.load sequence : OnDisk σ (Except IdError Store)) d = (.ok s', d')) : s.Loaded s' := by
  have hloading := s.loading_load sequence d
  rw [h] at hloading
  cases hloading with
  | given nodes => exact .memory nodes
  -- a document that is missing has no nodes, and otherwise what is read is storable
  | missing => exact .file rfl ⟨List.nodup_nil, by simp⟩
  | read hreads hentries =>
    have hstorable := Document.storable_of_ofText (Document.ofText_of_entries hentries sequence)
    cases hreads with
    | resource => exact .resource _ _ hstorable
    | file => exact .file rfl hstorable

/-- Stores of one kind with one document, under one interval if it was given with the store. -/
inductive SameDocument : Store → Store → Prop
  | memory (nodes : List Node) : SameDocument (.memory nodes) (.memory nodes)
  | resource (path : Option Path) (nodes nodes' : List Node) :
      SameDocument (.resource path nodes) (.resource path nodes')
  | file {f f' : FileStore} (hpath : f'.path = f.path) (hoverride : f'.override = f.override) :
      SameDocument (.file f) (.file f')

theorem SameDocument.refl (s : Store) : s.SameDocument s := by
  cases s with
  | memory nodes => exact .memory nodes
  | resource path nodes => exact .resource path nodes nodes
  | file f => exact .file rfl rfl

theorem SameDocument.trans {s s' s'' : Store} (h : s.SameDocument s') (h' : s'.SameDocument s'') :
    s.SameDocument s'' := by
  cases h with
  | memory nodes => exact h'
  | resource path nodes nodes' =>
    cases h' with
    | resource _ _ nodes'' => exact .resource path nodes nodes''
  | file hpath hoverride =>
    cases h' with
    | file hpath' hoverride' => exact .file (hpath'.trans hpath) (hoverride'.trans hoverride)

/-- A save changes the nodes that a store knows, and no more. -/
theorem sameDocument_holding (s : Store) (nodes : List Node) :
    s.SameDocument (s.holding nodes) := by
  cases s with
  | memory kept => exact .memory kept
  | resource path kept => exact .resource path kept kept
  | file f => exact .file rfl rfl

/-- A document that is read gives a store its nodes and the documented interval, and no more. -/
theorem sameDocument_reread (s : Store) (doc : Document) : s.SameDocument (s.reread doc) := by
  cases s with
  | memory nodes => exact .memory nodes
  | resource path nodes => exact .resource path nodes doc.nodes
  | file f => exact .file rfl rfl

/-- Loading leaves a store on its document, with the interval it was given. -/
theorem sameDocument_of_load {s' : Store}
    (h : (s.load sequence : OnDisk σ (Except IdError Store)) d = (.ok s', d')) :
    s.SameDocument s' := by
  have hloading := s.loading_load sequence d
  rw [h] at hloading
  cases hloading with
  | given nodes => exact .memory nodes
  | missing => exact .file rfl rfl
  | read => exact sameDocument_reread s _

/-- A document that a store wrote, or might have written, loads as it is. -/
theorem load_of_holds {f : FileStore} {doc : Document} {t : FileTree}
    (hholds : t.Holds f.path doc.text) (hnodes : Document.Storable doc.nodes)
    (sequence : Nat → UInt16) :
    ((Store.file f).load sequence : OnTree (Except IdError Store)) t =
      (.ok (.file (f.loaded doc)), t) := by
  -- looking at a tree changes nothing, so the text is read from the same one
  have hpresent : (Disk.isPresent f.path : OnTree Bool) t = (true, t) := by
    rw [← hholds.isPresent]
    rfl
  have hread : (Disk.readText f.path : OnTree (Except FileFault String)) t = (.ok doc.text, t) := by
    rw [← hholds.readText]
    rfl
  rw [load_of_reads (.file hpresent hread)]
  unfold taken
  dsimp only
  rw [Document.ofText_text sequence hnodes]
  rfl

/-- Reading is looking whether a document is there and taking its text, and neither changes a
file. -/
theorem Reads.tree {tree : σ → FileTree} (htree : Disk.Follows tree) {s : Store} {d d' : σ}
    {result : Except FileFault String} (hreads : s.Reads d result d') : tree d' = tree d := by
  cases hreads with
  | @resource path nodes _ _ hread =>
    have hsame := htree.tree_readText path d
    rwa [hread] at hsame
  | @file f d₁ _ _ hpresent hread =>
    have hsame := htree.tree_isPresent f.path d
    have hsame' := htree.tree_readText f.path d₁
    rw [hpresent] at hsame
    rw [hread] at hsame'
    exact hsame'.trans hsame

/-- **Loading changes no file.** -/
theorem tree_load {tree : σ → FileTree} (htree : Disk.Follows tree) (s : Store)
    (sequence : Nat → UInt16) (d : σ) :
    tree ((s.load sequence : OnDisk σ (Except IdError Store)) d).2 = tree d := by
  have hloading := s.loading_load sequence d
  generalize (s.load sequence : OnDisk σ (Except IdError Store)) d = result at hloading ⊢
  cases hloading with
  | given => rfl
  | unconfigured => rfl
  | @missing f d' hmissing =>
    have hsame := htree.tree_isPresent f.path d
    rwa [hmissing] at hsame
  | unreadable hreads => exact hreads.tree htree
  | rejected hreads => exact hreads.tree htree
  | read hreads => exact hreads.tree htree

end Store
end TimeIds
