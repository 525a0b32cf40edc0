import TimeIds.Store
import TimeIds.Proofs.Disk.Replace

/-!
# Saving nodes in a store

A save checks the nodes for repeats. A store that writes then replaces its document, and nothing
else happens to the files; the store is afterwards the same but for the nodes it knows.

* **`Store.save_file`** – a save of a store that writes, step by step;
* **`Store.eq_holding_of_save`**, **`Store.disk_save`** – what becomes of a store, and of the files;
* **`Store.Within.save`** – what holds of every replacement of the document holds of saves.
-/

namespace TimeIds
namespace Store

/-- A store whose nodes were saved or loaded last. -/
def holding (nodes : List Node) : Store → Store
  | file f => .file { f with nodes }
  | s => s

/-- The interval is that of the document, or one given with the store, and not a matter of nodes. -/
theorem interval_holding (s : Store) (nodes : List Node) :
    (s.holding nodes).interval = s.interval := by
  cases s <;> rfl

theorem isReadOnly_holding (s : Store) (nodes : List Node) :
    (s.holding nodes).isReadOnly = s.isReadOnly :=
  congrArg (· == readOnlyInterval) (s.interval_holding nodes)

/-- The path of the document that a store writes, if it writes one. -/
def path? : Store → Option Path
  | file f => some f.path
  | _ => none

theorem path?_holding (s : Store) (nodes : List Node) : (s.holding nodes).path? = s.path? := by
  cases s <;> rfl

/-- Only one kind of store writes a document. -/
theorem exists_file_of_path? {s : Store} {path : Path} (h : s.path? = some path) :
    ∃ f, s = .file f ∧ f.path = path := by
  cases s with
  | file f => exact ⟨f, rfl, Option.some.inj h⟩
  | memory nodes => cases h
  | resource resource nodes => cases h

variable {σ : Type} [Disk (StateM σ)]

/-- A save checks the nodes, and then replaces the text of the document. -/
theorem save_file (f : FileStore) (nodes : List Node) (d : σ) :
    ((file f).save nodes : OnDisk σ (Except IdError Store)) d =
      match ensureDistinct nodes with
      | .error e => (.error e, d)
      | .ok () =>
        match (Disk.replaceText f.path (f.document nodes).text :
          OnDisk σ (Except FileFault Unit)) d with
        | (.error fault, d') => (.error (.file fault), d')
        | (.ok (), d') => (.ok (.file { f with nodes }), d') := by
  unfold save
  cases ensureDistinct nodes with
  | error e => rfl
  | ok _ =>
    dsimp only
    unfold FileStore.write
    rw [OnDisk.bind_apply, OnDisk.bind_apply]
    cases (Disk.replaceText f.path (f.document nodes).text :
      OnDisk σ (Except FileFault Unit)) d with
    | mk outcome d' => cases outcome <;> rfl

/-- A save that is not refused leaves the document of the nodes in the file. -/
theorem save_spec {f : FileStore} {nodes : List Node} {t t' : FileTree} {s : Store}
    (h : ((Store.file f).save nodes : OnTree (Except IdError Store)) t = (.ok s, t')) :
    s = .file { f with nodes } ∧ t'.Holds f.path (f.document nodes).text := by
  rw [save_file] at h
  split at h
  · cases h
  · split at h
    · cases h
    · next hreplace =>
      cases h
      exact ⟨rfl, FileTree.holds_of_replaceText hreplace⟩

/-- A store that writes no document only checks the nodes. -/
theorem save_of_no_path {s : Store} (h : s.path? = none) (nodes : List Node) (d : σ) :
    (s.save nodes : OnDisk σ (Except IdError Store)) d =
      ((ensureDistinct nodes).map fun _ => s, d) := by
  cases s with
  | file f => cases h
  | memory kept =>
    unfold save
    cases ensureDistinct nodes <;> rfl
  | resource path kept =>
    unfold save
    cases ensureDistinct nodes <;> rfl

/-- A save that is not refused leaves the store as it was, but for the nodes it knows. -/
theorem eq_holding_of_save {s s' : Store} {nodes : List Node} {d d' : σ}
    (h : (s.save nodes : OnDisk σ (Except IdError Store)) d = (.ok s', d')) :
    s' = s.holding nodes := by
  cases hpath : s.path? with
  | none =>
    rw [save_of_no_path hpath] at h
    -- a store that writes nothing does not even remember the nodes
    have hsame : s.holding nodes = s := by
      cases s with
      | file f => cases hpath
      | memory kept => rfl
      | resource path kept => rfl
    rw [hsame]
    cases hdistinct : ensureDistinct nodes with
    | error e => rw [hdistinct] at h; cases h
    | ok _ => rw [hdistinct] at h; cases h; rfl
  | some path =>
    obtain ⟨f, rfl, -⟩ := exists_file_of_path? hpath
    rw [save_file] at h
    split at h
    · cases h
    · split at h
      · cases h
      · cases h
        rfl

/-- Once the nodes are checked, all that a save does is replace the document. -/
theorem disk_save_file {f : FileStore} {nodes : List Node} (h : ensureDistinct nodes = .ok ())
    (d : σ) :
    (((Store.file f).save nodes : OnDisk σ (Except IdError Store)) d).2 =
      ((Disk.replaceText f.path (f.document nodes).text : OnDisk σ (Except FileFault Unit)) d).2 := by
  rw [save_file, h]
  dsimp only
  cases (Disk.replaceText f.path (f.document nodes).text :
    OnDisk σ (Except FileFault Unit)) d with
  | mk outcome d' => cases outcome <;> rfl

/-- A save does nothing to the files, or it replaces the document. -/
theorem disk_save (s : Store) (nodes : List Node) (d : σ) :
    ((s.save nodes : OnDisk σ (Except IdError Store)) d).2 = d ∨
      ∃ path ∈ s.path?, ∃ text, ((s.save nodes : OnDisk σ (Except IdError Store)) d).2 =
        ((Disk.replaceText path text : OnDisk σ (Except FileFault Unit)) d).2 := by
  cases hpath : s.path? with
  | none => exact .inl (by rw [save_of_no_path hpath])
  -- with a document it depends on the check, and a repeat is refused before anything is touched
  | some path =>
    obtain ⟨f, rfl, rfl⟩ := exists_file_of_path? hpath
    cases hdistinct : ensureDistinct nodes with
    | error e =>
      left
      rw [save_file, hdistinct]
    | ok _ => exact .inr ⟨f.path, rfl, _, disk_save_file hdistinct d⟩

/-- What a store does to the files, one thing after the other, stays within a relation. -/
structure Within (s : Store) (R : σ → σ → Prop) : Prop where
  refl : ∀ d, R d d
  trans : ∀ {d d' d''}, R d d' → R d' d'' → R d d''
  replace : ∀ path ∈ s.path?, ∀ text d,
    R d ((Disk.replaceText path text : OnDisk σ (Except FileFault Unit)) d).2

/-- A relation that holds of every replacement of the document, and of doing nothing, holds of every
save. -/
theorem Within.save {s : Store} {R : σ → σ → Prop} (h : s.Within R) (nodes : List Node) (d : σ) :
    R d ((s.save nodes : OnDisk σ (Except IdError Store)) d).2 := by
  rcases s.disk_save nodes d with hsame | ⟨path, hpath, text, hreplaced⟩
  · rw [hsame]
    exact h.refl d
  · rw [hreplaced]
    exact h.replace path hpath text d

/-- The relation depends on a store by its document alone. -/
theorem Within.of_path? {s s' : Store} {R : σ → σ → Prop} (h : s.Within R)
    (hpath : s'.path? = s.path?) : s'.Within R :=
  ⟨h.refl, h.trans, by rw [hpath]; exact h.replace⟩

end Store
end TimeIds
