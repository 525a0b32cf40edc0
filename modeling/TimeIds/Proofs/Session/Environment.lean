import Mathlib.Data.List.TakeWhile
import TimeIds.Config
import TimeIds.Proofs.Disk.Confined
import TimeIds.Proofs.Session.Run

/-!
# What an environment lets a process write

The environment decides which document is written, if any. The path is looked at without the blanks
around it only to see whether there is one, and taken as it stands; the mode is taken without them,
and every mode but the one that writes means that nothing is written. `Session.lifetime` is all that
a process does to the files: it opens the store, which only looks at them, works on it, and lets go.

* **`StoreConfig.of_path?_store`** – which environments make a store that writes;
* **`Session.within_lifetime`** – what holds of every replacement of the document, and of opening,
  holds of all that a process does;
* **`Session.environment_confines`** – the files that can change.
-/

namespace TimeIds

namespace Text

theorem trim_eq_empty {s : String} (h : ∀ c ∈ s.toList, isBlank c = true) : trim s = "" := by
  have hnone : s.toList.dropWhile isBlank = [] := List.dropWhile_eq_nil_iff.2 h
  unfold trim trimChars
  rw [hnone]
  rfl

end Text

/-! ## Stores of an environment -/

/-- One name alone stands for the mode that writes. -/
theorem StoreMode.ofName?_eq_file {s : String} (h : ofName? s = some .file) : s = "file" := by
  unfold ofName? at h
  split at h
  · cases h
  · split at h
    · assumption
    · cases h

namespace StoreConfig

/-- A configuration makes a store that writes if it has a path and that mode. -/
theorem path?_store (c : StoreConfig) :
    c.store.path? = if c.mode = .file then c.resource else none := by
  obtain ⟨resource, mode, interval⟩ := c
  cases resource <;> cases mode <;> rfl

/-- An environment that makes a store that writes names its document, in a text that is not all
blanks, and the mode that writes. -/
theorem of_path?_store {value? : String → Option String} {path : Path}
    (h : (ofEnvironment value?).store.path? = some path) :
    value? pathVariable = some path.text ∧ ¬(∀ c ∈ path.text.toList, Text.isBlank c = true) ∧
      ∃ v, value? modeVariable = some v ∧ Text.trim v = "file" := by
  rw [path?_store] at h
  split at h
  · next hmode =>
    obtain ⟨v, hv, rfl⟩ := Option.map_eq_some_iff.1 h
    obtain ⟨hpath, hproper⟩ := Option.filter_eq_some_iff.1 hv
    refine ⟨hpath, fun hblank => ?_, ?_⟩
    · rw [Text.trim_eq_empty hblank] at hproper
      cases hproper
    · -- the mode is the one that reads where none is named, so it was named
      have hmode' : ((value? modeVariable).bind fun v => StoreMode.ofName? (Text.trim v)).getD
          .readOnly = .file := hmode
      cases hname : (value? modeVariable).bind fun v => StoreMode.ofName? (Text.trim v) with
      | none => rw [hname] at hmode'; cases hmode'
      | some mode =>
        rw [hname] at hmode'
        cases hmode'
        obtain ⟨v, hvalue, hname⟩ := Option.bind_eq_some_iff.1 hname
        exact ⟨v, hvalue, StoreMode.ofName?_eq_file hname⟩
  · cases h

end StoreConfig

variable {σ : Type} [Disk (StateM σ)]

/-! ## Opening -/

/-- Opening a registry changes no file. -/
theorem Registry.tree_load {tree : σ → FileTree} (htree : Disk.Follows tree) (store : Store)
    (draws : Draws) (wall : Millis) (d : σ) :
    tree ((Registry.load store draws wall : OnDisk σ (Except IdError Registry)) d).2 = tree d :=
  store.tree_load htree draws.sequence d

/-! ## All that a process does -/

namespace Session

/-- The files after a process has opened a store, done something with it and let it go. A store that
cannot be opened is left at that. -/
def lifetime (store : Store) (draws : Draws) (wall : Millis) (actions : List Action)
    (ending : Ending) (d : σ) : σ :=
  match (Registry.load store draws wall : OnDisk σ (Except IdError Registry)) d with
  | (.ok r, d') => ((⟨.free r, d'⟩ : Session σ).after actions).ended ending
  | (.error _, d') => d'

/-- What holds of opening, and of every replacement of the document, holds of all that a process
does. -/
theorem within_lifetime {R : σ → σ → Prop} {store : Store} (hR : store.Within R) {draws : Draws}
    {wall : Millis} {d : σ}
    (hopen : R d ((Registry.load store draws wall : OnDisk σ (Except IdError Registry)) d).2)
    (actions : List Action) (ending : Ending) :
    R d (lifetime store draws wall actions ending d) := by
  unfold lifetime
  cases hload : (Registry.load store draws wall : OnDisk σ (Except IdError Registry)) d with
  | mk outcome d' =>
    rw [hload] at hopen
    cases outcome with
    | error e => exact hopen
    | ok r =>
      have hopened : r.store.Within R := hR.of_path? (Registry.path?_of_load hload)
      exact hR.trans hopen (within_ended (s := ⟨.free r, d'⟩) hopened actions ending)

/-- **Only what the environment names is written.** Whatever a process does with the store that its
environment makes, however it lets go and whichever operations fail: where no path is given but
blanks, or the mode without the blanks around it is any but the one that writes, no file is touched.
Otherwise the files that are touched are the one that the path leads to, as it stands in the
environment, and its temporary sibling. -/
theorem environment_confines {tree : σ → FileTree} (htree : Disk.Follows tree)
    (value? : String → Option String) (draws : Draws) (wall : Millis) (actions : List Action)
    (ending : Ending) (d : σ) :
    let d' := lifetime (StoreConfig.ofEnvironment value?).store draws wall actions ending d
    ((∀ v ∈ value? StoreConfig.pathVariable, ∀ c ∈ v.toList, Text.isBlank c = true) ∨
        (∀ v ∈ value? StoreConfig.modeVariable, Text.trim v ≠ "file") → tree d' = tree d) ∧
      ∀ v ∈ value? StoreConfig.pathVariable, (tree d).Confined ⟨v⟩ (tree d') := by
  intro d'
  have hopen := Registry.tree_load htree (StoreConfig.ofEnvironment value?).store draws wall d
  -- both parts are the same walk through the lifetime, with another relation between trees
  constructor
  · intro hreadOnly
    have hwithin : (StoreConfig.ofEnvironment value?).store.Within fun d d' => tree d' = tree d := by
      refine ⟨fun _ => rfl, fun h h' => h'.trans h, fun path hpath => ?_⟩
      obtain ⟨hvalue, hproper, mode, hmode, htrim⟩ := StoreConfig.of_path?_store hpath
      -- a store that writes would have been named by both variables
      rcases hreadOnly with hblank | hother
      · exact absurd (hblank _ hvalue) hproper
      · exact absurd htrim (hother _ hmode)
    exact within_lifetime hwithin hopen actions ending
  · intro v hv
    have hwithin : (StoreConfig.ofEnvironment value?).store.Within fun d d' =>
        (tree d).Confined ⟨v⟩ (tree d') := by
      refine ⟨fun _ => .refl _ _, fun h h' => h.trans h', fun path hpath text d => ?_⟩
      obtain ⟨hvalue, -⟩ := StoreConfig.of_path?_store hpath
      have hsame : v = path.text := Option.some.inj (hv.symm.trans hvalue)
      rw [hsame]
      exact htree.confined_replaceText path text d
    have hopened : (tree d).Confined ⟨v⟩ (tree ((Registry.load
        (StoreConfig.ofEnvironment value?).store draws wall :
          OnDisk σ (Except IdError Registry)) d).2) := by
      rw [hopen]
      exact .refl _ _
    exact within_lifetime hwithin hopened actions ending

/-- A path with a blank before it, and a mode. -/
def spacedEnvironment (mode name : String) : Option String :=
  List.lookup name [(StoreConfig.pathVariable, " s.json"), (StoreConfig.modeVariable, mode)]

/-- A document at the path without the blank. -/
def unspacedDocument : FileTree where
  entries := [(["s.json"], .file (.text "kept"))]

/-- Under a path with a blank before it, the document without the blank is left alone; under a mode
in another letter case nothing is written. -/
theorem environment_confines_to_the_path_as_given :
    let actions : List Action := [.ask (.issue 0 (some 9)), .ask (.flush 0), .adopt,
      .call ⟨some 9, 20000⟩]
    let ended (mode : String) : FileTree :=
      lifetime (StoreConfig.ofEnvironment (spacedEnvironment mode)).store
        ⟨⟨2, 0, 0, 0, 0, 1⟩, fun _ => 7⟩ 0 actions (.closed 0) unspacedDocument
    Disk.Follows (id : FileTree → FileTree) ∧
      unspacedDocument.Confined ⟨" s.json"⟩ (ended " file\n") ∧
      (ended " file\n").isPresent ⟨" s.json"⟩ = true ∧
      (ended " file\n").readText ⟨"s.json"⟩ = .ok "kept" ∧
      Text.trim "File" ≠ "file" ∧ ended "File" = unspacedDocument := by
  intro actions ended
  have hother : Text.trim "File" ≠ "file" := by decide +kernel
  have hspaced := environment_confines Disk.follows_tree (spacedEnvironment " file\n")
    ⟨⟨2, 0, 0, 0, 0, 1⟩, fun _ => 7⟩ 0 actions (.closed 0) unspacedDocument
  have hread := environment_confines Disk.follows_tree (spacedEnvironment "File")
    ⟨⟨2, 0, 0, 0, 0, 1⟩, fun _ => 7⟩ 0 actions (.closed 0) unspacedDocument
  refine ⟨Disk.follows_tree, hspaced.2 _ rfl, by decide +kernel, by decide +kernel, hother,
    hread.1 (.inr ?_)⟩
  intro v hv
  cases hv
  exact hother

end Session
end TimeIds
