import TimeIds.Proofs.Disk.Tracked

/-!
# What a replacement can reach

`FileTree.Confined` says that nothing has changed but what a path and its temporary sibling lead to,
and that no directory has come or gone. Paths are resolved through directories, so both still lead
where they led, and one confined change after another is confined again. A replacement is made of
such changes, be it refused or not:

* **`FileTree.Confined.trans`** – changes one after the other;
* **`FileTree.confined_insert`**, **`FileTree.confined_erase_insert`** – a write, and a move;
* **`Disk.Follows.confined_replaceText`** – a replacement.
-/

namespace TimeIds

namespace FileTree

/-- Nothing has changed but what the path and its sibling lead to. -/
structure Confined (path : Path) (t t' : FileTree) : Prop where
  agrees : AgreesOff (fun place => t.LeadsToFile path place ∨ t.LeadsToFile path.tempSibling place)
    t t'
  keeps : KeepsDirectories t t'
  adds : KeepsDirectories t' t

variable {path : Path} {t t' t₁ : FileTree} {place place' : Place}

theorem KeepsDirectories.refl (t : FileTree) : KeepsDirectories t t := ⟨rfl, fun _ h => h⟩

/-- Where no directory comes or goes, a path leads where it did. -/
theorem LeadsToFile.of_keeps (h : t'.LeadsToFile path place) (hkeeps : KeepsDirectories t t')
    (hadds : KeepsDirectories t' t) : t.LeadsToFile path place :=
  h.of_keepsDirectories hadds fun hget => h.notDirectory (hkeeps.directories place hget)

theorem Confined.refl (path : Path) (t : FileTree) : Confined path t t :=
  ⟨⟨rfl, fun _ _ => rfl⟩, .refl t, .refl t⟩

/-- **Changes one after the other** stay where each of them is: both paths lead to the same places
from one to the next. -/
theorem Confined.trans (h : Confined path t t₁) (h' : Confined path t₁ t') :
    Confined path t t' := by
  refine ⟨⟨h'.agrees.workingDirectory.trans h.agrees.workingDirectory, ?_⟩,
    h.keeps.trans h'.keeps, h'.adds.trans h.adds⟩
  intro place hplace
  -- a place that neither leads to at first is one that neither leads to in between
  have hplace₁ : ¬(t₁.LeadsToFile path place ∨ t₁.LeadsToFile path.tempSibling place) := by
    rintro (hleads | hleads)
    · exact hplace (.inl (hleads.of_keeps h.keeps h.adds))
    · exact hplace (.inr (hleads.of_keeps h.keeps h.adds))
  exact (h'.agrees.get? place hplace₁).trans (h.agrees.get? place hplace)

/-! ## The two steps -/

/-- A write to the sibling is confined. -/
theorem confined_insert (hleads : t.LeadsToFile path.tempSibling place) (content : Content) :
    Confined path t (t.insert place (.file content)) where
  agrees := agreesOff_insert (.inr hleads) _
  keeps := keepsDirectories_insert hleads.notDirectory _
  adds := keepsDirectories_of_insert hleads.ne_nil content

/-- Taking something away makes no directory. -/
theorem keepsDirectories_erase (t : FileTree) (hplace : place ≠ []) :
    KeepsDirectories (t.erase place) t := by
  refine ⟨rfl, fun p hp => ?_⟩
  by_cases heq : p = place
  · rw [heq, get?_erase_self t hplace] at hp
    cases hp
  · rwa [get?_erase_of_ne t heq] at hp

/-- A move from the sibling to the path is confined. -/
theorem confined_erase_insert (hsource : t.LeadsToFile path.tempSibling place)
    (htarget : t.LeadsToFile path place') (content : Content) :
    Confined path t ((t.erase place).insert place' (.file content)) where
  agrees := by
    refine ⟨rfl, fun p hp => ?_⟩
    have hne : p ≠ place := by rintro rfl; exact hp (.inr hsource)
    have hne' : p ≠ place' := by rintro rfl; exact hp (.inl htarget)
    rw [get?_insert_of_ne _ hne', get?_erase_of_ne t hne]
  keeps := keepsDirectories_erase_insert hsource.notDirectory htarget.notDirectory _
  adds := (keepsDirectories_of_insert htarget.ne_nil content).trans
    (keepsDirectories_erase t hsource.ne_nil)

/-- A change where a path leads to a file keeps the directories, since none stands there. -/
theorem AgreesOff.keepsDirectories (h : AgreesOff (t.LeadsToFile path) t t') :
    KeepsDirectories t t' := by
  refine ⟨h.workingDirectory, fun place hplace => ?_⟩
  rw [h.get? place fun hleads => hleads.notDirectory hplace]
  exact hplace

end FileTree

namespace Disk

variable {σ : Type} [Disk (StateM σ)]

/-- A file system that tracks a tree, whose files are not touched by looking at them, and where a
write that fails makes no directory. -/
structure Follows (tree : σ → FileTree) : Prop extends Tracks tree where
  tree_isPresent : ∀ path d, tree ((isPresent path : OnDisk σ Bool) d).2 = tree d
  tree_readText : ∀ path d, tree ((readText path : OnDisk σ (Except FileFault String)) d).2 = tree d
  adds_write_error : ∀ {path text fault d d'},
    (writeText path text : OnDisk σ (Except FileFault Unit)) d = (.error fault, d') →
      (tree d').KeepsDirectories (tree d)

/-- A tree in memory is one. -/
theorem follows_tree : Follows (id : FileTree → FileTree) where
  toTracks := tracks_tree
  tree_isPresent _ _ := rfl
  tree_readText _ _ := rfl
  adds_write_error {path text _ _ _} h := by
    cases FileTree.update_eq_error (·.write path text) h
    exact .refl _

variable {tree : σ → FileTree}

/-- **A replacement reaches the path and its sibling alone.** -/
theorem Follows.confined_replaceText (htree : Follows tree) (path : Path) (text : String) (d : σ) :
    (tree d).Confined path
      (tree ((replaceText path text : OnDisk σ (Except FileFault Unit)) d).2) := by
  rw [replaceText_apply]
  cases hwrite : (writeText path.tempSibling text : OnDisk σ (Except FileFault Unit)) d with
  | mk written d₁ =>
    cases written with
    | error fault =>
      -- a write that fails may leave anything in the sibling, but nothing else
      have hagrees := htree.write_error hwrite
      exact ⟨⟨hagrees.workingDirectory, fun place hplace =>
          hagrees.get? place fun hleads => hplace (.inr hleads)⟩,
        hagrees.keepsDirectories, htree.adds_write_error hwrite⟩
    | ok _ =>
      -- the sibling is written, whatever becomes of the move
      have hwritten : (tree d).Confined path (tree d₁) := by
        obtain ⟨place, hleads, hinsert⟩ := FileTree.write_spec (htree.write_ok hwrite)
        rw [hinsert]
        exact FileTree.confined_insert hleads _
      cases hmove : (rename path.tempSibling path : OnDisk σ (Except FileFault Unit)) d₁ with
      | mk moved d₂ =>
        dsimp only
        rw [hmove]
        cases moved with
        | error fault =>
          rw [htree.rename_error hmove]
          exact hwritten
        | ok _ =>
          obtain ⟨place, place', content, hsource, htarget, -, hmoved⟩ :=
            FileTree.move_spec (htree.rename_ok hmove)
          rw [hmoved]
          exact hwritten.trans (FileTree.confined_erase_insert hsource htarget content)

end Disk
end TimeIds
