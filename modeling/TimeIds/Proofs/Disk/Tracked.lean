import TimeIds.Proofs.Disk.Apart

/-!
# Replacing a file where anything may fail

A file system need not be a tree in memory, and may refuse a write or a move for reasons of its own.
`Disk.Tracks` is what is asked of it: what it does not refuse it does as a tree does, a refused move
leaves everything as it was, and a refused write has touched nothing but the file that was to be
written. Then a replacement is all or nothing:

* **`Disk.Tracks.agrees_of_replaceText`** – one that is refused has touched the sibling alone;
* **`Disk.Tracks.replaced_of_replaceText`** – one that is not leaves the text, and no sibling.
-/

namespace TimeIds
namespace FileTree

/-- Two trees that are the same but for what stands at some places. -/
structure AgreesOff (off : Place → Prop) (t t' : FileTree) : Prop where
  workingDirectory : t'.workingDirectory = t.workingDirectory
  get? : ∀ place, ¬off place → t'.get? place = t.get? place

/-- The second tree is the first with a text put in place. -/
structure Replaced (path : Path) (text : String) (t t' : FileTree) : Prop where
  holds : t'.Holds path text
  gone : t'.isPresent path.tempSibling = false
  rest : AgreesOff (fun place => t.LeadsToFile path.tempSibling place ∨ t.LeadsToFile path place) t t'

theorem get?_erase_self (t : FileTree) {place : Place} (h : place ≠ []) :
    (t.erase place).get? place = none := by
  have hnil : place.isEmpty = false := by simpa using h
  unfold get? erase
  rw [hnil, if_neg Bool.false_ne_true, List.lookup_eq_none_iff]
  intro e he
  have hne : e.1 ≠ place := by simpa using (List.mem_filter.1 he).2
  simpa using hne.symm

/-- Putting something at a place changes that place alone. -/
theorem agreesOff_insert {t : FileTree} {off : Place → Prop} {place : Place} (h : off place)
    (e : Entry) : AgreesOff off t (t.insert place e) :=
  ⟨rfl, fun place' hplace' => get?_insert_of_ne t (by rintro rfl; exact hplace' h) e⟩

/-- What was put in place stands apart from the sibling that it was written to. -/
theorem replaced_of_move {t t₁ t' : FileTree} {path : Path} {text : String}
    (hwrite : t.write path.tempSibling text = .ok t₁)
    (hmove : t₁.move path.tempSibling path = .ok t') : Replaced path text t t' := by
  have hholds := holds_of_replace hwrite hmove
  obtain ⟨place, place', htemp, htarget, rfl, rfl, hkeeps⟩ := exists_places_of_replace hwrite hmove
  obtain ⟨directory, name, hlocate, -, hplace'⟩ := htarget.located
  have hne : place ≠ place' := by
    rw [hplace']
    exact (place_ne_of_leadsToFile htemp hlocate).symm
  -- the text comes to stand elsewhere, so the place of the sibling stays free
  have hgone : (((t.insert place (.file (.text text))).erase place).insert place'
      (.file (.text text))).get? place = none := by
    rw [get?_insert_of_ne _ hne, get?_erase_self _ htemp.ne_nil]
  refine ⟨hholds, ?_, rfl, fun other hother => ?_⟩
  · exact isPresent_eq_false (htemp.of_keepsDirectories hkeeps (by rw [hgone]; simp)) hgone
  · have hother₁ : other ≠ place := by rintro rfl; exact hother (.inl htemp)
    have hother₂ : other ≠ place' := by rintro rfl; exact hother (.inr htarget)
    rw [get?_insert_of_ne _ hother₂, get?_erase_of_ne _ hother₁, get?_insert_of_ne _ hother₁]

/-- What a path leads to is not touched where only its sibling is. -/
theorem AgreesOff.get?_target {t t' : FileTree} {path : Path} {target : Target}
    (h : AgreesOff (t.LeadsToFile path.tempSibling) t t') (hlocate : t.locate path = .ok target) :
    t'.get? target.place = t.get? target.place :=
  h.get? _ fun hleads => place_ne_of_leadsToFile hleads hlocate rfl

end FileTree

namespace Disk

variable {σ : Type} [Disk (StateM σ)]

/-- A file system whose files are those of a tree. Of a write that fails it is not said what it
leaves in its file. -/
structure Tracks (tree : σ → FileTree) : Prop where
  write_ok : ∀ {path text d d'},
    (writeText path text : OnDisk σ (Except FileFault Unit)) d = (.ok (), d') →
      (tree d).write path text = .ok (tree d')
  write_error : ∀ {path text fault d d'},
    (writeText path text : OnDisk σ (Except FileFault Unit)) d = (.error fault, d') →
      (tree d).AgreesOff ((tree d).LeadsToFile path) (tree d')
  rename_ok : ∀ {source target d d'},
    (rename source target : OnDisk σ (Except FileFault Unit)) d = (.ok (), d') →
      (tree d).move source target = .ok (tree d')
  rename_error : ∀ {source target fault d d'},
    (rename source target : OnDisk σ (Except FileFault Unit)) d = (.error fault, d') →
      tree d' = tree d

/-- A tree in memory is one. -/
theorem tracks_tree : Tracks (id : FileTree → FileTree) where
  write_ok h := FileTree.write_of_writeText h
  write_error {path text _ _ _} h := by
    cases FileTree.update_eq_error (·.write path text) h
    exact ⟨rfl, fun _ _ => rfl⟩
  rename_ok h := FileTree.move_of_rename h
  rename_error {source target _ _ _} h := FileTree.update_eq_error (·.move source target) h

/-! ## Replacements -/

section Outcomes

variable {path : Path} {text : String} {d : σ} {written : Except FileFault Unit × σ}
  (hwritten : (writeText path.tempSibling text : OnDisk σ (Except FileFault Unit)) d = written)
include hwritten

/-- A replacement is refused where one of its steps is. -/
theorem replaceText_of_error {fault : FileFault}
    (h : written.1 = .error fault ∨ written.1 = .ok () ∧
      ((rename path.tempSibling path : OnDisk σ (Except FileFault Unit)) written.2).1 =
        .error fault) :
    ((replaceText path text : OnDisk σ (Except FileFault Unit)) d).1 = .error fault := by
  rw [replaceText_apply, hwritten]
  obtain ⟨outcome, d₁⟩ := written
  rcases h with rfl | ⟨rfl, h⟩
  · rfl
  · exact h

/-- A replacement is made where none of its steps is refused. -/
theorem replaceText_of_ok (h : written.1 = .ok ())
    (hmoved : ((rename path.tempSibling path : OnDisk σ (Except FileFault Unit)) written.2).1 =
      .ok ()) :
    ((replaceText path text : OnDisk σ (Except FileFault Unit)) d).1 = .ok () := by
  rw [replaceText_apply, hwritten]
  obtain ⟨outcome, d₁⟩ := written
  cases h
  exact hmoved

end Outcomes

variable {tree : σ → FileTree} {path : Path} {text : String} {d d' : σ}

/-- **A replacement that is refused has touched the sibling alone.** -/
theorem Tracks.agrees_of_replaceText (htree : Tracks tree) {fault : FileFault}
    (h : (replaceText path text : OnDisk σ (Except FileFault Unit)) d = (.error fault, d')) :
    (tree d).AgreesOff ((tree d).LeadsToFile path.tempSibling) (tree d') := by
  rw [replaceText_apply] at h
  split at h
  · next _ d₁ hwrite =>
    cases h
    exact htree.write_error hwrite
  · next d₁ hwrite =>
    -- the sibling is written, and stays where it is
    obtain ⟨place, hleads, hinsert⟩ := FileTree.write_spec (htree.write_ok hwrite)
    rw [htree.rename_error h, hinsert]
    exact FileTree.agreesOff_insert hleads _

/-- **A replacement that is not refused leaves the text and no sibling.** -/
theorem Tracks.replaced_of_replaceText (htree : Tracks tree)
    (h : (replaceText path text : OnDisk σ (Except FileFault Unit)) d = (.ok (), d')) :
    (tree d).Replaced path text (tree d') := by
  rw [replaceText_apply] at h
  split at h
  · cases h
  · next d₁ hwrite =>
    exact FileTree.replaced_of_move (htree.write_ok hwrite) (htree.rename_ok h)

end Disk
end TimeIds
