import TimeIds.Disk.FileTree

/-!
# Replacing the text of a file

A text is put in place by writing a sibling and renaming it over the target. On a tree held in
memory, a replacement that is not refused leaves exactly that text where the path leads to. Both of
its steps touch places that hold no directory, and a path is resolved through directories only, so
it leads to the same place afterwards.

* **`FileTree.locate_of_keepsDirectories`** – a path leads where it led while directories are kept;
* **`FileTree.write_spec`**, **`FileTree.move_spec`** – what the two steps do when not refused;
* **`FileTree.exists_places_of_replace`** – what they do one after the other;
* **`FileTree.read_of_leadsToFile`** – what is read at the end of a path;
* **`FileTree.holds_of_replaceText`** – the replaced file is there and holds the text.
-/

namespace TimeIds

/-- Computations on a file system that is a value. -/
abbrev OnDisk (σ α : Type) : Type := StateM σ α

/-- Of two computations the second meets the files that the first leaves. -/
theorem OnDisk.bind_apply {σ α β : Type} (x : OnDisk σ α) (f : α → OnDisk σ β) (d : σ) :
    (x >>= f) d = f (x d).1 (x d).2 := rfl

/-- Computations on a tree held in memory. -/
abbrev OnTree (α : Type) : Type := StateM FileTree α

namespace FileTree

/-- Whether a path leads to a file with that text. -/
structure Holds (t : FileTree) (path : Path) (text : String) : Prop where
  isPresent : t.isPresent path = true
  readText : t.readText path = .ok text

/-! ## Changes at one place -/

theorem get?_erase_of_ne (t : FileTree) {place place' : Place} (hne : place' ≠ place) :
    (t.erase place).get? place' = t.get? place' := by
  have key (es : List (Place × Entry)) :
      (es.filter fun e => e.1 != place).lookup place' = es.lookup place' := by
    induction es with
    | nil => rfl
    | cons e es ih =>
      by_cases he : e.1 = place
      · -- the entries taken away are those of the other place, which no lookup here meets
        have hmiss : (place' == e.1) = false := by simpa [he] using hne
        rw [List.filter_cons_of_neg (by simp [he]), ih, List.lookup_cons, hmiss]
      · rw [List.filter_cons_of_pos (by simpa using he), List.lookup_cons, List.lookup_cons, ih]
  unfold get? erase
  rw [key]

theorem get?_insert_of_ne (t : FileTree) {place place' : Place} (hne : place' ≠ place) (e : Entry) :
    (t.insert place e).get? place' = t.get? place' := by
  have hmiss : (place' == place) = false := by simpa using hne
  rw [← get?_erase_of_ne t hne]
  unfold get? insert
  rw [List.lookup_append]
  simp [List.lookup_cons, hmiss]

/-! ## Paths lead through directories -/

/-- Whatever is a directory in one tree is one in the other, and paths start from the same one. -/
structure KeepsDirectories (t t' : FileTree) : Prop where
  workingDirectory : t'.workingDirectory = t.workingDirectory
  directories : ∀ place, t.get? place = some .directory → t'.get? place = some .directory

/-- A write where no directory stands keeps the directories. -/
theorem keepsDirectories_insert {t : FileTree} {place : Place}
    (hplace : t.get? place ≠ some .directory) (e : Entry) :
    KeepsDirectories t (t.insert place e) := by
  refine ⟨rfl, fun p hp => ?_⟩
  rw [get?_insert_of_ne t (by rintro rfl; exact hplace hp)]
  exact hp

/-- A move between two places where no directory stands keeps the directories. -/
theorem keepsDirectories_erase_insert {t : FileTree} {place place' : Place}
    (hplace : t.get? place ≠ some .directory) (hplace' : t.get? place' ≠ some .directory)
    (e : Entry) : KeepsDirectories t ((t.erase place).insert place' e) := by
  refine ⟨rfl, fun p hp => ?_⟩
  rw [get?_insert_of_ne _ (by rintro rfl; exact hplace' hp),
    get?_erase_of_ne t (by rintro rfl; exact hplace hp)]
  exact hp

/-- A walk that reaches a directory reaches it while directories are kept. -/
theorem walk_of_keepsDirectories {t t' : FileTree} (hkeeps : KeepsDirectories t t')
    {names : List String} {start place : Place} (hwalk : t.walk start names = .ok place) :
    t'.walk start names = .ok place := by
  induction names generalizing start with
  | nil => exact hwalk
  | cons name names ih =>
    unfold walk at hwalk ⊢
    by_cases hdot : name = "."
    · rw [if_pos hdot] at hwalk ⊢
      exact ih hwalk
    · rw [if_neg hdot] at hwalk ⊢
      by_cases hdots : name = ".."
      · rw [if_pos hdots] at hwalk ⊢
        exact ih hwalk
      · rw [if_neg hdots] at hwalk ⊢
        unfold lookUp at hwalk ⊢
        by_cases hlong : name.utf8ByteSize > maxName
        · rw [if_pos hlong] at hwalk
          cases hwalk
        · rw [if_neg hlong] at hwalk ⊢
          -- the walk goes on through directories only, and these are kept
          cases hget : t.get? (start ++ [name]) with
          | none => rw [hget] at hwalk; cases hwalk
          | some e =>
            cases e with
            | file content => rw [hget] at hwalk; cases hwalk
            | directory =>
              rw [hget] at hwalk
              rw [hkeeps.directories _ hget]
              exact ih hwalk

/-- **A path leads where it led**, while directories are kept. -/
theorem locate_of_keepsDirectories {t t' : FileTree} (hkeeps : KeepsDirectories t t') {path : Path}
    {target : Target} (hlocate : t.locate path = .ok target) : t'.locate path = .ok target := by
  unfold locate at hlocate ⊢
  rw [hkeeps.workingDirectory]
  dsimp only at hlocate ⊢
  split at hlocate
  · cases hlocate
  · next hnul =>
    split at hlocate
    · cases hlocate
    · next hempty =>
      split at hlocate
      · cases hlocate
      · next hlong =>
        rw [if_neg hnul, if_neg hempty, if_neg hlong]
        -- the refusals before the walk look at the text of the path alone
        cases hwalk : t.walk (if path.text.toList.head? = some '/' then [] else t.workingDirectory)
            (pathNames path.text.toList).dropLast with
        | error fault => rw [hwalk] at hlocate; cases hlocate
        | ok place =>
          rw [hwalk] at hlocate
          rw [walk_of_keepsDirectories hkeeps hwalk]
          exact hlocate

/-! ## The two steps -/

/-- Where a path leads to a name that is not too long and is no directory's. -/
structure LeadsToFile (t : FileTree) (path : Path) (place : Place) : Prop where
  located : ∃ directory name, t.locate path = .ok (.named directory name false) ∧
    name.utf8ByteSize ≤ maxName ∧ place = directory ++ [name]
  notDirectory : t.get? place ≠ some .directory

/-- The root is a directory, and no path leads to it as to a file. -/
theorem LeadsToFile.ne_nil {t : FileTree} {path : Path} {place : Place}
    (h : t.LeadsToFile path place) : place ≠ [] := by
  obtain ⟨directory, name, -, -, rfl⟩ := h.located
  simp

theorem LeadsToFile.unique {t : FileTree} {path : Path} {place place' : Place}
    (h : t.LeadsToFile path place) (h' : t.LeadsToFile path place') : place = place' := by
  obtain ⟨directory, name, hlocate, -, rfl⟩ := h.located
  obtain ⟨directory', name', hlocate', -, rfl⟩ := h'.located
  rw [hlocate] at hlocate'
  cases hlocate'
  rfl

/-- A path leads to a file where it did, if directories are kept and none has come to stand
there. -/
theorem LeadsToFile.of_keepsDirectories {t t' : FileTree} {path : Path} {place : Place}
    (h : t.LeadsToFile path place) (hkeeps : KeepsDirectories t t')
    (hplace : t'.get? place ≠ some .directory) : t'.LeadsToFile path place := by
  obtain ⟨directory, name, hlocate, hlong, rfl⟩ := h.located
  exact ⟨⟨directory, name, locate_of_keepsDirectories hkeeps hlocate, hlong, rfl⟩, hplace⟩

/-- Looking up a name only refuses names that are too long. -/
theorem lookUp_eq {t : FileTree} {directory : Place} {name : String} {found : Option Entry}
    (h : t.lookUp directory name = .ok found) :
    name.utf8ByteSize ≤ maxName ∧ t.get? (directory ++ [name]) = found := by
  unfold lookUp at h
  split at h
  · cases h
  · next hlong =>
    cases h
    exact ⟨by omega, rfl⟩

/-- A computation that gives a result gave one at each of its steps. -/
theorem exists_of_bind_eq_ok {ε α β : Type} {x : Except ε α} {f : α → Except ε β} {b : β}
    (h : x >>= f = .ok b) : ∃ a, x = .ok a ∧ f a = .ok b := by
  cases x with
  | error e => cases h
  | ok a => exact ⟨a, rfl, h⟩

/-- A write that is not refused changes the place that the path leads to. -/
theorem write_spec {t t' : FileTree} {path : Path} {text : String}
    (h : t.write path text = .ok t') :
    ∃ place, t.LeadsToFile path place ∧ t' = t.insert place (.file (.text text)) := by
  obtain ⟨target, hlocate, h⟩ := exists_of_bind_eq_ok h
  cases target with
  | existing place => cases h
  | named directory name slash =>
    obtain ⟨found, hlookUp, h⟩ := exists_of_bind_eq_ok h
    obtain ⟨hlong, hget⟩ := lookUp_eq hlookUp
    have hfound : found ≠ some .directory := by
      rintro rfl
      cases h
    -- of what is found there a directory refuses the write, and so does a slash after the name
    split at h
    · exact absurd rfl hfound
    · cases slash with
      | true => cases h
      | false =>
        cases h
        exact ⟨_, ⟨⟨directory, name, hlocate, hlong, rfl⟩, by rw [hget]; exact hfound⟩, rfl⟩

/-- A move that is not refused takes a content from one place to the other. -/
theorem move_spec {t t' : FileTree} {source target : Path} (h : t.move source target = .ok t') :
    ∃ place place' content, t.LeadsToFile source place ∧ t.LeadsToFile target place' ∧
      t.get? place = some (.file content) ∧
      t' = (t.erase place).insert place' (.file content) := by
  obtain ⟨from', hsource, h⟩ := exists_of_bind_eq_ok h
  obtain ⟨to', htarget, h⟩ := exists_of_bind_eq_ok h
  cases from' with
  | existing place => cases h
  | named directory name slash =>
    cases to' with
    | existing place => cases h
    | named directory' name' slash' =>
      obtain ⟨found, hlookUp, h⟩ := exists_of_bind_eq_ok h
      obtain ⟨held, hlookUp', h⟩ := exists_of_bind_eq_ok h
      obtain ⟨hlong, hget⟩ := lookUp_eq hlookUp
      obtain ⟨hlong', hget'⟩ := lookUp_eq hlookUp'
      cases found with
      | none => cases h
      | some e =>
        cases e with
        | directory => cases h
        | file content =>
          dsimp only at h
          split at h
          · cases h
          · next hslash =>
            split at h
            · cases h
            · next hheld =>
              cases h
              -- neither name has a slash after it, or the move would have been refused
              have hnone : slash = false ∧ slash' = false := by simpa using hslash
              obtain ⟨rfl, rfl⟩ := hnone
              exact ⟨_, _, content, ⟨⟨directory, name, hsource, hlong, rfl⟩, by rw [hget]; simp⟩,
                ⟨⟨directory', name', htarget, hlong', rfl⟩, by rw [hget']; exact hheld⟩, hget, rfl⟩

/-! ## Both steps together -/

theorem KeepsDirectories.trans {t t₁ t₂ : FileTree} (h : KeepsDirectories t t₁)
    (h' : KeepsDirectories t₁ t₂) : KeepsDirectories t t₂ :=
  ⟨h'.workingDirectory.trans h.workingDirectory,
    fun place hplace => h'.directories place (h.directories place hplace)⟩

/-- A file that is put somewhere is no new directory. -/
theorem keepsDirectories_of_insert {t : FileTree} {place : Place} (hplace : place ≠ [])
    (content : Content) : KeepsDirectories (t.insert place (.file content)) t := by
  refine ⟨rfl, fun p hp => ?_⟩
  by_cases heq : p = place
  · subst heq
    rw [get?_insert_self t _ hplace] at hp
    cases hp
  · rwa [get?_insert_of_ne t heq] at hp

/-- The write and the move, one after the other: the text comes to where the target leads. -/
theorem exists_places_of_replace {t t₁ t' : FileTree} {temp path : Path} {text : String}
    (hwrite : t.write temp text = .ok t₁) (hmove : t₁.move temp path = .ok t') :
    ∃ place place', t.LeadsToFile temp place ∧ t.LeadsToFile path place' ∧
      t' = (t₁.erase place).insert place' (.file (.text text)) ∧
      t₁ = t.insert place (.file (.text text)) ∧ KeepsDirectories t t' := by
  obtain ⟨place, htemp, rfl⟩ := write_spec hwrite
  obtain ⟨from', place', content, hsource, htarget, hget, rfl⟩ := move_spec hmove
  have hwritten := get?_insert_self t (.file (.text text)) htemp.ne_nil
  have hkeeps := keepsDirectories_insert htemp.notDirectory (.file (.text text))
  -- the temporary sibling still leads to the place that was written
  have hplace : place = from' :=
    (htemp.of_keepsDirectories hkeeps (by rw [hwritten]; simp)).unique hsource
  subst hplace
  rw [hwritten] at hget
  cases hget
  have hback := keepsDirectories_of_insert (t := t) htemp.ne_nil (.text text)
  -- the target is no directory before the write, since the write keeps directories
  have hfree : t.get? place' ≠ some .directory :=
    fun hget => htarget.notDirectory (hkeeps.directories place' hget)
  exact ⟨place, place', htemp, htarget.of_keepsDirectories hback hfree, rfl, rfl,
    hkeeps.trans (keepsDirectories_erase_insert hsource.notDirectory htarget.notDirectory _)⟩

/-- What stands where a path leads to is what is read. -/
theorem read_of_leadsToFile {t : FileTree} {path : Path} {place : Place}
    (hleads : t.LeadsToFile path place) :
    t.read path =
      match t.get? place with
      | some (.file content) => .ok content
      | _ => .error .notFound := by
  -- two of the three things that may stand there are read alike in the statement
  have hfree := hleads.notDirectory
  obtain ⟨directory, name, hlocate, hlong, rfl⟩ := hleads.located
  have hlookUp : t.lookUp directory name = .ok (t.get? (directory ++ [name])) := by
    unfold lookUp
    rw [if_neg (by omega)]
  unfold read
  rw [hlocate]
  show (t.lookUp directory name).bind _ = _
  rw [hlookUp]
  cases hget : t.get? (directory ++ [name]) with
  | none => rfl
  | some e =>
    cases e with
    | directory => exact absurd hget hfree
    | file content => rfl

/-- A path holds the text of the file that it leads to. -/
theorem holds_of_leadsToFile {t : FileTree} {path : Path} {place : Place} {text : String}
    (hleads : t.LeadsToFile path place) (hget : t.get? place = some (.file (.text text))) :
    t.Holds path text := by
  have hread : t.read path = .ok (.text text) := by
    rw [read_of_leadsToFile hleads, hget]
  constructor
  · unfold isPresent
    rw [hread]
  · unfold readText
    rw [hread]
    rfl

/-- A path that leads to a free place is not present. -/
theorem isPresent_eq_false {t : FileTree} {path : Path} {place : Place}
    (hleads : t.LeadsToFile path place) (hget : t.get? place = none) :
    t.isPresent path = false := by
  unfold isPresent
  rw [read_of_leadsToFile hleads, hget]
  rfl

/-- A text that was written to the sibling and moved is there. -/
theorem holds_of_replace {t t₁ t' : FileTree} {temp path : Path} {text : String}
    (hwrite : t.write temp text = .ok t₁) (hmove : t₁.move temp path = .ok t') :
    t'.Holds path text := by
  obtain ⟨place, place', -, htarget, rfl, -, hkeeps⟩ := exists_places_of_replace hwrite hmove
  have hself := get?_insert_self (t₁.erase place) (.file (.text text)) htarget.ne_nil
  exact holds_of_leadsToFile (htarget.of_keepsDirectories hkeeps (by rw [hself]; simp)) hself

/-- A change that is not refused is what becomes of the tree. -/
theorem update_eq_ok (change : FileTree → Except FileFault FileTree) {t t' : FileTree}
    (h : update change t = (.ok (), t')) : change t = .ok t' := by
  unfold update at h
  split at h
  · cases h
  · next hchange =>
    cases h
    exact hchange

/-- A change that is refused leaves the tree as it was. -/
theorem update_eq_error (change : FileTree → Except FileFault FileTree) {t t' : FileTree}
    {fault : FileFault} (h : update change t = (.error fault, t')) : t' = t := by
  unfold update at h
  split at h
  · cases h
    rfl
  · cases h

/-- A text that was written was written to the tree. -/
theorem write_of_writeText {t t' : FileTree} {path : Path} {text : String}
    (h : (Disk.writeText path text : OnTree (Except FileFault Unit)) t = (.ok (), t')) :
    t.write path text = .ok t' :=
  update_eq_ok (·.write path text) h

/-- A file that was renamed was moved in the tree. -/
theorem move_of_rename {t t' : FileTree} {source target : Path}
    (h : (Disk.rename source target : OnTree (Except FileFault Unit)) t = (.ok (), t')) :
    t.move source target = .ok t' :=
  update_eq_ok (·.move source target) h

end FileTree

namespace Disk

variable {σ : Type} [Disk (StateM σ)]

/-- A replacement: the write to the sibling, and the move if the write was not refused. -/
theorem replaceText_apply (path : Path) (text : String) (d : σ) :
    (replaceText path text : OnDisk σ (Except FileFault Unit)) d =
      match (writeText path.tempSibling text : OnDisk σ (Except FileFault Unit)) d with
      | (.error fault, d₁) => (.error fault, d₁)
      | (.ok (), d₁) => (rename path.tempSibling path : OnDisk σ (Except FileFault Unit)) d₁ := by
  unfold replaceText
  rw [OnDisk.bind_apply]
  cases (writeText path.tempSibling text : OnDisk σ (Except FileFault Unit)) d with
  | mk outcome d₁ => cases outcome <;> rfl

end Disk

namespace FileTree

/-- **A text that was put in place is there.** -/
theorem holds_of_replaceText {t t' : FileTree} {path : Path} {text : String}
    (h : (Disk.replaceText path text : OnTree (Except FileFault Unit)) t = (.ok (), t')) :
    t'.Holds path text := by
  rw [Disk.replaceText_apply] at h
  split at h
  · cases h
  · next t₁ hwrite => exact holds_of_replace (write_of_writeText hwrite) (move_of_rename h)

end FileTree
end TimeIds
