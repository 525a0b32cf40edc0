import TimeIds.Proofs.Disk.Replace
import TimeIds.Proofs.Disk.Sibling

/-!
# The sibling stands at a place of its own

A path with a file name leads to the place of that name in the directory that the parts before it
lead to. The temporary sibling has the same parts before another name, so wherever it can be written
it stands next to what the path leads to. A path without a file name is its own sibling, but it leads
to a directory, if anywhere.

* **`FileTree.place_of_locate`** – where a path with a file name leads;
* **`FileTree.named?_isSome_of_leadsToFile`** – only such a path leads to a file;
* **`FileTree.place_ne_of_leadsToFile`** – what is written to the sibling is not what the path leads
  to.
-/

namespace TimeIds

/-! ## Places -/

/-- The place that a path leads to. -/
def Target.place : Target → Place
  | existing place => place
  | named directory name _ => directory ++ [name]

namespace FileTree

open TimeIds.Path

/-- The directory that a path starts from. -/
def startOf (t : FileTree) (cs : List Char) : Place :=
  if cs.head? = some '/' then [] else t.workingDirectory

/-- The names among parts. -/
def namesOf (parts : List (List Char)) : List String :=
  (parts.filter (!·.isEmpty)).map String.ofList

/-- Parts one behind another have their names one behind another. -/
theorem namesOf_append (parts parts' : List (List Char)) :
    namesOf (parts ++ parts') = namesOf parts ++ namesOf parts' := by
  simp [namesOf]

/-- A part that is not empty is a name. -/
theorem namesOf_cons {name : List Char} (hname : name ≠ []) (parts : List (List Char)) :
    namesOf (name :: parts) = String.ofList name :: namesOf parts := by
  unfold namesOf
  rw [List.filter_cons_of_pos (by simpa using hname)]
  rfl

/-- A walk through some names and then others is a walk from where the first ends. -/
theorem walk_append (t : FileTree) (start : Place) (names names' : List String) :
    t.walk start (names ++ names') = (t.walk start names).bind (t.walk · names') := by
  induction names generalizing start with
  | nil => rfl
  | cons name names ih =>
    rw [List.cons_append, walk, walk]
    split
    · exact ih start
    · split
      · exact ih start.dropLast
      · cases t.lookUp start name with
        | error fault => rfl
        | ok found =>
          cases found with
          | none => rfl
          | some e =>
            cases e with
            | file content => rfl
            | directory => exact ih (start ++ [name])

/-- A dot leads nowhere else. -/
theorem walk_dots (t : FileTree) (place : Place) {names : List String}
    (hnames : ∀ name ∈ names, name = ".") : t.walk place names = .ok place := by
  induction names with
  | nil => rfl
  | cons name names ih =>
    rw [walk, if_pos (hnames name (by simp))]
    exact ih fun n hn => hnames n (by simp [hn])

/-- Where the last name of a path leads, from the directory that the others lead to. -/
def ending (place : Place) (slash : Bool) : Option String → Target
  | none => .existing place
  | some name =>
    if name = "." then .existing place
    else if name = ".." then .existing place.dropLast
    else .named place name slash

/-- A path leads where its last name does. -/
theorem exists_walk_of_locate {t : FileTree} {path : Path} {target : Target}
    (h : t.locate path = .ok target) :
    ∃ place, t.walk (t.startOf path.text.toList) (pathNames path.text.toList).dropLast = .ok place ∧
      target = ending place (path.text.toList.getLast? = some '/')
        (pathNames path.text.toList).getLast? := by
  unfold locate at h
  dsimp only at h
  split at h
  · cases h
  · split at h
    · cases h
    · split at h
      · cases h
      · -- no refusal of the text: what is left is the walk
        unfold startOf
        cases hwalk : t.walk (if path.text.toList.head? = some '/' then [] else t.workingDirectory)
            (pathNames path.text.toList).dropLast with
        | error fault => rw [hwalk] at h; cases h
        | ok place =>
          refine ⟨place, rfl, ?_⟩
          rw [hwalk] at h
          unfold ending
          cases hlast : (pathNames path.text.toList).getLast? with
          | none =>
            rw [hlast] at h
            exact (Except.ok.inj h).symm
          | some name =>
            rw [hlast] at h
            dsimp only at h ⊢
            by_cases hdot : name = "."
            · rw [if_pos hdot] at h ⊢
              exact (Except.ok.inj h).symm
            · rw [if_neg hdot] at h ⊢
              by_cases hup : name = ".."
              · rw [if_pos hup] at h ⊢
                exact (Except.ok.inj h).symm
              · rw [if_neg hup] at h ⊢
                exact (Except.ok.inj h).symm

theorem ofList_ne {cs : List Char} {s : String} (h : cs ≠ s.toList) : String.ofList cs ≠ s := by
  rintro rfl
  exact h String.toList_ofList.symm

/-- A walk through a name, and then nowhere else, ends below the directory it starts from. -/
theorem eq_of_walk {t : FileTree} {directory place : Place} {name : String} {dots : List String}
    (hdot : name ≠ ".") (hup : name ≠ "..") (hdots : ∀ n ∈ dots, n = ".")
    (h : t.walk directory (name :: dots) = .ok place) : place = directory ++ [name] := by
  rw [walk, if_neg hdot, if_neg hup] at h
  cases hfound : t.lookUp directory name with
  | error fault => rw [hfound] at h; cases h
  | ok found =>
    rw [hfound] at h
    cases found with
    | none => cases h
    | some e =>
      cases e with
      | file content => cases h
      | directory =>
        dsimp only at h
        rw [walk_dots t _ hdots] at h
        exact (Except.ok.inj h).symm

variable {t : FileTree} {path : Path} {place : Place} {target : Target} {name : List Char}
  {parts idle : List (List Char)}

/-- The parts after a file name are empty or dots, so the names among them are dots. -/
theorem eq_dot_of_mem_namesOf (hidle : ∀ part ∈ idle, Idle part) :
    ∀ n ∈ namesOf idle, n = "." := by
  intro n hn
  obtain ⟨part, hpart, rfl⟩ := List.mem_map.1 hn
  obtain ⟨hmem, hproper⟩ := List.mem_filter.1 hpart
  rcases hidle part hmem with rfl | rfl
  · cases hproper
  · rfl

/-- A path with a file name leads to the place of that name in the directory before it, even where
something comes after the name. -/
theorem place_of_locate (h : Named path.text.toList parts name idle)
    (hlocate : t.locate path = .ok target) :
    ∃ directory, t.walk (t.startOf path.text.toList) (namesOf parts) = .ok directory ∧
      target.place = directory ++ [String.ofList name] := by
  obtain ⟨place, hwalk, rfl⟩ := exists_walk_of_locate hlocate
  have hdot : String.ofList name ≠ "." := ofList_ne fun heq => h.proper (.inr heq)
  have hup : String.ofList name ≠ ".." := ofList_ne h.notUp
  have hdots := eq_dot_of_mem_namesOf h.idle
  have hnames : pathNames path.text.toList =
      namesOf parts ++ String.ofList name :: namesOf idle := by
    show namesOf (path.text.toList.splitOn '/') = _
    rw [h.splits, namesOf_append, namesOf_cons h.ne_nil]
  rw [hnames] at hwalk ⊢
  rcases List.eq_nil_or_concat (namesOf idle) with hnone | ⟨dots, last, hlast⟩
  · rw [hnone] at hwalk ⊢
    rw [List.dropLast_concat] at hwalk
    rw [List.getLast?_concat, ending, if_neg hdot, if_neg hup]
    exact ⟨place, hwalk, rfl⟩
  · -- the walk goes through the name itself, and stays there
    rw [List.concat_eq_append] at hlast
    rw [hlast, ← List.cons_append, ← List.append_assoc] at hwalk ⊢
    rw [List.dropLast_concat, walk_append] at hwalk
    rw [List.getLast?_concat, hdots last (by simp [hlast]), ending, if_pos rfl]
    cases hbefore : t.walk (t.startOf path.text.toList) (namesOf parts) with
    | error fault => rw [hbefore] at hwalk; cases hwalk
    | ok directory =>
      rw [hbefore] at hwalk
      exact ⟨directory, rfl, eq_of_walk hdot hup (fun n hn => hdots n (by simp [hlast, hn])) hwalk⟩

/-- The last part that is a name is where the parts after the file name end. -/
theorem exists_dropWhile_eq {parts : List (List Char)}
    (h : (parts.filter (!·.isEmpty)).head? = some name) (hname : name ≠ ['.']) :
    ∃ rest, parts.dropWhile (fun part => part.isEmpty || part == ['.']) = name :: rest := by
  induction parts with
  | nil => cases h
  | cons part parts ih =>
    by_cases hempty : part.isEmpty = true
    · rw [List.filter_cons_of_neg (by simp [hempty])] at h
      rw [List.dropWhile_cons, if_pos (by simp [hempty])]
      exact ih h
    · rw [List.filter_cons_of_pos (by simp [hempty])] at h
      cases h
      rw [List.dropWhile_cons, if_neg (by simp [hempty, hname])]
      exact ⟨parts, rfl⟩

/-- Only a path with a file name leads to a file. -/
theorem named?_isSome_of_leadsToFile (h : t.LeadsToFile path place) :
    (Path.named? path.text.toList).isSome := by
  obtain ⟨directory, name, hlocate, -, -⟩ := h.located
  obtain ⟨place', -, htarget⟩ := exists_walk_of_locate hlocate
  cases hlast : (pathNames path.text.toList).getLast? with
  | none => rw [hlast] at htarget; cases htarget
  | some last =>
    rw [hlast, ending] at htarget
    split at htarget
    · cases htarget
    · next hdot =>
      split at htarget
      · cases htarget
      · next hup =>
        -- the last name is looked for from the end, as the reader of the file name does
        have hhead : (((path.text.toList.splitOn '/').reverse.filter (!·.isEmpty)).head?.map
            String.ofList) = some last := by
          rw [List.filter_reverse, List.head?_reverse, ← List.getLast?_map]
          exact hlast
        obtain ⟨part, hpart, rfl⟩ := Option.map_eq_some_iff.1 hhead
        obtain ⟨rest, htrimmed⟩ := exists_dropWhile_eq hpart fun heq => hdot (by rw [heq])
        unfold Path.named? tailTrimmed
        rw [htrimmed]
        dsimp only
        rw [if_neg fun heq => hup (by rw [eq_of_beq heq])]
        rfl

/-- What follows a name says nothing about where a path starts. -/
theorem startOf_leading (t : FileTree) (parts : List (List Char)) (hname : name ≠ [])
    (suffix : List Char) :
    t.startOf (leading parts ++ (name ++ suffix)) = t.startOf (leading parts ++ name) := by
  have hhead : (leading parts ++ (name ++ suffix)).head? = (leading parts ++ name).head? := by
    cases name with
    | nil => exact absurd rfl hname
    | cons c name => simp [List.head?_append]
  unfold startOf
  rw [hhead]

/-- A path starts where its part up to the file name does. -/
theorem startOf_of_named {cs : List Char} (h : Named cs parts name idle) :
    t.startOf cs = t.startOf (leading parts ++ name) := by
  rw [h.text, startOf_leading t parts h.ne_nil]

/-- **What is written to the sibling is not what the path leads to.** -/
theorem place_ne_of_leadsToFile (h : t.LeadsToFile path.tempSibling place)
    (hlocate : t.locate path = .ok target) : target.place ≠ place := by
  cases hsome : Path.named? path.text.toList with
  | none =>
    -- the sibling is the path itself, and that leads to no file
    have hnamed := named?_isSome_of_leadsToFile h
    rw [tempSibling_eq_self hsome, hsome] at hnamed
    cases hnamed
  | some found =>
    obtain ⟨before, name⟩ := found
    obtain ⟨parts, idle, hnamed, -⟩ := exists_named_of_named? hsome
    rcases named_tempSibling hnamed with ⟨suffix, hsuffix, hsibling⟩ | hnone
    · obtain ⟨directory, last, hlocate', -, rfl⟩ := h.located
      obtain ⟨directory₁, hwalk, hplace⟩ := place_of_locate hnamed hlocate
      obtain ⟨directory₂, hwalk', hplace'⟩ := place_of_locate hsibling hlocate'
      -- both start from one directory and walk through the same parts
      have hdirectory : directory₁ = directory₂ := by
        rw [startOf_of_named hnamed] at hwalk
        rw [startOf_of_named hsibling, startOf_leading t parts hnamed.ne_nil, hwalk] at hwalk'
        exact Except.ok.inj hwalk'
      -- in one directory, two names of different lengths are two places
      rw [hplace, show directory ++ [last] = _ from hplace', hdirectory]
      intro heq
      have hlast : String.ofList name = String.ofList (name ++ suffix) := by simpa using heq
      have hname : name = name ++ suffix := String.ofList_injective hlast
      exact hsuffix (by simpa using hname)
    · have hsome' := named?_isSome_of_leadsToFile h
      rw [hnone] at hsome'
      cases hsome'

end FileTree
end TimeIds
