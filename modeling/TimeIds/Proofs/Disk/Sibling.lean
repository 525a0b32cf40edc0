import TimeIds.Disk.Path

/-!
# The temporary sibling of a path

A path is read by its parts between slashes. `Path.Named` says which of them is the file name: only
empty parts and single dots come after it. Cutting characters off the end of such a path shortens
what comes after the name, or the name itself, and leaves the parts before it alone; so the sibling
is the path up to its file name, and that name with something after it.

* **`Path.exists_named_of_named?`**, **`Path.Named.named?`** – the file name of a path;
* **`Path.Named.cut`** – what a cut leaves of it;
* **`Path.tempSibling_cases`**, **`Path.named_tempSibling`** – the text of the sibling, and its file
  name;
* **`Path.tempSibling_ne`** – it is not the path, if that has a file name.
-/

namespace TimeIds
namespace Path

/-! ## Parts -/

/-- The parts between slashes have none. -/
theorem not_mem_of_mem_splitOn {cs part : List Char} (h : part ∈ cs.splitOn '/') : '/' ∉ part := by
  induction cs generalizing part with
  | nil =>
    rw [List.splitOn_nil, List.mem_singleton] at h
    rw [h]
    exact List.not_mem_nil
  | cons c cs ih =>
    rw [List.splitOn_cons_eq_if_modifyHead] at h
    split at h
    · rcases List.mem_cons.1 h with rfl | h
      · exact List.not_mem_nil
      · exact ih h
    · next hc =>
      cases hsplit : cs.splitOn '/' with
      | nil => exact absurd hsplit (List.splitOn_ne_nil _ _)
      | cons first rest =>
        rw [hsplit, List.modifyHead_cons] at h
        have hfirst : '/' ∉ first := ih (by simp [hsplit])
        rcases List.mem_cons.1 h with rfl | h
        · simp only [List.mem_cons, not_or]
          exact ⟨fun heq => hc (by simp [← heq]), hfirst⟩
        · exact ih (by simp [hsplit, h])

/-- The last part of one text and the first of the next become one. -/
theorem splitOn_append (a b : List Char) :
    ∃ init last first rest, a.splitOn '/' = init ++ [last] ∧ b.splitOn '/' = first :: rest ∧
      (a ++ b).splitOn '/' = init ++ (last ++ first) :: rest := by
  induction a with
  | nil =>
    cases hsplit : b.splitOn '/' with
    | nil => exact absurd hsplit (List.splitOn_ne_nil _ _)
    | cons first rest => exact ⟨[], [], first, rest, by simp, rfl, hsplit⟩
  | cons c a ih =>
    obtain ⟨init, last, first, rest, ha, hb, hab⟩ := ih
    rw [List.cons_append, List.splitOn_cons_eq_if_modifyHead, List.splitOn_cons_eq_if_modifyHead,
      ha, hab]
    by_cases hc : (c == '/') = true
    · rw [if_pos hc, if_pos hc]
      exact ⟨[] :: init, last, first, rest, rfl, hb, rfl⟩
    · rw [if_neg hc, if_neg hc]
      cases init with
      | nil => exact ⟨[], c :: last, first, rest, rfl, hb, rfl⟩
      | cons part init => exact ⟨(c :: part) :: init, last, first, rest, rfl, hb, rfl⟩

/-- A beginning of a text breaks off inside its first part, or has that part whole and beginnings of
later ones. -/
theorem splitOn_beginning {kept lost first : List Char} {later : List (List Char)}
    (h : (kept ++ lost).splitOn '/' = first :: later) :
    (∃ rest, first = kept ++ rest) ∨
      ∃ later', kept.splitOn '/' = first :: later' ∧
        ∀ part ∈ later', ∃ rest, part ++ rest ∈ later := by
  obtain ⟨init, last, next, rest, hkept, -, hboth⟩ := splitOn_append kept lost
  rw [h] at hboth
  cases init with
  | nil =>
    left
    have hjoined : ['/'].intercalate (kept.splitOn '/') = kept := List.intercalate_splitOn '/'
    rw [hkept, List.nil_append, List.intercalate_singleton] at hjoined
    rw [← hjoined]
    exact ⟨next, (List.cons.inj hboth).1⟩
  -- the first part is whole, so the break lies in one of those after it
  | cons part init =>
    right
    obtain ⟨rfl, hlater⟩ := List.cons.inj hboth
    refine ⟨init ++ [last], hkept, fun part hpart => ?_⟩
    rw [hlater]
    rcases List.mem_append.1 hpart with hpart | hpart
    · exact ⟨[], by simp [hpart]⟩
    · rw [List.mem_singleton.1 hpart]
      exact ⟨next, by simp⟩

/-- The text of parts that others follow. -/
def leading (parts : List (List Char)) : List Char := (parts.map (· ++ ['/'])).flatten

/-- The text of parts that follow others. -/
def trailing (parts : List (List Char)) : List Char := (parts.map ('/' :: ·)).flatten

/-- Parts that are put before a text, with a slash after each, are its first parts. -/
theorem splitOn_leading {parts : List (List Char)} (hparts : ∀ part ∈ parts, '/' ∉ part)
    (cs : List Char) : (leading parts ++ cs).splitOn '/' = parts ++ cs.splitOn '/' := by
  induction parts with
  | nil => rfl
  | cons part parts ih =>
    have htext : leading (part :: parts) ++ cs = part ++ '/' :: (leading parts ++ cs) := by
      simp [leading]
    rw [htext, List.splitOn_append_cons_self_of_not_mem (hparts part (by simp)),
      ih fun p hp => hparts p (by simp [hp])]
    rfl

/-- A text made of parts, as what stands before one of them, that part, and what comes after it. -/
theorem intercalate_eq (parts idle : List (List Char)) (name : List Char) :
    ['/'].intercalate (parts ++ name :: idle) = leading parts ++ (name ++ trailing idle) := by
  induction parts with
  | nil =>
    induction idle generalizing name with
    | nil => simp [leading, trailing]
    | cons part idle ih =>
      have hrest := ih part
      simp only [List.nil_append, leading, List.map_nil, List.flatten_nil] at hrest ⊢
      rw [List.intercalate_cons_cons, hrest]
      simp [trailing]
  | cons part parts ih =>
    cases hrest : parts ++ name :: idle with
    | nil => simp at hrest
    | cons next rest =>
      rw [hrest] at ih
      rw [List.cons_append, hrest, List.intercalate_cons_cons, ih]
      simp [leading]

/-! ## File names -/

/-- A part that may come after a file name. -/
def Idle (part : List Char) : Prop := part = [] ∨ part = ['.']

/-- The beginning of such a part is such a part. -/
theorem Idle.of_append {part rest : List Char} (h : Idle (part ++ rest)) : Idle part := by
  cases part with
  | nil => exact .inl rfl
  | cons c part =>
    rcases h with h | h
    · cases h
    · obtain ⟨rfl, hnil⟩ := List.cons.inj h
      right
      rw [(List.append_eq_nil_iff.1 hnil).1]

/-- A path with a file name: the parts that lead to it, the name, and what comes after it. -/
structure Named (cs : List Char) (parts : List (List Char)) (name : List Char)
    (idle : List (List Char)) : Prop where
  splits : cs.splitOn '/' = parts ++ name :: idle
  idle : ∀ part ∈ idle, Idle part
  proper : ¬Idle name
  notUp : name ≠ ['.', '.']

variable {cs name : List Char} {parts idle : List (List Char)}

/-- The text of a path with a file name. -/
theorem Named.text (h : Named cs parts name idle) :
    cs = leading parts ++ (name ++ trailing idle) := by
  rw [← intercalate_eq, ← h.splits, List.intercalate_splitOn]

theorem Named.ne_nil (h : Named cs parts name idle) : name ≠ [] := fun hnil => h.proper (.inl hnil)

theorem Named.slashes (h : Named cs parts name idle) : ∀ part ∈ parts, '/' ∉ part := by
  intro part hpart
  have hmem : part ∈ cs.splitOn '/' := by simp [h.splits, hpart]
  exact not_mem_of_mem_splitOn hmem

theorem Named.not_mem (h : Named cs parts name idle) : '/' ∉ name := by
  have hmem : name ∈ cs.splitOn '/' := by simp [h.splits]
  exact not_mem_of_mem_splitOn hmem

/-- Trimmed from its end, a path begins with its file name. -/
theorem tailTrimmed_of_splits (hsplits : cs.splitOn '/' = parts ++ name :: idle)
    (hidle : ∀ part ∈ idle, Idle part) (hproper : ¬Idle name) :
    tailTrimmed cs = name :: parts.reverse := by
  have hskip : ∀ part ∈ idle.reverse, (part.isEmpty || part == ['.']) = true := by
    intro part hpart
    rcases hidle part (List.mem_reverse.1 hpart) with rfl | rfl <;> rfl
  have hstop : ¬(name.isEmpty || name == ['.']) = true := by
    simpa [Idle, not_or] using hproper
  unfold tailTrimmed
  rw [hsplits, List.reverse_append, List.reverse_cons, List.append_assoc,
    List.dropWhile_append_of_pos hskip, List.singleton_append]
  exact List.dropWhile_cons_of_neg hstop

/-- **The file name of a path**, as it is read. -/
theorem Named.named? (h : Named cs parts name idle) : named? cs = some (leading parts, name) := by
  unfold Path.named?
  rw [tailTrimmed_of_splits h.splits h.idle h.proper]
  dsimp only
  rw [if_neg (by simpa using h.notUp), List.reverse_reverse]
  rfl

/-- What is left after trimming tells where the trimmed parts were. -/
theorem exists_splits_of_tailTrimmed {rest : List (List Char)} (h : tailTrimmed cs = name :: rest) :
    ∃ idle, cs.splitOn '/' = rest.reverse ++ name :: idle ∧ (∀ part ∈ idle, Idle part) ∧
      ¬Idle name := by
  let skipped := (cs.splitOn '/').reverse.takeWhile fun part => part.isEmpty || part == ['.']
  have hreverse : skipped ++ name :: rest = (cs.splitOn '/').reverse := by
    rw [← h]
    exact List.takeWhile_append_dropWhile
  have hskipped : ∀ part ∈ skipped, Idle part := by
    intro part hpart
    simpa [Idle] using List.all_eq_true.1 List.all_takeWhile part hpart
  refine ⟨skipped.reverse, ?_, fun part hpart => hskipped part (List.mem_reverse.1 hpart), ?_⟩
  · rw [← List.reverse_reverse (cs.splitOn '/'), ← hreverse]
    simp
  · have hhead := List.head?_dropWhile_not
      (fun part : List Char => part.isEmpty || part == ['.']) (cs.splitOn '/').reverse
    unfold tailTrimmed at h
    rw [h] at hhead
    simpa [Idle] using hhead

/-- What a path is read as, if it has a file name. -/
theorem exists_named_of_named? {before : List Char} (h : Path.named? cs = some (before, name)) :
    ∃ parts idle, Named cs parts name idle ∧ before = leading parts := by
  unfold Path.named? at h
  cases htrimmed : tailTrimmed cs with
  | nil => rw [htrimmed] at h; cases h
  | cons first rest =>
    rw [htrimmed] at h
    dsimp only at h
    split at h
    · cases h
    · next hup =>
      cases h
      obtain ⟨idle, hsplits, hidle, hproper⟩ := exists_splits_of_tailTrimmed htrimmed
      exact ⟨rest.reverse, idle, ⟨hsplits, hidle, hproper, by simpa using hup⟩, rfl⟩

/-- The name may be exchanged for another. -/
theorem Named.exchange (h : Named cs parts name idle) {name' : List Char} (hslash : '/' ∉ name')
    (hproper : ¬Idle name') (hnotUp : name' ≠ ['.', '.']) :
    Named (leading parts ++ name') parts name' [] := by
  refine ⟨?_, by simp, hproper, hnotUp⟩
  rw [splitOn_leading h.slashes, List.splitOn_eq_singleton hslash]

/-- A path to the directory above has no file name. -/
theorem Named.named?_up (h : Named cs parts name idle) :
    Path.named? (leading parts ++ ['.', '.']) = none := by
  have hsplits : (leading parts ++ ['.', '.']).splitOn '/' = parts ++ ['.', '.'] :: [] := by
    rw [splitOn_leading h.slashes]
    rfl
  unfold Path.named?
  rw [tailTrimmed_of_splits hsplits (by simp) (by simp [Idle])]
  rfl

/-! ## Stems and extensions -/

/-- Characters without a given one all pass the test against it. -/
theorem forall_bne_of_not_mem {c : Char} {cs : List Char} (h : c ∉ cs) :
    ∀ c' ∈ cs, (c' != c) = true := by
  intro c' hc'
  simp only [bne_iff_ne, ne_eq]
  rintro rfl
  exact h hc'

/-- A name is cut at its last dot, unless the dot comes first. -/
theorem cutName_append (stem : List Char) {extension : List Char} (hdot : '.' ∉ extension) :
    cutName (stem ++ '.' :: extension) =
      if stem.isEmpty then (stem ++ '.' :: extension, none) else (stem, some extension) := by
  have hall : ∀ c ∈ extension.reverse, (c != '.') = true :=
    forall_bne_of_not_mem (by simpa using hdot)
  have htaken : (stem ++ '.' :: extension).reverse.takeWhile (· != '.') = extension.reverse := by
    rw [List.reverse_append, List.reverse_cons, List.append_assoc,
      List.takeWhile_append_of_pos hall]
    simp
  have hstem : (stem ++ '.' :: extension).take
      ((stem ++ '.' :: extension).length - extension.length - 1) = stem := by
    rw [List.length_append, List.length_cons,
      show stem.length + (extension.length + 1) - extension.length - 1 = stem.length from by omega]
    exact List.take_left
  unfold cutName
  rw [htaken, List.reverse_reverse]
  dsimp only
  rw [hstem]

/-- A name has no extension, or is cut at its last dot. -/
theorem cutName_cases (name : List Char) :
    cutName name = (name, none) ∨
      ∃ stem extension, name = stem ++ '.' :: extension ∧ stem ≠ [] ∧ '.' ∉ extension := by
  -- the last dot of the name is the first one from its end
  by_cases hdot : '.' ∈ name.reverse
  · obtain ⟨after, before, heq, hafter⟩ := List.eq_append_cons_of_mem hdot
    have hname : name = before.reverse ++ '.' :: after.reverse := by
      rw [← List.reverse_reverse name, heq]
      simp
    have hextension : '.' ∉ after.reverse := by simpa using hafter
    cases hbefore : before.reverse with
    | nil =>
      left
      rw [hname, cutName_append _ hextension, hbefore]
      rfl
    | cons c stem => exact .inr ⟨_, _, hname, by simp [hbefore], hextension⟩
  · left
    have htaken : (name.reverse ++ []).takeWhile (· != '.') = name.reverse ++ [] :=
      List.takeWhile_append_of_pos (forall_bne_of_not_mem hdot)
    rw [List.append_nil] at htaken
    unfold cutName
    rw [htaken]
    simp

theorem Named.extension? (h : Named cs parts name idle) :
    Path.extension? cs = (cutName name).2 := by
  unfold Path.extension?
  rw [h.named?]
  rfl

/-- Another extension is put behind the stem of the file name, and what came after the name is
gone. -/
theorem Named.setExtension (h : Named cs parts name idle) (extension : List Char) :
    Path.setExtension cs extension =
      leading parts ++ ((cutName name).1 ++ '.' :: extension) := by
  unfold Path.setExtension
  rw [h.named?]
  simp

/-- As many characters as the extension has, cut off the end of a path, leave the stem and its
dot. -/
theorem Named.take_eq {stem extension : List Char}
    (h : Named cs parts (stem ++ '.' :: extension) idle) :
    cs.take (cs.length - extension.length) =
      leading parts ++
        (stem ++ '.' :: (extension ++ trailing idle).take (trailing idle).length) := by
  have htext : cs = (leading parts ++ (stem ++ ['.'])) ++ (extension ++ trailing idle) := by
    rw [h.text]
    simp
  have hlength : cs.length - extension.length =
      (leading parts ++ (stem ++ ['.'])).length + (trailing idle).length := by
    rw [htext]
    simp only [List.length_append]
    omega
  rw [hlength, htext, List.take_length_add_append]
  simp

/-- They come off what trails the name, or off the extension. -/
theorem Named.cut {stem extension : List Char} (h : Named cs parts (stem ++ '.' :: extension) idle) :
    (∃ idle', Named (cs.take (cs.length - extension.length)) parts (stem ++ '.' :: extension)
      idle') ∨
    ∃ kept lost, extension = kept ++ lost ∧
      cs.take (cs.length - extension.length) = leading parts ++ (stem ++ '.' :: kept) := by
  let kept := (extension ++ trailing idle).take (trailing idle).length
  let lost := (extension ++ trailing idle).drop (trailing idle).length
  have hsplits : ((stem ++ '.' :: kept) ++ lost).splitOn '/' =
      (stem ++ '.' :: extension) :: idle := by
    have hcs := h.splits
    rw [h.text, splitOn_leading h.slashes] at hcs
    rw [show (stem ++ '.' :: kept) ++ lost = (stem ++ '.' :: extension) ++ trailing idle from by
      simp [kept, lost]]
    exact List.append_cancel_left hcs
  -- with what trails it cut short, the name may be whole or may have lost its end
  rcases splitOn_beginning hsplits with ⟨rest, hname⟩ | ⟨idle', hkept, hidle'⟩
  · right
    exact ⟨kept, rest, by simpa using hname, h.take_eq⟩
  · left
    refine ⟨idle', ?_, fun part hpart => ?_, h.proper, h.notUp⟩
    · rw [h.take_eq, splitOn_leading h.slashes, hkept]
    · obtain ⟨rest, hrest⟩ := hidle' part hpart
      exact (h.idle _ hrest).of_append

/-! ## The sibling -/

/-- The sibling has the extension of the path, if there is one, and more behind it. -/
theorem toList_tempSibling (path : Path) :
    path.tempSibling.text.toList =
      withExtension path.text.toList
        ((extension? path.text.toList).getD [] ++ ".tmp".toList) :=
  String.toList_ofList

/-- A path without a file name is its own sibling. -/
theorem tempSibling_eq_self {path : Path} (h : named? path.text.toList = none) :
    path.tempSibling = path := by
  have htext : path.tempSibling.text.toList = path.text.toList := by
    have hextension : extension? path.text.toList = none := by
      unfold extension?
      rw [h]
      rfl
    rw [toList_tempSibling, hextension]
    unfold withExtension setExtension
    rw [hextension]
    simp [h]
  cases path with
  | mk text => exact congrArg mk (String.toList_inj.1 htext)

/-- **The text of the sibling**: the path up to its file name, and that name with something after it.
Only the sibling of `..x` and the like is the directory above instead. -/
theorem tempSibling_cases {path : Path} (h : Named path.text.toList parts name idle) :
    (∃ suffix, (suffix = ".tmp".toList ∨ suffix = "..tmp".toList) ∧
      path.tempSibling.text.toList = leading parts ++ (name ++ suffix)) ∨
    path.tempSibling.text.toList = leading parts ++ ['.', '.'] := by
  rw [toList_tempSibling]
  unfold withExtension
  dsimp only
  rw [h.extension?]
  -- without an extension nothing is cut off; otherwise the old extension is cut off the end of the
  -- path, wherever the name ends
  rcases cutName_cases name with hcut | ⟨stem, extension, rfl, hstem, hdot⟩
  · left
    refine ⟨"..tmp".toList, .inr rfl, ?_⟩
    rw [hcut]
    show setExtension (List.take (_ - 0) _) _ = _
    rw [Nat.sub_zero, List.take_length, h.setExtension, hcut]
    rfl
  · have hcut {extension : List Char} (hdot : '.' ∉ extension) :
        cutName (stem ++ '.' :: extension) = (stem, some extension) := by
      rw [cutName_append stem hdot, if_neg (by simpa using hstem)]
    rw [hcut hdot]
    dsimp only [Option.getD_some]
    have hresult : stem ++ '.' :: (extension ++ ".tmp".toList) =
        (stem ++ '.' :: extension) ++ ".tmp".toList := by
      simp
    rcases h.cut with ⟨idle', hwhole⟩ | ⟨kept, lost, rfl, htext⟩
    · left
      refine ⟨".tmp".toList, .inl rfl, ?_⟩
      rw [hwhole.setExtension, hcut hdot, hresult]
    · rw [htext]
      -- a cut into the extension may leave two dots, and these are no file name
      by_cases hup : stem ++ '.' :: kept = ['.', '.']
      · right
        rw [hup]
        unfold setExtension
        rw [h.named?_up]
      · left
        refine ⟨".tmp".toList, .inl rfl, ?_⟩
        have hslash : '/' ∉ stem ++ '.' :: kept := by
          have hname := h.not_mem
          simp only [List.mem_append, List.mem_cons, not_or] at hname ⊢
          exact ⟨hname.1, hname.2.1, hname.2.2.1⟩
        have hproper : ¬Idle (stem ++ '.' :: kept) := by
          rintro (hnil | hsingle)
          · simp at hnil
          · cases stem with
            | nil => exact hstem rfl
            | cons c stem => simp at hsingle
        have hkept : '.' ∉ kept := fun hmem => hdot (List.mem_append_left _ hmem)
        rw [(h.exchange hslash hproper hup).setExtension, hcut hkept, hresult]

/-- The sibling has a longer file name behind the same parts, or none at all. -/
theorem named_tempSibling {path : Path} (h : Named path.text.toList parts name idle) :
    (∃ suffix, suffix ≠ [] ∧ Named path.tempSibling.text.toList parts (name ++ suffix) []) ∨
      named? path.tempSibling.text.toList = none := by
  rcases tempSibling_cases h with ⟨suffix, hsuffix, htext⟩ | htext
  · left
    have hslash : '/' ∉ suffix := by
      rcases hsuffix with rfl | rfl <;> decide
    -- four characters more are no dot and no two dots
    have hlength : 4 ≤ suffix.length := by
      rcases hsuffix with rfl | rfl <;> decide
    refine ⟨suffix, List.ne_nil_of_length_pos (by omega), ?_⟩
    rw [htext]
    apply h.exchange
    · simp [h.not_mem, hslash]
    · exact fun hidle => h.proper hidle.of_append
    · intro hup
      have hlong := congrArg List.length hup
      simp only [List.length_append, List.length_cons, List.length_nil] at hlong
      omega
  · right
    rw [htext]
    exact h.named?_up

/-- A path with a file name is not its own sibling. -/
theorem tempSibling_ne {path : Path} (h : (named? path.text.toList).isSome) :
    path.tempSibling ≠ path := by
  obtain ⟨⟨before, name⟩, hsome⟩ := Option.isSome_iff_exists.1 h
  obtain ⟨parts, idle, hnamed, rfl⟩ := exists_named_of_named? hsome
  intro heq
  rcases named_tempSibling hnamed with ⟨suffix, hsuffix, hsibling⟩ | hnone
  · have hname : (leading parts, name ++ suffix) = (leading parts, name) := by
      have hsibling := hsibling.named?
      rw [heq, hsome] at hsibling
      exact (Option.some.inj hsibling).symm
    exact hsuffix (by simpa using hname)
  · rw [heq, hsome] at hnone
    cases hnone

end Path
end TimeIds
