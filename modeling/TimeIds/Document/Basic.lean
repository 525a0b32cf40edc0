import TimeIds.Node.Basic

/-!
The document of a node registry: its flush interval and its nodes.

`ensureDistinct` is the condition under which nodes may be stored: no identifier twice. The fault
names the first node that repeats an earlier one.
-/
namespace TimeIds

/-- What is kept of a node registry between runs. -/
structure Document where
  /-- Milliseconds between flushes, if the document says so. -/
  interval : Option UInt64 := none
  nodes : List Node := []
deriving DecidableEq, Repr

/-- The first identifier that is among `seen` or repeats one before it. -/
def firstRepeat? (seen : List NodeId) : List NodeId → Option NodeId
  | [] => none
  | id :: rest => if id ∈ seen then some id else firstRepeat? (id :: seen) rest

/-- Refuses nodes of which two have one identifier. -/
def ensureDistinct (nodes : List Node) : Except IdError Unit :=
  match firstRepeat? [] (nodes.map Node.id) with
  | none => .ok ()
  | some id => .error (.invalidArgument (.duplicateNode id))

theorem firstRepeat?_eq_none_iff {seen ids : List NodeId} :
    firstRepeat? seen ids = none ↔ ids.Nodup ∧ ∀ id ∈ ids, id ∉ seen := by
  induction ids generalizing seen with
  | nil => simp [firstRepeat?]
  | cons id rest ih =>
    simp only [firstRepeat?]
    split
    · next h => simp [h]
    · next h =>
      rw [ih, List.nodup_cons]
      constructor
      · rintro ⟨hrest, hout⟩
        refine ⟨⟨fun hmem => hout id hmem (by simp), hrest⟩, ?_⟩
        intro x hx
        rcases List.mem_cons.1 hx with rfl | hx
        · exact h
        · exact fun hs => hout x hx (by simp [hs])
      · rintro ⟨⟨hid, hrest⟩, hout⟩
        refine ⟨hrest, fun x hx hs => ?_⟩
        rcases List.mem_cons.1 hs with rfl | hs
        · exact hid hx
        · exact hout x (by simp [hx]) hs

/-- Nodes may be stored if and only if their identifiers are pairwise distinct. -/
theorem ensureDistinct_eq_ok_iff {nodes : List Node} :
    ensureDistinct nodes = .ok () ↔ (nodes.map Node.id).Nodup := by
  have key : ensureDistinct nodes = .ok () ↔ firstRepeat? [] (nodes.map Node.id) = none := by
    unfold ensureDistinct
    split <;> simp_all
  rw [key, firstRepeat?_eq_none_iff]
  simp

/-- An identifier that is found is the first that is repeated. -/
theorem firstRepeat?_eq_some {seen ids : List NodeId} {id : NodeId}
    (h : firstRepeat? seen ids = some id) :
    ∃ before after, ids = before ++ id :: after ∧ (id ∈ seen ∨ id ∈ before) ∧
      before.Nodup ∧ ∀ x ∈ before, x ∉ seen := by
  induction ids generalizing seen with
  | nil => cases h
  | cons first rest ih =>
    rw [firstRepeat?] at h
    split at h
    · next hseen =>
      cases h
      exact ⟨[], rest, rfl, .inl hseen, List.nodup_nil, by simp⟩
    · next hnew =>
      obtain ⟨before, after, rfl, hid, hnodup, hout⟩ := ih h
      have hfirst : first ∉ before := fun hmem => hout first hmem (by simp)
      refine ⟨first :: before, after, rfl, ?_, List.nodup_cons.2 ⟨hfirst, hnodup⟩, ?_⟩
      · rcases hid with hid | hid
        · rcases List.mem_cons.1 hid with rfl | hid
          · exact .inr (by simp)
          · exact .inl hid
        · exact .inr (List.mem_cons_of_mem _ hid)
      · intro x hx hmem
        rcases List.mem_cons.1 hx with rfl | hx
        · exact hnew hmem
        · exact hout x hx (List.mem_cons_of_mem _ hmem)

/-- Where nodes may not be stored, the fault names the first that repeats one before it. -/
theorem exists_repeat_of_not_nodup {nodes : List Node} (h : ¬(nodes.map Node.id).Nodup) :
    ∃ before n after, nodes = before ++ n :: after ∧ n.id ∈ before.map Node.id ∧
      (before.map Node.id).Nodup ∧
      ensureDistinct nodes = .error (.invalidArgument (.duplicateNode n.id)) := by
  unfold ensureDistinct
  cases hrepeat : firstRepeat? [] (nodes.map Node.id) with
  | none => exact absurd (firstRepeat?_eq_none_iff.1 hrepeat).1 h
  | some id =>
    obtain ⟨before, after, hids, hid, hnodup, -⟩ := firstRepeat?_eq_some hrepeat
    obtain ⟨nodes₁, nodes₂, rfl, rfl, hafter⟩ := List.map_eq_append_iff.1 hids
    obtain ⟨n, nodes₃, rfl, rfl, -⟩ := List.map_eq_cons_iff.1 hafter
    exact ⟨nodes₁, n, nodes₃, rfl, by simpa using hid, hnodup, rfl⟩

end TimeIds
