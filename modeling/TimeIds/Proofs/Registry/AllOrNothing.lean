import TimeIds.Proofs.Disk.Tracked
import TimeIds.Proofs.Registry.Saved

/-!
# Saves are all or nothing

A store that writes a document checks the nodes, writes the text to the temporary sibling and
renames that. Each of the three may fail, and then neither the document nor the store at hand has
changed; if none does, the document holds the nodes, the store at hand knows them, and the sibling
is gone.

* **`Store.saved_file`** – a save, step by step;
* **`Store.save_all_or_nothing`** – what is left behind in each case.
-/

namespace TimeIds

/-- What a save comes to, and what there is after it. -/
structure Saved (σ : Type) where
  result : Except IdError Unit
  store : Store
  disk : σ

/-- The nodes that a save writes: with every last tick put at `pin`, if that is given. -/
def savedNodes (nodes : List Node) : Option Ticks → List Node
  | none => nodes
  | some ticks => Registry.pinned nodes ticks

namespace Store

variable {σ : Type} [Disk (StateM σ)]

/-- Saves nodes as they are, or with every last tick put at `pin`. After a failure the store at hand
is the one before. -/
def saved (s : Store) (nodes : List Node) (pin : Option Ticks) (d : σ) : Saved σ :=
  match (match pin with
    | none => s.save nodes
    | some ticks => s.saveAt nodes ticks : OnDisk σ (Except IdError Store)) d with
  | (.error e, d') => ⟨.error e, s, d'⟩
  | (.ok s', d') => ⟨.ok (), s', d'⟩

/-- A save writes no identifier that it was not given. -/
theorem ensureDistinct_savedNodes (nodes : List Node) (pin : Option Ticks) :
    ensureDistinct (savedNodes nodes pin) = ensureDistinct nodes := by
  cases pin with
  | none => rfl
  | some ticks =>
    unfold ensureDistinct savedNodes Registry.pinned
    rw [List.map_map]
    rfl

/-- What a save writes may be stored if the nodes may, ahead or not. -/
theorem storable_savedNodes {nodes : List Node} (hnodes : Document.Storable nodes)
    (pin : Option Ticks) : Document.Storable (savedNodes nodes pin) := by
  cases pin with
  | none => exact hnodes
  | some ticks => exact Registry.storable_pinned hnodes ticks

/-- A save, step by step. -/
theorem saved_file (f : FileStore) (nodes : List Node) (pin : Option Ticks) (d : σ) :
    (file f).saved nodes pin d =
      match ensureDistinct nodes with
      | .error e => ⟨.error e, .file f, d⟩
      | .ok () =>
        match (Disk.replaceText f.path (f.document (savedNodes nodes pin)).text :
          OnDisk σ (Except FileFault Unit)) d with
        | (.error fault, d') => ⟨.error (.file fault), .file f, d'⟩
        | (.ok (), d') => ⟨.ok (), .file { f with nodes := savedNodes nodes pin }, d'⟩ := by
  have hsave : (match pin with
      | none => (file f).save nodes
      | some ticks => (file f).saveAt nodes ticks : OnDisk σ (Except IdError Store)) =
      (file f).save (savedNodes nodes pin) := by
    cases pin <;> rfl
  unfold saved
  rw [hsave, save_file, ensureDistinct_savedNodes]
  cases ensureDistinct nodes with
  | error e => rfl
  | ok _ =>
    dsimp only
    cases (Disk.replaceText f.path (f.document (savedNodes nodes pin)).text :
      OnDisk σ (Except FileFault Unit)) d with
    | mk outcome d' => cases outcome <;> rfl

/-- A replacement that is refused leaves the store at hand as it was. -/
theorem saved_of_refused {f : FileStore} {nodes : List Node} {pin : Option Ticks} {d d' : σ}
    (hdistinct : (nodes.map Node.id).Nodup) {fault : FileFault}
    (h : (Disk.replaceText f.path (f.document (savedNodes nodes pin)).text :
      OnDisk σ (Except FileFault Unit)) d = (.error fault, d')) :
    (file f).saved nodes pin d = ⟨.error (.file fault), .file f, d'⟩ := by
  rw [saved_file, ensureDistinct_eq_ok_iff.2 hdistinct]
  dsimp only
  rw [h]

/-- A replacement that is not leaves it with the nodes that were written. -/
theorem saved_of_replaced {f : FileStore} {nodes : List Node} {pin : Option Ticks} {d d' : σ}
    (hdistinct : (nodes.map Node.id).Nodup)
    (h : (Disk.replaceText f.path (f.document (savedNodes nodes pin)).text :
      OnDisk σ (Except FileFault Unit)) d = (.ok (), d')) :
    (file f).saved nodes pin d =
      ⟨.ok (), .file { f with nodes := savedNodes nodes pin }, d'⟩ := by
  rw [saved_file, ensureDistinct_eq_ok_iff.2 hdistinct]
  dsimp only
  rw [h]

/-- **A save is all or nothing.** Over any file system that does to its files what a tree does,
with failures of its own: nodes of which two have one identifier are refused before anything is
touched; where the write or the rename fails, nothing but the sibling has changed; and otherwise the
document reads back as the nodes, the sibling is gone and nothing else has changed. -/
theorem save_all_or_nothing {tree : σ → FileTree} (htree : Disk.Tracks tree) (f : FileStore)
    {nodes : List Node} (hmasked : ∀ n ∈ nodes, n.clockSequence ≤ clockSequenceMax)
    (pin : Option Ticks) (d : σ) :
    let temp := f.path.tempSibling
    let text := (f.document (savedNodes nodes pin)).text
    let written := (Disk.writeText temp text : OnDisk σ (Except FileFault Unit)) d
    let renamed := (Disk.rename temp f.path : OnDisk σ (Except FileFault Unit)) written.2
    let saved := (file f).saved nodes pin d
    (¬(nodes.map Node.id).Nodup →
      ∃ before n after, nodes = before ++ n :: after ∧ n.id ∈ before.map Node.id ∧
        (before.map Node.id).Nodup ∧
        saved = ⟨.error (.invalidArgument (.duplicateNode n.id)), .file f, d⟩) ∧
    ((nodes.map Node.id).Nodup → ∀ fault,
      written.1 = .error fault ∨ written.1 = .ok () ∧ renamed.1 = .error fault →
        saved.result = .error (.file fault) ∧ saved.store = .file f ∧
        (tree d).AgreesOff ((tree d).LeadsToFile temp) (tree saved.disk) ∧
        ∀ target, (tree d).locate f.path = .ok target →
          (tree saved.disk).get? target.place = (tree d).get? target.place) ∧
    ((nodes.map Node.id).Nodup → written.1 = .ok () → renamed.1 = .ok () →
      saved.result = .ok () ∧ saved.store = .file { f with nodes := savedNodes nodes pin } ∧
      (tree saved.disk).Holds f.path text ∧
      (∀ sequence, Document.ofText sequence text = .ok ⟨some f.interval, savedNodes nodes pin⟩) ∧
      (tree saved.disk).isPresent temp = false ∧
      (tree d).AgreesOff (fun place => (tree d).LeadsToFile temp place ∨
        (tree d).LeadsToFile f.path place) (tree saved.disk)) ∧
    ((Path.named? f.path.text.toList).isSome → temp ≠ f.path) := by
  intro temp text written renamed saved
  let replaced := (Disk.replaceText f.path text : OnDisk σ (Except FileFault Unit)) d
  -- the three ways to go: the check refuses, one of the two steps refuses, or none does
  refine ⟨fun hrepeat => ?_, fun hdistinct fault hfault => ?_, fun hdistinct hwritten hrenamed => ?_,
    Path.tempSibling_ne⟩
  · obtain ⟨before, n, after, hnodes, hn, hnodup, hrefused⟩ := exists_repeat_of_not_nodup hrepeat
    have hsaved : saved = _ := saved_file f nodes pin d
    rw [hrefused] at hsaved
    exact ⟨before, n, after, hnodes, hn, hnodup, hsaved⟩
  · have hreplaced : (Disk.replaceText f.path text : OnDisk σ (Except FileFault Unit)) d =
        (.error fault, replaced.2) :=
      Prod.ext (Disk.replaceText_of_error rfl hfault) rfl
    have hsaved : saved = _ := saved_of_refused hdistinct hreplaced
    -- what the path leads to is no place of the sibling
    have hagrees := htree.agrees_of_replaceText hreplaced
    rw [hsaved]
    exact ⟨rfl, rfl, hagrees, fun target => hagrees.get?_target⟩
  · have hreplaced : (Disk.replaceText f.path text : OnDisk σ (Except FileFault Unit)) d =
        (.ok (), replaced.2) :=
      Prod.ext (Disk.replaceText_of_ok rfl hwritten hrenamed) rfl
    have hsaved : saved = _ := saved_of_replaced hdistinct hreplaced
    have hdone := htree.replaced_of_replaceText hreplaced
    -- what reads back is what may be stored, so this is where the masks count
    have hstorable := storable_savedNodes (Document.storable_iff.2 ⟨hdistinct, hmasked⟩) pin
    rw [hsaved]
    exact ⟨rfl, rfl, hdone.holds, fun sequence => Document.ofText_text sequence hstorable,
      hdone.gone, hdone.rest⟩

/-- Two nodes with different identifiers, the second under the longest sequence. -/
def twoNodes : List Node := [⟨⟨2, 0, 0, 0, 0, 1⟩, 10, 5⟩, ⟨⟨2, 0, 0, 0, 0, 2⟩, 3, 0x3FFF⟩]

/-- A save that succeeds, one whose rename is refused after the write, and one of nodes that
repeat. -/
theorem save_all_or_nothing_on_a_tree :
    (∀ n ∈ twoNodes, n.clockSequence ≤ clockSequenceMax) ∧
    (((file { path := ⟨"s.json"⟩ }).saved twoNodes (some 77) ({} : FileTree)).disk.Holds ⟨"s.json"⟩
        (Document.text ⟨some 5000, Registry.pinned twoNodes 77⟩) ∧
      ((file { path := ⟨"s.json"⟩ }).saved twoNodes (some 77) ({} : FileTree)).disk.isPresent
        ⟨"s.json.tmp"⟩ = false) ∧
    (((file { path := ⟨"s/"⟩ }).saved twoNodes none ({} : FileTree)).result =
        .error (.file .notDirectory) ∧
      ((file { path := ⟨"s/"⟩ }).saved twoNodes none ({} : FileTree)).disk.isPresent
        ⟨"s..tmp"⟩ = true) ∧
    ∃ before n after, twoNodes ++ twoNodes = before ++ n :: after ∧ n.id ∈ before.map Node.id ∧
      (before.map Node.id).Nodup ∧
      (file { path := ⟨"s.json"⟩ }).saved (twoNodes ++ twoNodes) none ({} : FileTree) =
        ⟨.error (.invalidArgument (.duplicateNode n.id)), .file { path := ⟨"s.json"⟩ }, {}⟩ := by
  have hmasked : ∀ n ∈ twoNodes, n.clockSequence ≤ clockSequenceMax := by decide
  have hmasked' : ∀ n ∈ twoNodes ++ twoNodes, n.clockSequence ≤ clockSequenceMax := by decide
  have hdistinct : (twoNodes.map Node.id).Nodup := by decide
  obtain ⟨-, -, hholds, -, hgone, -⟩ :=
    (save_all_or_nothing Disk.tracks_tree { path := ⟨"s.json"⟩ } hmasked (some 77) {}).2.2.1
      hdistinct rfl rfl
  obtain ⟨hresult, -⟩ :=
    (save_all_or_nothing Disk.tracks_tree { path := ⟨"s/"⟩ } hmasked none {}).2.1
      hdistinct .notDirectory (.inr ⟨rfl, rfl⟩)
  have hrepeat :=
    (save_all_or_nothing Disk.tracks_tree { path := ⟨"s.json"⟩ } hmasked' none {}).1 (by decide)
  exact ⟨hmasked, ⟨hholds, hgone⟩, ⟨hresult, by decide +kernel⟩, hrepeat⟩

end Store
end TimeIds
