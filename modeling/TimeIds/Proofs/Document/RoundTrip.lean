import TimeIds.Proofs.Document.Text
import TimeIds.Proofs.Node.Marks

/-!
# Documents survive writing and reading

Nodes are storable if no identifier occurs twice and every clock sequence has at most 14 bits.
Storable nodes are read back as they were written, and nothing else is ever read, so that what was
read can be written again.

* **`Document.ofText_text`** – a printed document with storable nodes reads back as it was;
* **`Document.storable_of_ofText`** – the nodes of any document that is read are storable;
* **`Document.reads_back_iff`** – both together: which documents read back, and that all that were
  read do.
-/

namespace TimeIds

/-- The written form of an identifier, as a text, reads back as the identifier. -/
theorem NodeId.ofText?_text (id : NodeId) : ofText? id.text = some id := by
  have hblank : ∀ c ∈ id.chars, Text.isBlank c = false :=
    id.forall_mem_chars (by decide) (by decide)
  unfold ofText? text
  rw [String.toList_ofList, Text.trimChars_of_ends
    (fun c hc => hblank c (List.mem_of_mem_head? hc))
    (fun c hc => hblank c (List.mem_of_getLast? hc)), ofChars?_chars]

namespace Document

/-- Nodes that a document keeps as they are: no identifier twice, and every clock sequence within 14
bits. -/
structure Storable (nodes : List Node) : Prop where
  distinct : (nodes.map Node.id).Nodup
  masked : ∀ n ∈ nodes, n.Masked

/-- A node may come before storable ones if its sequence is masked and its identifier is new. -/
theorem storable_cons {n : Node} {nodes : List Node} :
    Storable (n :: nodes) ↔ n.Masked ∧ (∀ n' ∈ nodes, n'.id ≠ n.id) ∧ Storable nodes := by
  constructor
  · rintro ⟨hdistinct, hmasked⟩
    rw [List.map_cons, List.nodup_cons] at hdistinct
    refine ⟨hmasked n (by simp), fun n' hn' heq => hdistinct.1 ?_, hdistinct.2,
      fun n' hn' => hmasked n' (List.mem_cons_of_mem _ hn')⟩
    rw [← heq]
    exact List.mem_map_of_mem hn'
  · rintro ⟨hn, hnew, hdistinct, hmasked⟩
    refine ⟨?_, fun n' hn' => ?_⟩
    · rw [List.map_cons, List.nodup_cons]
      refine ⟨fun hmem => ?_, hdistinct⟩
      obtain ⟨n', hn', heq⟩ := List.mem_map.1 hmem
      exact hnew n' hn' heq
    · rcases List.mem_cons.1 hn' with rfl | hn'
      · exact hn
      · exact hmasked n' hn'

/-- Another history leaves the identifiers as they are. -/
theorem map_id_set {nodes : List Node} {i : Nat} (hi : i < nodes.length) {n : Node}
    (hid : n.id = nodes[i].id) : (nodes.set i n).map Node.id = nodes.map Node.id := by
  have hi : i < (nodes.map Node.id).length := by simpa using hi
  have hget : nodes[i].id = (nodes.map Node.id)[i] := by simp
  rw [List.map_set, hid, hget, List.set_getElem_self]

/-- Storable nodes stay so when one of them gets another history. -/
theorem Storable.set {nodes : List Node} (hnodes : Storable nodes) {i : Nat}
    (hi : i < nodes.length) {n : Node} (hid : n.id = nodes[i].id) (hmasked : n.Masked) :
    Storable (nodes.set i n) := by
  constructor
  · rw [map_id_set hi hid]
    exact hnodes.distinct
  · intro n' hn'
    rcases List.mem_or_eq_of_mem_set hn' with hn' | rfl
    · exact hnodes.masked n' hn'
    · exact hmasked

/-! ## What was written is read -/

/-- A masked sequence is read back, with no draw for it. -/
theorem sequence?_entryOf {n : Node} (hmasked : n.Masked) :
    (entryOf n).sequence? = some n.clockSequence := by
  -- the reader compares in 64 bits what is bounded in 16
  have hle : n.clockSequence.toUInt64 ≤ clockSequenceMax.toUInt64 := by
    rw [UInt64.le_iff_toNat_le, UInt16.toNat_toUInt64, UInt16.toNat_toUInt64,
      ← UInt16.le_iff_toNat_le]
    exact hmasked
  unfold NodeEntry.sequence? entryOf
  simp only [Option.bind_some, Json.Value.word?, Option.filter_some, hle, decide_true, if_true,
    Option.map_some, UInt16.toUInt16_toUInt64]

/-- Induction over the nodes; the identifiers taken are those of the nodes before. -/
theorem nodes_entryOf (sequence : Nat → UInt16) {nodes : List Node} (hnodes : Storable nodes)
    {taken : List NodeId} (htaken : ∀ n ∈ nodes, n.id ∉ taken) (drawn : Nat) :
    NodeEntry.nodes sequence taken drawn (nodes.map entryOf) = nodes := by
  induction nodes generalizing taken with
  | nil => rfl
  | cons n nodes ih =>
    obtain ⟨hmasked, hnew, hnodes⟩ := storable_cons.1 hnodes
    have hrest : NodeEntry.nodes sequence (n.id :: taken) drawn (nodes.map entryOf) = nodes := by
      refine ih hnodes ?_
      intro n' hn' hmem
      rcases List.mem_cons.1 hmem with heq | hmem
      · exact hnew n' hn' heq
      · exact htaken n' (by simp [hn']) hmem
    -- the entry is not left out: its identifier can be read and is new
    have hid : NodeId.ofText? (entryOf n).id = some n.id := n.id.ofText?_text
    have hsequence := sequence?_entryOf hmasked
    have hticks : (entryOf n).ticks = n.lastTicks := rfl
    rw [List.map_cons, NodeEntry.nodes, hid]
    dsimp only
    rw [if_neg (htaken n (by simp)), hsequence]
    dsimp only
    rw [hrest, hticks]

/-- **A printed document reads back as it was**, whatever the draws, if its nodes are storable. -/
theorem ofText_text (sequence : Nat → UInt16) {d : Document} (hnodes : Storable d.nodes) :
    ofText sequence d.text = .ok d := by
  unfold ofText
  rw [entries_text]
  dsimp only
  unfold Entries.document entriesOf
  rw [nodes_entryOf sequence hnodes (by simp)]
  cases d with
  | mk interval nodes => cases interval <;> rfl

/-! ## What reading gives -/

/-- A sequence that is read has at most 14 bits, whatever number stood there. -/
theorem sequence?_le {e : NodeEntry} {s : UInt16} (h : e.sequence? = some s) :
    s ≤ clockSequenceMax := by
  unfold NodeEntry.sequence? at h
  obtain ⟨w, hw, rfl⟩ := Option.map_eq_some_iff.1 h
  -- the reader keeps a word only within the bound, so nothing is cut off here
  have hle : w ≤ clockSequenceMax.toUInt64 := by
    simpa using (Option.filter_eq_some_iff.1 hw).2
  rw [UInt64.le_iff_toNat_le, UInt16.toNat_toUInt64] at hle
  rw [UInt16.le_iff_toNat_le, UInt64.toNat_toUInt16]
  exact Nat.le_trans (Nat.mod_le _ _) hle

/-- Induction over the entries; the identifiers taken are those of the nodes made so far. -/
theorem storable_nodes (sequence : Nat → UInt16) (es : List NodeEntry) (taken : List NodeId)
    (drawn : Nat) :
    Storable (NodeEntry.nodes sequence taken drawn es) ∧
      ∀ n ∈ NodeEntry.nodes sequence taken drawn es, n.id ∉ taken := by
  induction es generalizing taken drawn with
  | nil => exact ⟨⟨List.nodup_nil, by simp [NodeEntry.nodes]⟩, by simp [NodeEntry.nodes]⟩
  | cons e es ih =>
    -- a node with a new identifier may come before those that leave it alone
    have hcons {n : Node} {drawn : Nat} (hnew : n.id ∉ taken) (hn : n.Masked) :
        Storable (n :: NodeEntry.nodes sequence (n.id :: taken) drawn es) ∧
          ∀ n' ∈ n :: NodeEntry.nodes sequence (n.id :: taken) drawn es, n'.id ∉ taken := by
      obtain ⟨hnodes, houtside⟩ := ih (n.id :: taken) drawn
      refine ⟨storable_cons.2 ⟨hn, fun n' hn' heq => houtside n' hn' (by simp [heq]), hnodes⟩, ?_⟩
      intro n' hn'
      rcases List.mem_cons.1 hn' with rfl | hn'
      · exact hnew
      · exact fun hmem => houtside n' hn' (by simp [hmem])
    rw [NodeEntry.nodes]
    split
    · exact ih taken drawn
    · next id _ =>
      split
      · exact ih taken drawn
      · next hnew =>
        split
        · next s hs => exact hcons hnew (sequence?_le hs)
        · exact hcons hnew (Node.maskSequence_le _)

/-- The nodes of any document that is read are storable. -/
theorem storable_of_ofText {sequence : Nat → UInt16} {s : String} {d : Document}
    (h : ofText sequence s = .ok d) : Storable d.nodes := by
  unfold ofText at h
  split at h
  · cases h
  · next e _ =>
    cases h
    exact (storable_nodes sequence e.nodes [] 0).1

/-! ## Documents that read back -/

/-- Storable, in terms of the nodes alone. -/
theorem storable_iff {nodes : List Node} :
    Storable nodes ↔
      (nodes.map Node.id).Nodup ∧ ∀ n ∈ nodes, n.clockSequence ≤ clockSequenceMax :=
  ⟨fun h => ⟨h.distinct, h.masked⟩, fun h => ⟨h.1, h.2⟩⟩

/-- A document that reads back is one that was read. -/
theorem ofText_text_iff (sequence : Nat → UInt16) (d : Document) :
    ofText sequence d.text = .ok d ↔ Storable d.nodes :=
  ⟨storable_of_ofText, ofText_text sequence⟩

/-- Every entry of a printed document brings a usable sequence along, so no draw is asked for. -/
theorem sequence?_ne_none_of_entries_text {d : Document} (hnodes : Storable d.nodes) {e : Entries}
    (h : Json.entries d.text = .ok e) : ∀ entry ∈ e.nodes, entry.sequence? ≠ none := by
  rw [entries_text] at h
  cases h
  intro entry hentry
  obtain ⟨n, hn, rfl⟩ := List.mem_map.1 hentry
  rw [sequence?_entryOf (hnodes.masked n hn)]
  simp

/-- **Which documents read back.** A document that is printed and read is the same again, interval
and nodes in their order, exactly if no identifier occurs twice and no clock sequence has more than
14 bits. Whatever text is read, with whatever draws, gives such a document: printed and read again
it is the same under any draws, and none of its entries is left to a draw. -/
theorem reads_back_iff :
    (∀ (d : Document) (sequence : Nat → UInt16),
      ofText sequence d.text = .ok d ↔
        (d.nodes.map Node.id).Nodup ∧ ∀ n ∈ d.nodes, n.clockSequence ≤ clockSequenceMax) ∧
    ∀ (sequence : Nat → UInt16) (s : String) (d : Document), ofText sequence s = .ok d →
      ((d.nodes.map Node.id).Nodup ∧ ∀ n ∈ d.nodes, n.clockSequence ≤ clockSequenceMax) ∧
      (∀ redrawn : Nat → UInt16, ofText redrawn d.text = .ok d) ∧
      ∃ e, Json.entries d.text = .ok e ∧ ∀ entry ∈ e.nodes, entry.sequence? ≠ none := by
  constructor
  · intro d sequence
    rw [ofText_text_iff, storable_iff]
  · intro sequence s d hread
    have hnodes : Storable d.nodes := storable_of_ofText hread
    refine ⟨storable_iff.1 hnodes, fun redrawn => ofText_text redrawn hnodes, ?_⟩
    exact ⟨_, entries_text d, sequence?_ne_none_of_entries_text hnodes (entries_text d)⟩

/-- An interval that is no number, and entries without an identifier, with a number in quotes, with
the identifier of the one before, and with a sequence of more than 14 bits. -/
def oddText : String :=
  "[\"soon\",[[\"x\"],[\"1a:2b:3c:4d:5e:01\",\"17\",8],[\"1A-2B-3C-4D-5E-01\"]," ++
    "[\"1A-2B-3C-4D-5E-02\",70000,9]]]"

/-- Two nodes come of the four entries, the second with a draw that is masked, and printed they read
back. -/
theorem reads_back_after_a_draw :
    ∃ d, ofText (fun _ => 0xFFFF) oddText = .ok d ∧
      d = ⟨some 0, [⟨⟨0x1A, 0x2B, 0x3C, 0x4D, 0x5E, 1⟩, 8, 17⟩,
        ⟨⟨0x1A, 0x2B, 0x3C, 0x4D, 0x5E, 2⟩, 0, 0x3FFF⟩]⟩ ∧
      ofText (fun _ => 7) d.text = .ok d := by
  have hfound : (ofText (fun _ => 0xFFFF) oddText).toOption =
      some ⟨some 0, [⟨⟨0x1A, 0x2B, 0x3C, 0x4D, 0x5E, 1⟩, 8, 17⟩,
        ⟨⟨0x1A, 0x2B, 0x3C, 0x4D, 0x5E, 2⟩, 0, 0x3FFF⟩]⟩ := by
    decide +kernel
  cases hread : ofText (fun _ => 0xFFFF) oddText with
  | error e => rw [hread] at hfound; cases hfound
  | ok d =>
    rw [hread] at hfound
    exact ⟨d, rfl, Option.some.inj hfound, (reads_back_iff.2 _ _ _ hread).2.1 fun _ => 7⟩

end Document
end TimeIds
