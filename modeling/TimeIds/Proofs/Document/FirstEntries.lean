import TimeIds.Proofs.Document.RoundTrip

/-!
# The nodes of a document are its first entries

Of the entries that name one node the first makes it, and all others are as if they were not there;
the same goes for entries that name no node. Two identifiers name one node if they have the same
octets, however they are written.

One step of `NodeEntry.nodes` either skips an entry, and changes nothing (`nodes_cons_of_skipped`), or
makes its node and remembers the identifier (`nodes_cons_of_new`). All that follows is induction over
these two cases, with the identifiers taken so far left open.

* **`map_id_nodes`** – the identifiers that can be read, each once, in the order in which they first
  occur;
* **`exists_entry_of_node`** – a node is made of the first entry with its identifier alone;
* **`nodes_delete`** – skipped entries may be left out;
* **`Document.nodes_are_first_entries`** – all of this for the documents that texts read as.
-/

namespace TimeIds

namespace NodeEntry

/-- The node that an entry names, if its identifier can be read. -/
def named? (e : NodeEntry) : Option NodeId := NodeId.ofText? e.id

/-- Whether an entry names that node. -/
def names (id : NodeId) (e : NodeEntry) : Bool := e.named? == some id

/-- The nodes that entries name, each as often as it is named. -/
def named (es : List NodeEntry) : List NodeId := es.filterMap named?

/-- An entry that makes no node: it names none, or one that is taken. -/
def Skipped (taken : List NodeId) (e : NodeEntry) : Prop := ∀ id, e.named? = some id → id ∈ taken

/-- The node that an entry makes, under the sequence drawn for it if it has none of its own. -/
def node (e : NodeEntry) (id : NodeId) (draw : UInt16) : Node :=
  match e.sequence? with
  | some s => ⟨id, e.ticks, s⟩
  | none => Node.fresh id draw

/-- Whether the first entry that names the node leaves its sequence to a draw. -/
def leftToDraw (es : List NodeEntry) (id : NodeId) : Bool :=
  ((es.find? (names id)).bind sequence?).isNone

/-- An entry names the node that its identifier is read as. -/
theorem names_iff {id : NodeId} {e : NodeEntry} : names id e = true ↔ e.named? = some id :=
  beq_iff_eq

/-- An entry without an identifier that can be read names nothing. -/
theorem named_cons_of_none {e : NodeEntry} (h : e.named? = none) (es : List NodeEntry) :
    named (e :: es) = named es := List.filterMap_cons_none h

/-- An entry names at most one node. -/
theorem named_cons_of_some {e : NodeEntry} {id : NodeId} (h : e.named? = some id)
    (es : List NodeEntry) : named (e :: es) = id :: named es := List.filterMap_cons_some h

/-! ## One entry -/

section Step

variable {sequence : Nat → UInt16} {taken : List NodeId} {drawn : Nat} {e : NodeEntry}
  {es : List NodeEntry}

/-- An entry that is skipped makes no node and takes no draw. -/
theorem nodes_cons_of_skipped (h : e.Skipped taken) :
    nodes sequence taken drawn (e :: es) = nodes sequence taken drawn es := by
  rw [nodes]
  split
  · rfl
  · next id hid => rw [if_pos (h id hid)]

/-- An entry with a new identifier makes a node, and takes a draw if it has no usable sequence. -/
theorem nodes_cons_of_new {id : NodeId} (hid : e.named? = some id) (hnew : id ∉ taken) :
    nodes sequence taken drawn (e :: es) =
      e.node id (sequence drawn) ::
        nodes sequence (id :: taken) (drawn + if e.sequence?.isNone then 1 else 0) es := by
  rw [nodes, show NodeId.ofText? e.id = some id from hid]
  dsimp only
  rw [if_neg hnew]
  unfold node
  cases e.sequence? <;> rfl

/-- There is no third kind of entry. -/
theorem skipped_or_new (taken : List NodeId) (e : NodeEntry) :
    e.Skipped taken ∨ ∃ id, e.named? = some id ∧ id ∉ taken := by
  cases hid : e.named? with
  | none => exact .inl fun id h => by rw [hid] at h; cases h
  | some id =>
    by_cases hmem : id ∈ taken
    · refine .inl fun id' h => ?_
      rw [hid] at h
      cases h
      exact hmem
    · exact .inr ⟨id, rfl, hmem⟩

/-- A node has the identifier that its entry was read with. -/
theorem node_id (e : NodeEntry) (id : NodeId) (draw : UInt16) : (e.node id draw).id = id := by
  unfold node
  cases e.sequence? <;> rfl

/-- A skipped entry names none of the nodes that are made. -/
theorem names_eq_false_of_skipped (h : e.Skipped taken) {n : Node}
    (hn : n ∈ nodes sequence taken drawn es) : names n.id e = false := by
  rw [Bool.eq_false_iff, ne_eq, names_iff]
  intro hid
  exact (Document.storable_nodes sequence es taken drawn).2 n hn (h _ hid)

end Step

/-! ## The identifiers -/

/-- What is skipped names nothing that is not taken. -/
theorem filter_named_cons_of_skipped {taken : List NodeId} {e : NodeEntry} (h : e.Skipped taken)
    (es : List NodeEntry) :
    (named (e :: es)).filter (fun id => id ∉ taken) =
      (named es).filter fun id => id ∉ taken := by
  cases hid : e.named? with
  | none => rw [named_cons_of_none hid]
  | some id => rw [named_cons_of_some hid, List.filter_cons_of_neg (by simp [h id hid])]

/-- The nodes are those named and not taken, each where it is named first. -/
theorem map_id_nodes (sequence : Nat → UInt16) (taken : List NodeId) (drawn : Nat)
    (es : List NodeEntry) :
    (nodes sequence taken drawn es).map Node.id =
      ((named es).filter fun id => id ∉ taken).eraseDups := by
  induction es generalizing taken drawn with
  | nil => rfl
  | cons e es ih =>
    rcases skipped_or_new taken e with hskip | ⟨id, hid, hnew⟩
    · rw [nodes_cons_of_skipped hskip, filter_named_cons_of_skipped hskip, ih]
    · -- the identifiers taken leave out what `eraseDups` erases
      have hrest : (named es).filter (fun id' => id' ∉ id :: taken) =
          ((named es).filter fun id' => id' ∉ taken).filter fun id' => !id' == id := by
        rw [List.filter_filter]
        apply List.filter_congr
        intro id' _
        by_cases heq : id' = id <;> simp [heq]
      rw [nodes_cons_of_new hid hnew, named_cons_of_some hid,
        List.filter_cons_of_pos (by simp [hnew]), List.map_cons, node_id, ih, List.eraseDups_cons,
        hrest]

/-! ## The values -/

/-- An entry that names another node is no first entry of this one. -/
theorem find?_names_cons {e : NodeEntry} {id : NodeId} (h : names id e = false)
    (es : List NodeEntry) : (e :: es).find? (names id) = es.find? (names id) :=
  List.find?_cons_of_neg (by rw [h]; exact Bool.false_ne_true)

/-- The first entry that names a node decides whether it is left to a draw. -/
theorem leftToDraw_cons_self {e : NodeEntry} {id : NodeId} (h : names id e = true)
    (es : List NodeEntry) : leftToDraw (e :: es) id = e.sequence?.isNone := by
  unfold leftToDraw
  rw [List.find?_cons_of_pos h]
  rfl

/-- An entry that names none of the nodes does not matter to how many of them are left to a draw. -/
theorem countP_leftToDraw_cons {e : NodeEntry} {ms : List Node}
    (h : ∀ m ∈ ms, names m.id e = false) (es : List NodeEntry) :
    (ms.countP fun m => leftToDraw (e :: es) m.id) = ms.countP fun m => leftToDraw es m.id := by
  apply List.countP_congr
  intro m hm
  unfold leftToDraw
  rw [find?_names_cons (h m hm)]

/-- **A node is made of the first entry that names it alone.** Its draw, if it needs one, is the next
after those of the nodes before it. Induction over the entries. -/
theorem exists_entry_of_node {sequence : Nat → UInt16} {taken : List NodeId} {drawn i : Nat}
    {es : List NodeEntry} {n : Node} (h : (nodes sequence taken drawn es)[i]? = some n) :
    ∃ e, es.find? (names n.id) = some e ∧
      n = e.node n.id (sequence (drawn +
        ((nodes sequence taken drawn es).take i).countP fun m => leftToDraw es m.id)) := by
  induction es generalizing taken drawn i with
  | nil => cases h
  | cons e es ih =>
    rcases skipped_or_new taken e with hskip | ⟨id, hid, hnew⟩
    · rw [nodes_cons_of_skipped hskip] at h ⊢
      obtain ⟨first, hfirst, hn⟩ := ih h
      refine ⟨first, ?_, ?_⟩
      · rw [find?_names_cons (names_eq_false_of_skipped hskip (List.mem_of_getElem? h)), hfirst]
      · rw [countP_leftToDraw_cons fun m hm =>
          names_eq_false_of_skipped hskip (List.mem_of_mem_take hm)]
        exact hn
    · have hnames : names id e = true := names_iff.2 hid
      rw [nodes_cons_of_new hid hnew] at h ⊢
      cases i with
      | zero =>
        cases h
        refine ⟨e, ?_, ?_⟩
        · rw [node_id, List.find?_cons_of_pos hnames]
        · rw [node_id, List.take_zero, List.countP_nil, Nat.add_zero]
      | succ j =>
        rw [List.getElem?_cons_succ] at h
        obtain ⟨first, hfirst, hn⟩ := ih h
        -- for the entries behind it the identifier of this one is taken
        have hskip : e.Skipped (id :: taken) := by
          intro id' hid'
          rw [hid] at hid'
          cases hid'
          exact List.mem_cons_self
        refine ⟨first, ?_, ?_⟩
        · rw [find?_names_cons (names_eq_false_of_skipped hskip (List.mem_of_getElem? h)), hfirst]
        · rw [List.take_succ_cons, List.countP_cons, node_id, leftToDraw_cons_self hnames,
            countP_leftToDraw_cons fun m hm =>
              names_eq_false_of_skipped hskip (List.mem_of_mem_take hm),
            Nat.add_comm (List.countP _ _), ← Nat.add_assoc]
          exact hn

/-! ## Entries left out -/

/-- **Skipped entries may be left out.** Induction over the entries before. -/
theorem nodes_delete (sequence : Nat → UInt16) {taken : List NodeId} (drawn : Nat)
    {before : List NodeEntry} {e : NodeEntry} (h : e.Skipped (named before ++ taken))
    (after : List NodeEntry) :
    nodes sequence taken drawn (before ++ e :: after) =
      nodes sequence taken drawn (before ++ after) := by
  induction before generalizing taken drawn with
  | nil => exact nodes_cons_of_skipped h
  | cons first before ih =>
    rw [List.cons_append, List.cons_append]
    rcases skipped_or_new taken first with hskip | ⟨id, hid, hnew⟩
    · -- the first entry changes nothing, but may name what it is skipped for
      have hrest : e.Skipped (named before ++ taken) := by
        intro id hid
        have hmem := h id hid
        cases hfirst : first.named? with
        | none =>
          rw [named_cons_of_none hfirst] at hmem
          exact hmem
        | some id' =>
          rw [named_cons_of_some hfirst, List.cons_append, List.mem_cons] at hmem
          rcases hmem with rfl | hmem
          · exact List.mem_append_right _ (hskip _ hfirst)
          · exact hmem
      rw [nodes_cons_of_skipped hskip, nodes_cons_of_skipped hskip, ih _ hrest]
    · -- what it takes was among the names before, so the same are out of reach
      have hrest : e.Skipped (named before ++ id :: taken) := by
        intro id' hid'
        have hmem := h id' hid'
        rw [named_cons_of_some hid] at hmem
        exact List.perm_middle.symm.subset hmem
      rw [nodes_cons_of_new hid hnew, nodes_cons_of_new hid hnew, ih _ hrest]

/-! ## Sequences of entries -/

/-- The clock sequence that an entry writes, be it usable or not. -/
def writtenSequence? (e : NodeEntry) : Option UInt64 := e.clockSequence.bind Json.Value.word?

/-- A usable sequence is written as a word of at most 14 bits, and is that word. -/
theorem exists_of_sequence?_eq_some {e : NodeEntry} {s : UInt16} (h : e.sequence? = some s) :
    ∃ w, e.writtenSequence? = some w ∧ w ≤ 0x3FFF ∧ s.toNat = w.toNat := by
  unfold sequence? at h
  obtain ⟨w, hw, rfl⟩ := Option.map_eq_some_iff.1 h
  obtain ⟨hwritten, hle⟩ := Option.filter_eq_some_iff.1 hw
  have hle : w ≤ 0x3FFF := of_decide_eq_true hle
  have hlt : w.toNat ≤ 0x3FFF := UInt64.le_iff_toNat_le.1 hle
  exact ⟨w, hwritten, hle, by rw [UInt64.toNat_toUInt16]; omega⟩

/-- Where none is usable, a word that is written has more than 14 bits. -/
theorem lt_of_sequence?_eq_none {e : NodeEntry} (h : e.sequence? = none) {w : UInt64}
    (hw : e.writtenSequence? = some w) : 0x3FFF < w := by
  unfold sequence? at h
  have hnone := Option.map_eq_none_iff.1 h
  rw [show e.clockSequence.bind Json.Value.word? = some w from hw] at hnone
  have hnot : ¬ w ≤ 0x3FFF := by
    intro hle
    rw [Option.filter_some,
      if_pos (decide_eq_true (show w ≤ clockSequenceMax.toUInt64 from hle))] at hnone
    cases hnone
  exact UInt64.not_le.1 hnot

/-- The values of a node are those of its entry, or all of them are new: the tick of an entry without
a usable sequence is not kept. -/
theorem values_of_node {e : NodeEntry} {id : NodeId} {draw : UInt16} {n : Node}
    (h : n = e.node id draw) :
    (∃ w, e.writtenSequence? = some w ∧ w ≤ 0x3FFF ∧ n.clockSequence.toNat = w.toNat ∧
      n.lastTicks = (e.timestamp.bind Json.Value.word?).getD 0) ∨
    ((∀ w, e.writtenSequence? = some w → 0x3FFF < w) ∧ n.lastTicks = 0 ∧
      n.clockSequence = Node.maskSequence draw ∧ n.clockSequence ≤ clockSequenceMax) := by
  subst h
  unfold node
  cases hsequence : e.sequence? with
  | some s =>
    obtain ⟨w, hw, hle, hs⟩ := exists_of_sequence?_eq_some hsequence
    exact .inl ⟨w, hw, hle, hs, rfl⟩
  | none =>
    exact .inr ⟨fun w hw => lt_of_sequence?_eq_none hsequence hw, rfl, rfl,
      Node.maskSequence_le draw⟩

/-- An entry is skipped if it names no node, or the one of an earlier entry. -/
theorem skipped_of_repeats {before : List NodeEntry} {e : NodeEntry}
    (h : NodeId.ofText? e.id = none ∨
      ∃ earlier ∈ before, NodeId.ofText? earlier.id = NodeId.ofText? e.id) :
    e.Skipped (named before) := by
  intro id hid
  rcases h with hnone | ⟨earlier, hearlier, hsame⟩
  · rw [show NodeId.ofText? e.id = some id from hid] at hnone
    cases hnone
  · exact List.mem_filterMap.2 ⟨earlier, hearlier, hsame.trans hid⟩

end NodeEntry

namespace Document

/-- **The nodes of a document are its first entries.** A text that reads gives one node for each
identity among its entries, in the order in which they first occur, and each node is made of the
first entry that names it: with its sequence and its tick, a tick that is missing or unusable being
0, if that sequence can be read and has at most 14 bits, and otherwise with tick 0 and the next draw.
Without an entry that names no node, or one that an earlier entry names, the document is the same
under the same draws, and so is what any text gives that reads as the entries left. -/
theorem nodes_are_first_entries {sequence : Nat → UInt16} {s : String} {d : Document}
    (hread : ofText sequence s = .ok d) :
    ∃ e, Json.entries s = .ok e ∧
      d.nodes.map Node.id = (e.nodes.filterMap fun entry => NodeId.ofText? entry.id).eraseDups ∧
      (d.nodes.map Node.id).Nodup ∧
      (∀ i n, d.nodes[i]? = some n →
        ∃ first, e.nodes.find? (NodeEntry.names n.id) = some first ∧
          ((∃ w, first.writtenSequence? = some w ∧ w ≤ 0x3FFF ∧
              n.clockSequence.toNat = w.toNat ∧
              n.lastTicks = (first.timestamp.bind Json.Value.word?).getD 0) ∨
            ((∀ w, first.writtenSequence? = some w → 0x3FFF < w) ∧ n.lastTicks = 0 ∧
              n.clockSequence = Node.maskSequence (sequence
                ((d.nodes.take i).countP fun m => NodeEntry.leftToDraw e.nodes m.id)) ∧
              n.clockSequence ≤ clockSequenceMax))) ∧
      ∀ before entry after, e.nodes = before ++ entry :: after →
        (NodeId.ofText? entry.id = none ∨
          ∃ earlier ∈ before, NodeId.ofText? earlier.id = NodeId.ofText? entry.id) →
        Entries.document sequence { e with nodes := before ++ after } = d ∧
          ∀ s', Json.entries s' = .ok { e with nodes := before ++ after } →
            ofText sequence s' = .ok d := by
  have hdistinct := (storable_of_ofText hread).distinct
  unfold ofText at hread
  cases hentries : Json.entries s with
  | error fault =>
    rw [hentries] at hread
    cases hread
  | ok e =>
    rw [hentries] at hread
    cases hread
    refine ⟨e, rfl, ?_, hdistinct, ?_, ?_⟩
    · have hids := NodeEntry.map_id_nodes sequence [] 0 e.nodes
      rw [List.filter_eq_self.2 (fun id _ => by simp)] at hids
      exact hids
    · intro i n hn
      obtain ⟨first, hfirst, hnode⟩ := NodeEntry.exists_entry_of_node hn
      rw [Nat.zero_add] at hnode
      exact ⟨first, hfirst, NodeEntry.values_of_node hnode⟩
    · -- entries left out change neither the nodes nor the draws of the others
      intro before entry after hsplit hcause
      have hskip : entry.Skipped (NodeEntry.named before ++ []) := by
        rw [List.append_nil]
        exact NodeEntry.skipped_of_repeats hcause
      have hdocument : Entries.document sequence { e with nodes := before ++ after } =
          e.document sequence := by
        unfold Entries.document
        rw [hsplit, NodeEntry.nodes_delete sequence 0 hskip after]
      refine ⟨hdocument, fun s' hs' => ?_⟩
      unfold ofText
      rw [hs', ← hdocument]

/-- What `oddText` reads as. -/
def oddEntries : Entries :=
  ⟨some (.text "soon"),
    [⟨"x", none, none⟩, ⟨"1a:2b:3c:4d:5e:01", some (.text "17"), some (.word 8)⟩,
      ⟨"1A-2B-3C-4D-5E-01", none, none⟩,
      ⟨"1A-2B-3C-4D-5E-02", some (.word 70000), some (.word 9)⟩]⟩

/-- `oddText` without the entry that names the node of the one before it in another form. -/
def trimmedText : String :=
  "[\"soon\",[[\"x\"],[\"1a:2b:3c:4d:5e:01\",\"17\",8],[\"1A-2B-3C-4D-5E-02\",70000,9]]]"

theorem nodes_are_first_entries_of_oddText :
    ∃ d, ofText (fun _ => 0xFFFF) oddText = .ok d ∧
      d.nodes.map Node.id = [⟨0x1A, 0x2B, 0x3C, 0x4D, 0x5E, 1⟩, ⟨0x1A, 0x2B, 0x3C, 0x4D, 0x5E, 2⟩] ∧
      ofText (fun _ => 0xFFFF) trimmedText = .ok d := by
  have hodd : Json.entries oddText = .ok oddEntries := eq_ok_of_toOption (by decide +kernel)
  have htrimmed : Json.entries trimmedText =
      .ok { oddEntries with nodes := oddEntries.nodes.take 2 ++ oddEntries.nodes.drop 3 } :=
    eq_ok_of_toOption (by decide +kernel)
  have hids : (oddEntries.nodes.filterMap fun entry => NodeId.ofText? entry.id).eraseDups =
      [⟨0x1A, 0x2B, 0x3C, 0x4D, 0x5E, 1⟩, ⟨0x1A, 0x2B, 0x3C, 0x4D, 0x5E, 2⟩] := by
    decide +kernel
  have hrepeated : NodeId.ofText? "1a:2b:3c:4d:5e:01" = NodeId.ofText? "1A-2B-3C-4D-5E-01" := by
    decide +kernel
  have hread : ofText (fun _ => 0xFFFF) oddText = .ok (oddEntries.document fun _ => 0xFFFF) := by
    unfold ofText
    rw [hodd]
  obtain ⟨e, he, hnodes, -, -, hdelete⟩ := nodes_are_first_entries hread
  rw [hodd] at he
  cases he
  have hdelete := hdelete (oddEntries.nodes.take 2) _ (oddEntries.nodes.drop 3) rfl
    (.inr ⟨_, List.mem_cons_of_mem _ List.mem_cons_self, hrepeated⟩)
  exact ⟨_, hread, hnodes.trans hids, hdelete.2 trimmedText htrimmed⟩

end Document
end TimeIds
