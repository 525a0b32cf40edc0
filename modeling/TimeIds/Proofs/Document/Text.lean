import TimeIds.Document.Printer
import TimeIds.Document.Reader
import TimeIds.Proofs.Json.Number
import TimeIds.Proofs.Json.Text

/-!
# Printed documents as the reader sees them

The reader takes a printed document apart the way the printer put it together: the members of each
node, the nodes of the list, the members of the document. At each level the rest of the text is
arbitrary, so that the next level can go on behind it.

* **`Document.entryObject_entryTail`** – the entry of a printed node;
* **`Document.entryList_nodesText`** – the entries of a printed list of nodes;
* **`Document.entries_text`** – the entries of a printed document.
-/

namespace TimeIds

open Json

namespace NodeId

/-- What holds of a dash and of the hexadecimal digits holds all through a written identifier. -/
theorem forall_mem_chars {p : Char → Prop} (hdash : p '-') (hdigit : ∀ d < 16, p (Text.hexUpper d))
    (id : NodeId) : ∀ c ∈ id.chars, p c := by
  have hoctet (b : UInt8) : p (Text.hexUpper (b.toNat / 16)) ∧ p (Text.hexUpper (b.toNat % 16)) := by
    have hlt := b.toNat_lt
    exact ⟨hdigit _ (by omega), hdigit _ (by omega)⟩
  simp [chars, octets, List.intercalate, List.intersperse, Text.octetDigits, hoctet, hdash]

end NodeId

namespace Document

/-! ## Entries -/

/-- The text of a node after its opening brace. -/
def entryTail (n : Node) : List Char :=
  "\n      \"id\": \"".toList ++ (n.id.text.toList ++ ("\",\n      \"clock_sequence\": ".toList ++
    (Nat.toDigits 10 n.clockSequence.toNat ++ (",\n      \"timestamp\": ".toList ++
      (Nat.toDigits 10 n.lastTicks.toNat ++ "\n    \x7d".toList)))))

/-- A printed node is its opening brace and what comes after that. -/
theorem toList_nodeText (n : Node) : (nodeText n).toList = "    \x7b".toList ++ entryTail n := by
  unfold nodeText entryTail
  simp only [String.toList_append, List.append_assoc, Nat.toString_eq_repr, Nat.toList_repr]
  rfl

/-- What the reader finds for a node. -/
def entryOf (n : Node) : NodeEntry :=
  ⟨n.id.text, some (.word n.clockSequence.toUInt64), some (.word n.lastTicks)⟩

/-- A written identifier has no character that a string would escape. -/
theorem isPlain_nodeId (id : NodeId) : ∀ c ∈ id.text.toList, IsPlain c := by
  unfold NodeId.text
  rw [String.toList_ofList]
  exact id.forall_mem_chars (by decide) (by decide)

/-- A member that was not met before is read after its colon. -/
theorem memberValue_none {α : Type} (reader : Reader α) (cs : List Char) :
    memberValue none reader (':' :: cs) = reader cs := rfl

/-- The first member of a printed node is its identifier. -/
theorem entryMember_id (size : Nat) (id : NodeId) (rest : List Char) :
    entryMember size {} ("id\": \"".toList ++ (id.text.toList ++ '"' :: rest)) =
      .ok ({ id := some id.text }, rest) := by
  have hkey : stringAfterQuote ("id\": \"".toList ++ (id.text.toList ++ '"' :: rest)) =
      .ok ("id", ':' :: ' ' :: '"' :: (id.text.toList ++ '"' :: rest)) :=
    stringAfterQuote_plain (s := "id") (isPlain_of_all rfl) _
  unfold entryMember
  simp only [hkey, bind, Except.bind, if_true, memberValue_none,
    wantedString_plain (isPlain_nodeId id) rest]
  rfl

/-- The second is the clock sequence. Without the character after it the number might go on. -/
theorem entryMember_sequence (size n : Nat) (hn : n < 2 ^ 64) (id : String) {c : Char}
    (hc : EndsNumber c) (rest : List Char) :
    entryMember size { id := some id }
        ("clock_sequence\": ".toList ++ (Nat.toDigits 10 n ++ c :: rest)) =
      .ok ({ id := some id, clockSequence := some (some (.word (UInt64.ofNat n))) }, c :: rest) := by
  have hkey : stringAfterQuote ("clock_sequence\": ".toList ++ (Nat.toDigits 10 n ++ c :: rest)) =
      .ok ("clock_sequence", ':' :: ' ' :: (Nat.toDigits 10 n ++ c :: rest)) :=
    stringAfterQuote_plain (s := "clock_sequence") (isPlain_of_all rfl) _
  unfold entryMember
  simp only [hkey, bind, Except.bind, reduceIte, memberValue_none, optionalValue_toDigits _ _ hn hc]
  rfl

/-- The third is the last tick. -/
theorem entryMember_ticks (size n : Nat) (hn : n < 2 ^ 64) (id : String)
    (sequence : Option Json.Value) {c : Char} (hc : EndsNumber c) (rest : List Char) :
    entryMember size { id := some id, clockSequence := some sequence }
        ("timestamp\": ".toList ++ (Nat.toDigits 10 n ++ c :: rest)) =
      .ok (⟨some id, some sequence, some (some (.word (UInt64.ofNat n)))⟩, c :: rest) := by
  have hkey : stringAfterQuote ("timestamp\": ".toList ++ (Nat.toDigits 10 n ++ c :: rest)) =
      .ok ("timestamp", ':' :: ' ' :: (Nat.toDigits 10 n ++ c :: rest)) :=
    stringAfterQuote_plain (s := "timestamp") (isPlain_of_all rfl) _
  unfold entryMember
  simp only [hkey, bind, Except.bind, reduceIte, memberValue_none, optionalValue_toDigits _ _ hn hc]
  rfl

/-- The reader of entries takes a printed node and nothing else. -/
theorem entryObject_entryTail {size : Nat} (hsize : 3 ≤ size) (n : Node) (rest : List Char) :
    entryObject size (entryTail n ++ rest) = .ok (entryOf n, rest) := by
  -- three members and the closing brace take four turns
  obtain ⟨spare, rfl⟩ : ∃ spare, size = spare + 3 := ⟨size - 3, by omega⟩
  have hsequence : n.clockSequence.toNat < 2 ^ 64 := by
    have := n.clockSequence.toNat_lt
    omega
  have hmembers : members (spare + 3) (entryMember (spare + 3)) {} (entryTail n ++ rest) =
      .ok (⟨some n.id.text, some (some (.word n.clockSequence.toUInt64)),
        some (some (.word n.lastTicks))⟩, rest) := by
    unfold members entryTail
    simp only [List.append_assoc]
    -- the members come in the order in which they were printed
    rw [membersOnto_next rfl (entryMember_id _ n.id _),
      membersOnto_next rfl (entryMember_sequence _ _ hsequence _ (.inl rfl) _),
      membersOnto_next rfl (entryMember_ticks _ _ n.lastTicks.toNat_lt _ _ (.inr rfl) _),
      membersOnto_end rfl]
    simp
  unfold entryObject
  rw [hmembers]
  rfl

/-! ## The list of nodes -/

/-- The reader of one element of the list of nodes. -/
def listElement (size : Nat) : Reader NodeEntry := record (entryArray size) (entryObject size)

/-- An element that begins with a brace is read as a printed node. -/
theorem listElement_entryTail {size : Nat} (hsize : 3 ≤ size) (n : Node) (rest : List Char) :
    listElement size ('\x7b' :: (entryTail n ++ rest)) = .ok (entryOf n, rest) :=
  entryObject_entryTail hsize n rest

/-- The text of the nodes after the first, with the commas before them. -/
def laterNodes (nodes : List Node) : List Char :=
  nodes.flatMap fun n => ",\n    \x7b".toList ++ entryTail n

/-- A printed list is its first node, and each later one behind a comma. -/
theorem toList_nodesText (n : Node) (nodes : List Node) :
    (nodesText (n :: nodes)).toList =
      "[\n    \x7b".toList ++ (entryTail n ++ (laterNodes nodes ++ "\n  ]".toList)) := by
  -- each node after the first brings the comma before it along
  have hlater : (String.intercalate ",\n" ((n :: nodes).map nodeText)).toList =
      "    \x7b".toList ++ (entryTail n ++ laterNodes nodes) := by
    induction nodes generalizing n with
    | nil => simp [toList_nodeText, laterNodes]
    | cons n' nodes ih =>
      rw [List.map_cons, List.map_cons, String.intercalate_cons_cons, String.toList_append,
        String.toList_append, ← List.map_cons, ih, toList_nodeText]
      simp [laterNodes]
  show ("[\n" ++ String.intercalate ",\n" ((n :: nodes).map nodeText) ++ "\n  ]").toList = _
  rw [String.toList_append, String.toList_append, hlater]
  simp

/-- Induction over the nodes still to be read: each one is a turn of the loop. -/
theorem elementsOnto_laterNodes {size : Nat} (hsize : 3 ≤ size) (nodes : List Node)
    (last : NodeEntry) (read : List NodeEntry) (rest : List Char) {turns : Nat}
    (hturns : nodes.length < turns) :
    elementsOnto (listElement size) turns (last :: read)
        (laterNodes nodes ++ ("\n  ]".toList ++ rest)) =
      .ok ((last :: read).reverse ++ nodes.map entryOf, rest) := by
  induction nodes generalizing last read turns with
  | nil =>
    obtain ⟨spare, rfl⟩ : ∃ spare, turns = spare + 1 := ⟨turns - 1, by omega⟩
    rw [List.map_nil, List.append_nil]
    exact elementsOnto_end rfl spare
  | cons n nodes ih =>
    rw [List.length_cons] at hturns
    obtain ⟨spare, rfl⟩ : ∃ spare, turns = spare + 1 := ⟨turns - 1, by omega⟩
    have hread := listElement_entryTail hsize n (laterNodes nodes ++ ("\n  ]".toList ++ rest))
    -- the next node stands behind a comma, since one was read before it
    have hfound : hasElement (last :: read).isEmpty
        (laterNodes (n :: nodes) ++ ("\n  ]".toList ++ rest)) =
        .ok (true, '\x7b' :: (entryTail n ++ (laterNodes nodes ++ ("\n  ]".toList ++ rest)))) := by
      unfold laterNodes
      rw [List.flatMap_cons, List.append_assoc, List.append_assoc]
      exact hasElement_of_comma rfl (by decide)
    rw [elementsOnto_next hfound hread, ih (entryOf n) (last :: read) (by omega)]
    simp

/-- The reader of the list of nodes takes the printed list and nothing else. -/
theorem entryList_nodesText {size : Nat} (hsize : 3 ≤ size) {nodes : List Node}
    (hlength : nodes.length ≤ size) (rest : List Char) :
    entryList size (' ' :: ((nodesText nodes).toList ++ rest)) =
      .ok (nodes.map entryOf, rest) := by
  cases nodes with
  | nil => rfl
  | cons n nodes =>
    rw [List.length_cons] at hlength
    rw [toList_nodesText]
    simp only [List.append_assoc]
    show elementsOnto (listElement size) (size + 1) []
      ("\n    \x7b".toList ++ (entryTail n ++ (laterNodes nodes ++ ("\n  ]".toList ++ rest)))) = _
    rw [elementsOnto_next rfl (listElement_entryTail hsize n _),
      elementsOnto_laterNodes hsize nodes _ _ _ (by omega)]
    rfl

/-! ## The whole document -/

/-- The first member of a printed document is the interval, if there is one. -/
theorem documentMember_interval (size n : Nat) (hn : n < 2 ^ 64) {c : Char} (hc : EndsNumber c)
    (rest : List Char) :
    documentMember size {} ("synch_interval\": ".toList ++ (Nat.toDigits 10 n ++ c :: rest)) =
      .ok ({ interval := some (some (.word (UInt64.ofNat n))) }, c :: rest) := by
  have hkey : stringAfterQuote ("synch_interval\": ".toList ++ (Nat.toDigits 10 n ++ c :: rest)) =
      .ok ("synch_interval", ':' :: ' ' :: (Nat.toDigits 10 n ++ c :: rest)) :=
    stringAfterQuote_plain (s := "synch_interval") (isPlain_of_all rfl) _
  unfold documentMember
  simp only [hkey, bind, Except.bind, reduceIte, memberValue_none, optionalValue_toDigits _ _ hn hc]
  rfl

/-- The last is the list of nodes. -/
theorem documentMember_nodes {size : Nat} (hsize : 3 ≤ size) {nodes : List Node}
    (hlength : nodes.length ≤ size) (interval : Option (Option Json.Value)) (rest : List Char) :
    documentMember size { interval } ("nodes\": ".toList ++ ((nodesText nodes).toList ++ rest)) =
      .ok (⟨interval, some (nodes.map entryOf)⟩, rest) := by
  have hkey : stringAfterQuote ("nodes\": ".toList ++ ((nodesText nodes).toList ++ rest)) =
      .ok ("nodes", ':' :: ' ' :: ((nodesText nodes).toList ++ rest)) :=
    stringAfterQuote_plain (s := "nodes") (isPlain_of_all rfl) _
  unfold documentMember
  simp only [hkey, bind, Except.bind, reduceIte, memberValue_none,
    entryList_nodesText hsize hlength]
  rfl

/-- What the reader finds in a printed document. -/
def entriesOf (d : Document) : Entries := ⟨d.interval.map Json.Value.word, d.nodes.map entryOf⟩

/-- The text of a document after its opening brace. -/
def textTail (d : Document) : List Char :=
  '\n' :: ((intervalText d.interval).toList ++ ("  \"nodes\": ".toList ++
    ((nodesText d.nodes).toList ++ "\n\x7d".toList)))

/-- A printed document is its opening brace and what comes after that. -/
theorem toList_text (d : Document) : d.text.toList = '\x7b' :: textTail d := by
  unfold text textTail
  simp only [String.toList_append, List.append_assoc]
  rfl

/-- The reader of documents takes a printed one to its end, if it has turns enough. -/
theorem documentObject_textTail {size : Nat} (hsize : 3 ≤ size) {d : Document}
    (hlength : d.nodes.length ≤ size) :
    documentObject size (textTail d) = .ok (entriesOf d, []) := by
  obtain ⟨spare, rfl⟩ : ∃ spare, size = spare + 3 := ⟨size - 3, by omega⟩
  have hmembers : members (spare + 3) (documentMember (spare + 3)) {} (textTail d) =
      .ok (⟨d.interval.map fun n => some (.word n), some (d.nodes.map entryOf)⟩, []) := by
    unfold members textTail
    -- a document without an interval has one member, and the others have two
    cases d.interval with
    | none =>
      rw [membersOnto_next rfl (documentMember_nodes hsize hlength none _), membersOnto_end rfl]
      rfl
    | some n =>
      have hinterval : (intervalText (some n)).toList =
          "  \"synch_interval\": ".toList ++ (Nat.toDigits 10 n.toNat ++ [',', '\n']) := by
        unfold intervalText
        simp only [String.toList_append, List.append_assoc, Nat.toString_eq_repr, Nat.toList_repr]
        rfl
      rw [hinterval]
      simp only [List.append_assoc]
      rw [membersOnto_next rfl (documentMember_interval _ _ n.toNat_lt (.inl rfl) _),
        membersOnto_next rfl (documentMember_nodes hsize hlength _ _), membersOnto_end rfl]
      simp
  unfold documentObject
  rw [hmembers]
  unfold entriesOf
  cases d.interval <;> rfl

/-- The text of a list is as long as the list at least, so there are turns enough. -/
theorem length_le_nodesText (nodes : List Node) :
    nodes.length ≤ (nodesText nodes).toList.length := by
  cases nodes with
  | nil => decide
  | cons n nodes =>
    -- a node is printed with one character at least
    have hlater : nodes.length ≤ (laterNodes nodes).length := by
      induction nodes with
      | nil => decide
      | cons n nodes ih =>
        unfold laterNodes at ih ⊢
        rw [List.flatMap_cons, List.length_append, List.length_append]
        have hcomma : 1 ≤ ",\n    \x7b".toList.length := by decide
        rw [List.length_cons]
        omega
    have hbracket : 1 ≤ "[\n    \x7b".toList.length := by decide
    rw [toList_nodesText, List.length_cons, List.length_append, List.length_append,
      List.length_append]
    omega

/-- The reader finds the entries of a printed document. -/
theorem entries_text (d : Document) : Json.entries d.text = .ok (entriesOf d) := by
  -- so the loops have turns enough for all nodes and for the members of each
  have hlength : d.nodes.length + 3 ≤ d.text.length := by
    have hnodes := length_le_nodesText d.nodes
    have hend : "\n\x7d".toList.length = 2 := rfl
    rw [← String.length_toList, toList_text, List.length_cons]
    unfold textTail
    rw [List.length_cons, List.length_append, List.length_append, List.length_append]
    omega
  have hobject : documentObject d.text.length (textTail d) = .ok (entriesOf d, []) :=
    documentObject_textTail (by omega) (by omega)
  unfold Json.entries wholeText
  rw [toList_text]
  show (documentObject d.text.length (textTail d)).bind _ = _
  rw [hobject]
  rfl

end Document
end TimeIds
