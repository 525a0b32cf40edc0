import TimeIds.Document.Basic
import TimeIds.Json.Value
import TimeIds.Text.Blank

/-!
Reading registry documents.

The JSON text gives entries, and the entries give nodes. An entry whose identifier cannot be read,
or whose identifier an earlier entry has, is left out. An entry without a usable clock sequence is a
node without history: it gets the next drawn sequence and tick 0. Other attributes that cannot be
used count as 0. An entry, and the document itself, may also be an array of its members in order.
-/
namespace TimeIds

/-- The word that a value writes, be it as a number or as a string around one. -/
def Json.Value.word? : Json.Value → Option UInt64
  | .word n => some n
  | .text s => Text.word? (Text.trim s)
  | .other => none

/-- An entry of the list of nodes. -/
structure NodeEntry where
  id : String
  clockSequence : Option Json.Value := none
  timestamp : Option Json.Value := none
deriving DecidableEq, Repr

/-- The content of a document, before anything is made of it. -/
structure Entries where
  interval : Option Json.Value := none
  nodes : List NodeEntry := []
deriving DecidableEq, Repr

/-! ### From entries to nodes -/

namespace NodeEntry

/-- The clock sequence of an entry, if it has one of at most 14 bits. -/
def sequence? (e : NodeEntry) : Option UInt16 :=
  ((e.clockSequence.bind Json.Value.word?).filter (· ≤ clockSequenceMax.toUInt64)).map
    UInt64.toUInt16

/-- The last tick of an entry. -/
def ticks (e : NodeEntry) : Ticks :=
  (e.timestamp.bind Json.Value.word?).getD 0

/-- The nodes of the entries that are left, given the identifiers already taken and how many
sequences are drawn. -/
def nodes (sequence : Nat → UInt16) : List NodeId → Nat → List NodeEntry → List Node
  | _, _, [] => []
  | taken, drawn, e :: rest =>
    match NodeId.ofText? e.id with
    | none => nodes sequence taken drawn rest
    | some id =>
      if id ∈ taken then nodes sequence taken drawn rest
      else
        match e.sequence? with
        | some s => ⟨id, e.ticks, s⟩ :: nodes sequence (id :: taken) drawn rest
        | none => Node.fresh id (sequence drawn) :: nodes sequence (id :: taken) (drawn + 1) rest

end NodeEntry

/-- The document of the entries. -/
def Entries.document (sequence : Nat → UInt16) (e : Entries) : Document where
  interval := e.interval.map fun v => v.word?.getD 0
  nodes := NodeEntry.nodes sequence [] 0 e.nodes

/-! ### From text to entries -/

namespace Json

/-- The value of a member, read after its key. A member that is already known may not come again. -/
def memberValue {α : Type} (known : Option α) (reader : Reader α) : Reader α := fun cs =>
  if known.isSome then .error .unfit
  else do
    let (_, cs) ← colon cs
    reader cs

/-- A member that nobody asked for, read after its key. -/
def unknownMember {α : Type} (size : Nat) (known : α) : Reader α := fun cs => do
  let (_, cs) ← colon cs
  let (_, cs) ← skipValue size cs
  pure (known, cs)

/-- An element at the end of an array, or nothing if the array is over. -/
def trailingElement {α : Type} (first : Bool) (reader : Reader (Option α)) :
    Reader (Option α) := fun cs => do
  let (more, cs) ← hasElement first cs
  if more then reader cs else pure (none, cs)

/-- A reader whose result always counts as given. -/
def someOf {α : Type} (reader : Reader α) : Reader (Option α) := fun cs =>
  (reader cs).map fun r => (some r.1, r.2)

/-- A structure, written as an array or as an object. -/
def record {α : Type} (asArray asObject : Reader α) : Reader α := fun cs =>
  match skipSpace cs with
  | [] => .error .truncated
  | '[' :: rest => asArray rest
  | '\x7b' :: rest => asObject rest
  | cs => .error (misfit cs)

/-- The levels left to the attributes of an entry: document, list and entry are open. -/
def entryDepth : Nat := maxDepth - 3

/-- The members of an entry that are known so far. -/
structure EntryMembers where
  id : Option String := none
  clockSequence : Option (Option Value) := none
  timestamp : Option (Option Value) := none

/-- A member of an entry. -/
def entryMember (size : Nat) (known : EntryMembers) : Reader EntryMembers := fun cs => do
  let (key, cs) ← stringAfterQuote cs
  if key = "id" then
    let (v, cs) ← memberValue known.id wantedString cs
    pure ({ known with id := some v }, cs)
  else if key = "clock_sequence" then
    let (v, cs) ← memberValue known.clockSequence (optionalValue size entryDepth) cs
    pure ({ known with clockSequence := some v }, cs)
  else if key = "timestamp" then
    let (v, cs) ← memberValue known.timestamp (optionalValue size entryDepth) cs
    pure ({ known with timestamp := some v }, cs)
  else unknownMember size known cs

/-- An entry written as an object. -/
def entryObject (size : Nat) : Reader NodeEntry := fun cs => do
  let (known, cs) ← members size (entryMember size) {} cs
  match known.id with
  | none => throw .unfit
  | some id => pure (⟨id, known.clockSequence.join, known.timestamp.join⟩, cs)

/-- An entry written as an array. -/
def entryArray (size : Nat) : Reader NodeEntry := fun cs => do
  let (more, cs) ← hasElement true cs
  if more then
    let (id, cs) ← wantedString cs
    let (clockSequence, cs) ← trailingElement false (optionalValue size entryDepth) cs
    let (timestamp, cs) ← trailingElement false (optionalValue size entryDepth) cs
    let (_, cs) ← closeArray cs
    pure (⟨id, clockSequence, timestamp⟩, cs)
  else throw .unfit

/-- The list of entries. -/
def entryList (size : Nat) : Reader (List NodeEntry) := fun cs =>
  match skipSpace cs with
  | [] => .error .truncated
  | '[' :: rest => elements size (record (entryArray size) (entryObject size)) rest
  | cs => .error (misfit cs)

/-- The members of a document that are known so far. -/
structure DocumentMembers where
  interval : Option (Option Value) := none
  nodes : Option (List NodeEntry) := none

/-- A member of a document. -/
def documentMember (size : Nat) (known : DocumentMembers) : Reader DocumentMembers := fun cs => do
  let (key, cs) ← stringAfterQuote cs
  if key = "synch_interval" then
    let (v, cs) ← memberValue known.interval (optionalValue size (maxDepth - 1)) cs
    pure ({ known with interval := some v }, cs)
  else if key = "nodes" then
    let (v, cs) ← memberValue known.nodes (entryList size) cs
    pure ({ known with nodes := some v }, cs)
  else unknownMember size known cs

/-- A document written as an object. -/
def documentObject (size : Nat) : Reader Entries := fun cs => do
  let (known, cs) ← members size (documentMember size) {} cs
  pure (⟨known.interval.join, known.nodes.getD []⟩, cs)

/-- A document written as an array. -/
def documentArray (size : Nat) : Reader Entries := fun cs => do
  let (interval, cs) ← trailingElement true (optionalValue size (maxDepth - 1)) cs
  let (nodes, cs) ← trailingElement false (someOf (entryList size)) cs
  let (_, cs) ← closeArray cs
  pure (⟨interval, nodes.getD []⟩, cs)

/-- The entries of a whole text. -/
def entries (s : String) : Except Fault Entries :=
  wholeText (record (documentArray s.length) (documentObject s.length)) s

/-- A node identifier written as a JSON string. -/
def nodeId (s : String) : Except Fault NodeId :=
  wholeText (fun cs => do
    let (text, cs) ← wantedString cs
    match NodeId.ofText? text with
    | none => throw .unfit
    | some id => pure (id, cs)) s

end Json

/-- The document of a JSON text. Nodes without history take the given sequences in turn. -/
def Document.ofText (sequence : Nat → UInt16) (s : String) : Except IdError Document :=
  match Json.entries s with
  | .error fault => .error (.json fault)
  | .ok e => .ok (e.document sequence)

end TimeIds
