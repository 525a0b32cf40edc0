import TimeIds.Disk.Basic
import TimeIds.Document.Printer
import TimeIds.Document.Reader

/-!
Where the nodes of a registry come from and go to.

There are three kinds of store: nodes in memory and a document that is only read, neither of which
is ever written, and a document that is written back. Loading and saving give a new store or a
failure; after a failure the store at hand is still the one before. Saving asks of every kind that
the nodes be distinct.
-/
namespace TimeIds

/-- The interval of a store that is never written. -/
def readOnlyInterval : UInt64 := 0xFFFFFFFFFFFFFFFF

/-- The interval of a document that names none, in milliseconds. -/
def defaultInterval : UInt64 := 5000

/-- A document that is written back. -/
structure FileStore where
  path : Path
  /-- An interval that goes before that of the document. -/
  override : Option UInt64 := none
  /-- The interval of the document last read that had one. -/
  documented : UInt64 := defaultInterval
  nodes : List Node := []
deriving DecidableEq

namespace FileStore

/-- Milliseconds between flushes. -/
def interval (f : FileStore) : UInt64 := f.override.getD f.documented

/-- The store after its document was read. -/
def loaded (f : FileStore) (d : Document) : FileStore :=
  { f with documented := d.interval.getD f.documented, nodes := d.nodes }

/-- The document that the store writes for nodes. -/
def document (f : FileStore) (nodes : List Node) : Document := ⟨some f.interval, nodes⟩

variable {m : Type → Type} [Monad m] [Disk m]

/-- Reads the document. One that does not exist yet has no nodes. -/
def load (f : FileStore) (sequence : Nat → UInt16) : m (Except IdError FileStore) := do
  if ← Disk.isPresent f.path then
    match ← Disk.readText f.path with
    | .error fault => pure (.error (.file fault))
    | .ok text => pure ((Document.ofText sequence text).map f.loaded)
  else pure (.ok { f with nodes := [] })

/-- Writes the document for nodes. -/
def write (f : FileStore) (nodes : List Node) : m (Except IdError FileStore) := do
  match ← Disk.replaceText f.path (f.document nodes).text with
  | .error fault => pure (.error (.file fault))
  | .ok () => pure (.ok { f with nodes })

end FileStore

/-- Where the nodes of a registry come from and go to. -/
inductive Store
  /-- Nodes that are given once. -/
  | memory (nodes : List Node)
  /-- A document that is only read. -/
  | resource (path : Option Path) (nodes : List Node)
  /-- A document that is written back. -/
  | file (f : FileStore)
deriving DecidableEq

namespace Store

/-- A store of given nodes. -/
def ofNodes (nodes : List Node) : Except IdError Store :=
  (ensureDistinct nodes).map fun _ => .memory nodes

/-- The nodes loaded or saved last. -/
def nodes : Store → List Node
  | memory nodes => nodes
  | resource _ nodes => nodes
  | file f => f.nodes

/-- Milliseconds between flushes. -/
def interval : Store → UInt64
  | memory _ => readOnlyInterval
  | resource _ _ => readOnlyInterval
  | file f => f.interval

/-- Whether flushes are not to be written. -/
def isReadOnly (s : Store) : Bool := s.interval == readOnlyInterval

variable {m : Type → Type} [Monad m] [Disk m]

/-- The store with the nodes of its document. Nodes without history take the given sequences in
turn. -/
def load (s : Store) (sequence : Nat → UInt16) : m (Except IdError Store) :=
  match s with
  | memory _ => pure (.ok s)
  | resource none _ => pure (.error (.configuration .noResource))
  | resource (some path) _ => do
    match ← Disk.readText path with
    | .error fault => pure (.error (.configuration (.unreadable path fault)))
    | .ok text =>
      pure ((Document.ofText sequence text).map fun d => .resource (some path) d.nodes)
  | file f => do
    let loaded ← f.load sequence
    pure (loaded.map .file)

/-- Saves nodes as they are. -/
def save (s : Store) (nodes : List Node) : m (Except IdError Store) :=
  match ensureDistinct nodes with
  | .error e => pure (.error e)
  | .ok () =>
    match s with
    | file f => do
      let written ← f.write nodes
      pure (written.map .file)
    | _ => pure (.ok s)

/-- Saves nodes with every last tick put at one point, normally a little ahead, so that what is
issued until then need not be saved. -/
def saveAt (s : Store) (nodes : List Node) (ticks : Ticks) : m (Except IdError Store) :=
  s.save (nodes.map fun n => { n with lastTicks := ticks })

end Store
end TimeIds
