import TimeIds.Store

/-!
The registry of nodes: the live nodes of a process, and their way back to the store.

A registry has a primary node, from which identifiers are issued, and may have others. It saves its
nodes when asked to, when a flush is due, and when it is closed. A due flush puts the last ticks of
all nodes one interval ahead of the present, which covers what is issued before the next one.
-/
namespace TimeIds

/-- The live nodes of a process and the store they are kept in. -/
structure Registry where
  store : Store
  primary : Node
  others : List Node := []
  /-- When the nodes were saved last. -/
  lastFlush : Millis
deriving DecidableEq

namespace Registry

/-- All nodes, in the order of the document. -/
def nodes (r : Registry) : List Node := r.primary :: r.others

/-- The node with an identifier. -/
def find? (r : Registry) (id : NodeId) : Option Node := r.nodes.find? (·.id == id)

/-- Milliseconds between flushes. -/
def interval (r : Registry) : UInt64 := r.store.interval

/-- Whether the registry is never to write. -/
def isReadOnly (r : Registry) : Bool := r.store.isReadOnly

/-- The point that lies an interval after another, or the last one there is. -/
def after (now : Millis) (interval : UInt64) : Millis :=
  Int64.ofInt (min (now.toInt + min interval.toNat (2 ^ 63 - 1)) (2 ^ 63 - 1))

/-- When the next flush is due. -/
def nextFlush (r : Registry) : Millis :=
  if r.isReadOnly then Int64.maxValue else after r.lastFlush r.interval

/-- The tick that a flush at `now` puts the nodes at. -/
def flushTicks (r : Registry) (now : Millis) : Ticks :=
  Ticks.ofMillis (after now r.interval)

/-- The registry with another node at a position. -/
def set (r : Registry) (i : Nat) (n : Node) : Registry :=
  match i with
  | 0 => { r with primary := n }
  | i + 1 => { r with others := r.others.set i n }

/-- The timestamp for a clock reading on the node at a position, and the registry after it. -/
def issue (r : Registry) (i : Fin r.nodes.length) (reading : Reading) :
    Except IdError (Timestamp × Registry) :=
  (r.nodes[i].issue reading).map fun (t, n) => (t, r.set i n)

/-- The registry of a loaded store. Where the store has no nodes, one is derived for the host. -/
def ofStore (store : Store) (draws : Draws) (wall : Millis) : Registry :=
  match store.nodes.map Node.restore with
  | [] => { store, primary := Node.derived draws, lastFlush := wall }
  | primary :: others => { store, primary, others, lastFlush := wall }

variable {m : Type → Type} [Monad m] [Disk m]

/-- Loads a store and takes its nodes, at the given wall time. -/
def load (store : Store) (draws : Draws) (wall : Millis) : m (Except IdError Registry) := do
  let loaded ← store.load draws.sequence
  pure (loaded.map fun s => ofStore s draws wall)

/-- Saves the nodes as they are, at the given wall time. -/
def flush (r : Registry) (wall : Millis) : m (Except IdError Registry) := do
  let saved ← r.store.save r.nodes
  pure (saved.map fun store => { r with store, lastFlush := wall })

/-- Saves the nodes if a flush is due at `now`, and tells whether it did. -/
def flushIfDue (r : Registry) (now : Millis) : m (Except IdError (Bool × Registry)) := do
  if r.isReadOnly || now < r.nextFlush then pure (.ok (false, r))
  else
    let saved ← r.store.saveAt r.nodes (r.flushTicks now)
    pure (saved.map fun store => (true, { r with store, lastFlush := now }))

/-- Saves the nodes for the last time, unless the registry is read-only. -/
def close (r : Registry) (wall : Millis) : m (Except IdError Unit) := do
  if r.isReadOnly then pure (.ok ())
  else
    let flushed ← r.flush wall
    pure (flushed.map fun _ => ())

/-- Lets a registry go: closes it, whether or not its nodes could be saved. -/
def drop (r : Registry) (wall : Millis) : m Unit := do
  let _ ← r.close wall
  pure ()

end Registry
end TimeIds
