import TimeIds.Registry
import TimeIds.Uuid.Layout

/-!
The generator of version-1 UUIDs.

Each UUID carries the tick of a clock reading and the clock sequence of the primary node of a
registry. After it is issued, the registry is flushed if that is due. The generator keeps the time
at which the next flush is due, so that most calls do not look at the registry.
-/
namespace TimeIds

/-- A generator of UUIDs on the primary node of a registry. -/
structure UuidGenerator where
  registry : Registry
  /-- When the next flush is due. -/
  nextFlush : Millis
deriving DecidableEq

namespace UuidGenerator

/-- A generator on a registry. -/
def ofRegistry (registry : Registry) : UuidGenerator := ⟨registry, registry.nextFlush⟩

/-- The node that the UUIDs name. -/
def nodeId (g : UuidGenerator) : NodeId := g.registry.primary.id

variable {m : Type → Type} [Monad m] [Disk m]

/-- Loads a store and makes a generator on its nodes. -/
def load (store : Store) (draws : Draws) (wall : Millis) : m (Except IdError UuidGenerator) := do
  let loaded ← Registry.load store draws wall
  pure (loaded.map ofRegistry)

/-- Flushes the registry if that is due at `now`. A flush that fails is tried again when the
registry next says it is due. -/
def flushIfDue (g : UuidGenerator) (now : Millis) : m UuidGenerator := do
  if now < g.nextFlush then pure g
  else
    match ← g.registry.flushIfDue now with
    | .error _ => pure { g with nextFlush := g.registry.nextFlush }
    | .ok (_, registry) => pure (ofRegistry registry)

/-- The next UUID for a clock reading, while the time is `now`. Without a tick the generator stays
as it is. -/
def next (g : UuidGenerator) (reading : Reading) (now : Millis) :
    m (Except IdError (Uuid × UuidGenerator)) :=
  match g.registry.primary.issue reading with
  | .error e => pure (.error e)
  | .ok (timestamp, primary) => do
    let issued := { g with registry := { g.registry with primary } }
    let g ← issued.flushIfDue now
    pure (.ok (Uuid.ofTimestamp timestamp issued.nodeId, g))

/-- More calls at one reading, after those that gave `issued`, whose last UUID comes first. -/
def batchOnto (reading : Reading) (now : Millis) : List Uuid → UuidGenerator → Nat →
    m (Except IdError (List Uuid) × UuidGenerator)
  | issued, g, 0 => pure (.ok issued.reverse, g)
  | issued, g, count + 1 => do
    match ← g.next reading now with
    | .error e => pure (.error e, g)
    | .ok (uuid, g') => batchOnto reading now (uuid :: issued) g' count

/-- That many UUIDs for one clock reading, while the time is `now`. The first refusal ends the
batch; the UUIDs before it are lost, but the generator has issued them. -/
def batch (g : UuidGenerator) (reading : Reading) (now : Millis) (count : Nat) :
    m (Except IdError (List Uuid) × UuidGenerator) :=
  batchOnto reading now [] g count

/-- Saves the nodes and lets the generator go. -/
def close (g : UuidGenerator) (wall : Millis) : m (Except IdError Unit) :=
  g.registry.close wall

/-- Lets the generator go, whether or not its nodes could be saved. -/
def drop (g : UuidGenerator) (wall : Millis) : m Unit :=
  g.registry.drop wall

end UuidGenerator
end TimeIds
