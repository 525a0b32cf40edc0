import TimeIds.Clock.System
import TimeIds.Command.Fault
import TimeIds.Command.Host
import TimeIds.Config
import TimeIds.Uuid.Generator

/-!
Where commands get identifiers from: generators on the clocks of the host.

A generator that has nothing left in this millisecond, or a clock that has no tick left, is asked
again until it has or until a quarter of a second is over.
-/
namespace TimeIds.Command

variable {m : Type → Type} [Monad m] [Host m]

/-- How long a refused call is repeated, in nanoseconds. -/
def retryWindow : Nat := 250000000

/-- More calls than fit the window. -/
def maxAttempts : Nat := 2 ^ 40

/-- Repeats a call that was refused for want of time, until the stopwatch shows `deadline`. -/
@[specialize] def repeatUntil {α : Type} (deadline : Nat) (waitsFor : IdError → Bool)
    (call : m (Except IdError α)) : Nat → m (Except IdError α)
  | 0 => call
  | attempts + 1 => do
    match ← call with
    | .ok a => pure (.ok a)
    | .error e =>
      if waitsFor e then
        if (← Host.stopwatch) < deadline then repeatUntil deadline waitsFor call attempts
        else pure (.error e)
      else pure (.error e)

/-- Repeats a call that was refused for want of time, as long as the window is open. -/
@[specialize] def repeating {α : Type} (waitsFor : IdError → Bool) (call : m (Except IdError α)) :
    m (Except IdError α) := do
  let start ← Host.stopwatch
  repeatUntil (start + retryWindow) waitsFor call maxAttempts

/-- The failure that a new millisecond mends. -/
def isExhausted : IdError → Bool
  | .capacityExhausted _ => true
  | _ => false

/-- The failure that a new tick mends. -/
def isOverClocked : IdError → Bool
  | .overClocked => true
  | _ => false

/-! ### Alphanumeric identifiers -/

/-- A generator with the suffix and the offset of the options. -/
def alphanumeric (o : Options) : Action m Alphanumeric.Generator := do
  let now ← (Host.now : m Millis)
  let draw ← (Host.random : m UInt64)
  Action.ofOutcome (Alphanumeric.Generator.start o.suffixDigits o.offset now draw)

/-- The next identifier, and the generator after it. -/
@[specialize] def nextId (g : Alphanumeric.Generator) :
    Action m (String × Alphanumeric.Generator) := do
  let outcome ← (repeating isExhausted do
    let now ← Host.now
    pure (g.next now) : m _)
  Action.ofOutcome outcome

/-! ### UUIDs -/

/-- A generator of UUIDs together with its tick clock. -/
structure UuidSource where
  clock : SystemClock := {}
  generator : UuidGenerator

/-- A generator on the nodes of a store. -/
def uuids (store : Store) : Action m UuidSource := do
  let seed ← (Host.random : m UInt64)
  let wall ← (Host.now : m Millis)
  let loaded ← (UuidGenerator.load store (Draws.ofSeed seed) wall : m _)
  let generator ← Action.ofOutcome loaded
  pure { generator }

/-- One call for a UUID. -/
@[specialize] def callUuid (s : UuidSource) : m (Except IdError (Uuid × UuidSource)) := do
  let wall ← Host.now
  match s.clock.next wall with
  | .error e => pure (.error e)
  | .ok (ticks, clock) => do
    let now ← Host.now
    let outcome ← s.generator.next (some ticks) now
    pure (outcome.map fun (uuid, generator) => (uuid, { clock, generator }))

/-- The next UUID, and the source after it. -/
@[specialize] def nextUuid (s : UuidSource) : Action m (Uuid × UuidSource) := do
  let outcome ← (repeating isOverClocked (callUuid s) : m _)
  Action.ofOutcome outcome

/-- Saves the nodes and lets the source go. -/
def closeUuids (s : UuidSource) : Action m Unit := do
  let wall ← (Host.now : m Millis)
  let outcome ← (s.generator.close wall : m _)
  Action.ofOutcome outcome

/-- The next UUID, and the source after it; where there is none, the source is let go. -/
@[specialize] def nextUuidOrDrop (s : UuidSource) : Action m (Uuid × UuidSource) :=
  tryCatch (nextUuid s) fun fault => do
    let wall ← (Host.now : m Millis)
    (s.generator.drop wall : m Unit)
    throw fault

end TimeIds.Command
