import TimeIds.Clock.Ticks
import TimeIds.Error
import TimeIds.Node.Id

/-!
Nodes and the timestamps issued on them.

A node carries the tick it used last and a clock sequence of 14 bits. `Node.issue` hands out the
tick of a clock reading together with the sequence, and first moves the sequence on where the tick
does not lie past the last one; so a pair is not issued twice until the sequence has come round.
-/
namespace TimeIds

/-- The largest clock sequence. -/
def clockSequenceMax : UInt16 := 0x3FFF

/-- A node, with the clock state that its timestamps depend on. -/
structure Node where
  id : NodeId
  lastTicks : Ticks
  clockSequence : UInt16
deriving DecidableEq, Repr

/-- A tick and the clock sequence it was issued under. -/
structure Timestamp where
  ticks : Ticks
  clockSequence : UInt16
deriving DecidableEq, Repr

/-- Random values for nodes that have no history: octets for an identifier, and a clock sequence
for each node in turn. -/
structure Draws where
  host : NodeId
  sequence : Nat → UInt16

/-- Reads the written form of a node identifier. The failure names the text as it was given. -/
def NodeId.parse (s : String) : Except IdError NodeId :=
  match NodeId.ofText? s with
  | some id => .ok id
  | none => .error (.invalidNode s)

namespace Node

/-- The low 14 bits. -/
def maskSequence (s : UInt16) : UInt16 := s &&& clockSequenceMax

/-- A node with the given history, its sequence cut to 14 bits. -/
def restore (n : Node) : Node := { n with clockSequence := maskSequence n.clockSequence }

/-- A node without history, under a sequence drawn for it. -/
def fresh (id : NodeId) (draw : UInt16) : Node := ⟨id, 0, maskSequence draw⟩

/-- A node for a host that has none configured; the multicast bit keeps it apart from network
cards. -/
def derived (draws : Draws) : Node := fresh draws.host.asMulticast (draws.sequence 0)

/-- The next clock sequence, with 0 after the largest. -/
def bump (n : Node) : Node := { n with clockSequence := maskSequence (n.clockSequence + 1) }

/-- Nodes are the same if their identifiers are, whatever their clock state. -/
def isSame (a b : Node) : Bool := a.id == b.id

/-- A hash that agrees with `isSame`. -/
def identityHash (n : Node) : UInt64 := hash n.id

/-- The timestamp for a clock reading, and the node after it. Without a tick the node stays as it
is. -/
def issue (n : Node) : Reading → Except IdError (Timestamp × Node)
  | none => .error .overClocked
  | some ticks =>
    let moved := if ticks ≤ n.lastTicks then n.bump else n
    .ok (⟨ticks, moved.clockSequence⟩, { moved with lastTicks := ticks })

theorem maskSequence_le (s : UInt16) : maskSequence s ≤ clockSequenceMax := by
  rw [UInt16.le_iff_toNat_le, maskSequence, UInt16.toNat_and]
  exact Nat.and_le_right

theorem identityHash_eq_of_isSame {a b : Node} (h : a.isSame b = true) :
    a.identityHash = b.identityHash := by
  rw [identityHash, identityHash, eq_of_beq h]

end Node
end TimeIds
