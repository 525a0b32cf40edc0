import TimeIds.Node.Basic

/-!
Random values for nodes, spread out from one seed.

The seed and the position of a value go through a mixing function of 64 bits, a permutation whose
output bits each hang on all input bits.
-/
namespace TimeIds

/-- Mixes the bits of a word. -/
def mixWord (w : UInt64) : UInt64 :=
  let w := (w ^^^ (w >>> 30)) * 0xBF58476D1CE4E5B9
  let w := (w ^^^ (w >>> 27)) * 0x94D049BB133111EB
  w ^^^ (w >>> 31)

/-- The word at a position of the sequence that a seed starts. -/
def wordAt (seed : UInt64) (i : Nat) : UInt64 :=
  mixWord (seed + 0x9E3779B97F4A7C15 * UInt64.ofNat (i + 1))

/-- The node identifier in the low six octets of a word. -/
def NodeId.ofWord (w : UInt64) : NodeId :=
  ⟨(w >>> 40).toUInt8, (w >>> 32).toUInt8, (w >>> 24).toUInt8, (w >>> 16).toUInt8,
    (w >>> 8).toUInt8, w.toUInt8⟩

/-- The random values that a seed gives. -/
def Draws.ofSeed (seed : UInt64) : Draws where
  host := NodeId.ofWord (wordAt seed 0)
  sequence i := (wordAt seed (i + 1)).toUInt16

end TimeIds
