import TimeIds.Alphanumeric.Id

/-!
The generator of alphanumeric identifiers.

A generator holds the time segment of its last identifier and the serial number it gave there. A
clock reading that lies ahead of the segment, by the shorter way round the ring of 64 bits, opens a
new segment at serial 0; any other reading takes the next serial number of the held one. A segment
that would not fit its thirteen digits counts as not ahead, and full laps of the ring stay counted.
-/
namespace TimeIds.Alphanumeric

/-- The largest time segment of thirteen digits. -/
def maxPosition : Nat := 36 ^ Base36.timeDigits - 1

/-- The upper bound, in milliseconds, of the random shift of an offset that nobody chose. -/
def offsetSpread : Nat := 2 ^ 40

/-- The width of a suffix that nobody chose. -/
def defaultSuffixDigits : Nat := 3

/-- A time segment and the last serial number given there. -/
structure Segment where
  position : Nat
  serial : Nat
deriving DecidableEq, Repr

/-- A generator of identifiers with one suffix width and one offset. -/
structure Generator where
  suffixDigits : Nat
  offset : Millis
  /-- The segment of the last identifier, if one was issued. -/
  held : Option Segment := none
  suffixDigits_le : suffixDigits ≤ Base36.timeDigits
deriving DecidableEq

/-- Where a reading of the ring lands relative to a held position, if it lies ahead and fits. -/
def advance? (position : Nat) (ring : UInt64) : Option Nat :=
  let step := (ring - UInt64.ofNat position).toInt64.toInt
  if step ≤ 0 then none
  else if position + step.toNat ≤ maxPosition then some (position + step.toNat)
  else none

/-- The offset of a generator for which nobody chose one: the present time, shifted back at random
where a suffix gives room, so that generators made together start apart. -/
def defaultOffset (suffixDigits : Nat) (now : Millis) (draw : UInt64) : Millis :=
  if suffixDigits = 0 then now else now - Int64.ofNat (draw.toNat % offsetSpread)

namespace Generator

/-- A generator that has issued nothing. -/
def create (suffixDigits : Nat) (offset : Millis) : Except IdError Generator :=
  if h : suffixDigits ≤ Base36.timeDigits then
    .ok { suffixDigits, offset, suffixDigits_le := h }
  else .error (.invalidArgument (.suffixTooWide suffixDigits))

/-- A generator with the offset that was chosen, or with one for the present time. -/
def start (suffixDigits : Nat) (offset : Option Millis) (now : Millis) (draw : UInt64) :
    Except IdError Generator :=
  create suffixDigits (offset.getD (defaultOffset suffixDigits now draw))

/-- How long every identifier is. -/
def idLength (g : Generator) : Nat := Base36.timeDigits + g.suffixDigits

/-- The identifier of a segment, and the generator that holds it. -/
def issue (g : Generator) (s : Segment) : String × Generator :=
  (idText g.suffixDigits s.position s.serial, { g with held := some s })

/-- The next identifier while the clock shows `now`. A refusal leaves the generator as it is. -/
def next (g : Generator) (now : Millis) : Except IdError (String × Generator) :=
  let ring := (now - g.offset).toUInt64
  match g.held with
  | none => .ok (g.issue ⟨ring.toNat, 0⟩)
  | some held =>
    match advance? held.position ring with
    | some position => .ok (g.issue ⟨position, 0⟩)
    | none =>
      if held.serial + 1 ≤ Base36.capacity g.suffixDigits then
        .ok (g.issue { held with serial := held.serial + 1 })
      else .error (.capacityExhausted g.suffixDigits)

/-- More calls at one reading, after those that gave `issued`, whose last identifier comes first. -/
def batchOnto (now : Millis) : List String → Generator → Nat →
    Except IdError (List String) × Generator
  | issued, g, 0 => (.ok issued.reverse, g)
  | issued, g, count + 1 =>
    match g.next now with
    | .error e => (.error e, g)
    | .ok (id, g') => batchOnto now (id :: issued) g' count

/-- That many identifiers while the clock shows `now`. The first refusal ends the batch; the
identifiers before it are lost, but the generator has issued them. -/
def batch (g : Generator) (now : Millis) (count : Nat) :
    Except IdError (List String) × Generator :=
  batchOnto now [] g count

/-- The outcome for each reading, refusals in their place, and the generator afterwards. -/
def outcomes (g : Generator) : List Millis → List (Except IdError String) × Generator
  | [] => ([], g)
  | now :: rest =>
    match g.next now with
    | .error e =>
      let (out, last) := g.outcomes rest
      (.error e :: out, last)
    | .ok (id, g') =>
      let (out, last) := g'.outcomes rest
      (.ok id :: out, last)

/-- The time at which an identifier of this generator was issued. -/
def millisOf (g : Generator) (id : String) : Except IdError Millis :=
  Alphanumeric.millisOf id g.offset

end Generator
end TimeIds.Alphanumeric
