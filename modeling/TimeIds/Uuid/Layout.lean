import TimeIds.Node.Basic

/-!
Version-1 UUIDs and the parts they are built from.

Sixty bits of the tick, fourteen of the clock sequence and the node are laid out with the version
nibble 1 and the variant bits 10. The parts can be taken back out of any UUID with version nibble 1;
the variant does not matter to that.
-/
namespace TimeIds

/-- A UUID by its fields. -/
structure Uuid where
  timeLow : UInt32
  timeMid : UInt16
  timeHighAndVersion : UInt16
  sequenceHighAndVariant : UInt8
  sequenceLow : UInt8
  node : NodeId
deriving DecidableEq, Repr

namespace Uuid

/-- The UUID of a timestamp issued on a node. -/
def ofTimestamp (t : Timestamp) (node : NodeId) : Uuid where
  timeLow := t.ticks.toUInt32
  timeMid := (t.ticks >>> 32).toUInt16
  timeHighAndVersion := ((t.ticks >>> 48).toUInt16 &&& 0x0FFF) ||| 0x1000
  sequenceHighAndVariant := ((t.clockSequence >>> 8).toUInt8 &&& 0x3F) ||| 0x80
  sequenceLow := t.clockSequence.toUInt8
  node := node

/-- The version nibble. -/
def version (u : Uuid) : Nat := (u.timeHighAndVersion >>> 12).toNat

/-- The value of a part that only version-1 UUIDs have. -/
def ifTimeBased (u : Uuid) {α : Type} (part : α) : Option α :=
  if u.version = 1 then some part else none

/-- The tick, modulo `2 ^ 60`. -/
def time? (u : Uuid) : Option Ticks :=
  u.ifTimeBased <| ((u.timeHighAndVersion &&& 0x0FFF).toUInt64 <<< 48) |||
    (u.timeMid.toUInt64 <<< 32) ||| u.timeLow.toUInt64

/-- The clock sequence, modulo `2 ^ 14`. -/
def clockSequence? (u : Uuid) : Option UInt16 :=
  u.ifTimeBased <| ((u.sequenceHighAndVariant &&& 0x3F).toUInt16 <<< 8) ||| u.sequenceLow.toUInt16

/-- The node. -/
def node? (u : Uuid) : Option NodeId :=
  u.ifTimeBased u.node

/-! ### Written form -/

/-- The sixteen octets, most significant first. -/
def octets (u : Uuid) : List UInt8 :=
  [(u.timeLow >>> 24).toUInt8, (u.timeLow >>> 16).toUInt8, (u.timeLow >>> 8).toUInt8,
    u.timeLow.toUInt8, (u.timeMid >>> 8).toUInt8, u.timeMid.toUInt8,
    (u.timeHighAndVersion >>> 8).toUInt8, u.timeHighAndVersion.toUInt8,
    u.sequenceHighAndVariant, u.sequenceLow] ++ u.node.octets

/-- The UUID of sixteen octets. -/
def ofOctets? : List UInt8 → Option Uuid
  | [a, b, c, d, e, f, g, h, i, j, k, l, m, n, o, p] => some {
      timeLow := (a.toUInt32 <<< 24) ||| (b.toUInt32 <<< 16) ||| (c.toUInt32 <<< 8) ||| d.toUInt32
      timeMid := (e.toUInt16 <<< 8) ||| f.toUInt16
      timeHighAndVersion := (g.toUInt16 <<< 8) ||| h.toUInt16
      sequenceHighAndVariant := i
      sequenceLow := j
      node := ⟨k, l, m, n, o, p⟩ }
  | _ => none

/-- The octets in lower-case digits. -/
def hexDigits (octets : List UInt8) : List Char :=
  (octets.map (Text.octetDigits Text.hexLower)).flatten

/-- The written form: groups of 4, 2, 2, 2 and 6 octets in lower case, joined by `-`. -/
def text (u : Uuid) : String :=
  let o := u.octets
  String.ofList <| List.intercalate ['-'] <|
    [o.take 4, (o.drop 4).take 2, (o.drop 6).take 2, (o.drop 8).take 2, o.drop 10].map hexDigits

/-- Octets of two digits each, with nothing between them. -/
def readOctets : List Char → Option (List UInt8)
  | [] => some []
  | high :: low :: rest =>
    (Text.octet? high low).bind fun b => (readOctets rest).map (b :: ·)
  | [_] => none

/-- Reads the written form, in either letter case. -/
def ofText? (s : String) : Option Uuid :=
  let cs := s.toList
  if [8, 13, 18, 23].all (fun i => cs[i]? == some '-') ∧ cs.length = 36 then
    (readOctets (cs.filter (· != '-'))).bind ofOctets?
  else none

end Uuid
end TimeIds
