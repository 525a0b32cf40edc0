import TimeIds.Text.Blank
import TimeIds.Text.Hex

/-!
Node identifiers: the six octets that name the issuer of an identifier.

The written form is six groups of two hexadecimal digits. `text` writes upper-case groups joined by
`-`; `ofText?` also takes lower case, groups joined by `:`, and blanks around the whole. Identifiers
are ordered by their octets, the first one weighing most.
-/
namespace TimeIds

/-- Six octets that identify a node. -/
structure NodeId where
  o0 : UInt8
  o1 : UInt8
  o2 : UInt8
  o3 : UInt8
  o4 : UInt8
  o5 : UInt8
deriving DecidableEq, Repr

namespace NodeId

/-- How many octets an identifier has. -/
def length : Nat := 6

/-- The octets in writing order. -/
def octets (n : NodeId) : List UInt8 := [n.o0, n.o1, n.o2, n.o3, n.o4, n.o5]

/-- The identifier of exactly six octets. -/
def ofOctets? : List UInt8 → Option NodeId
  | [a, b, c, d, e, f] => some ⟨a, b, c, d, e, f⟩
  | _ => none

/-- The octets as one number of 48 bits. -/
def toNat (n : NodeId) : Nat := n.octets.foldl (fun acc b => 256 * acc + b.toNat) 0

instance : Hashable NodeId := ⟨fun n => UInt64.ofNat n.toNat⟩

/-- Whether the top bit of the first octet is set, which no network card has. -/
def isMulticast (n : NodeId) : Bool := n.o0 &&& 0x80 != 0

/-- The identifier with its multicast bit set. -/
def asMulticast (n : NodeId) : NodeId := { n with o0 := n.o0 ||| 0x80 }

/-! ### Written form -/

/-- The groups of an identifier in upper case, joined by `-`. -/
def chars (n : NodeId) : List Char :=
  List.intercalate ['-'] (n.octets.map (Text.octetDigits Text.hexUpper))

/-- The written form. -/
def text (n : NodeId) : String := String.ofList n.chars

/-- Octets written in two digits each, with one separator between neighbours. -/
def readOctets (separator : Char) : List Char → Option (List UInt8)
  | [high, low] => (Text.octet? high low).map ([·])
  | high :: low :: s :: rest =>
    if s = separator then
      (Text.octet? high low).bind fun b => (readOctets separator rest).map (b :: ·)
    else none
  | _ => none

/-- Reads six groups that are all joined by `-` or all joined by `:`. -/
def ofChars? (cs : List Char) : Option NodeId :=
  ((readOctets '-' cs).or (readOctets ':' cs)).bind ofOctets?

/-- Reads a written form; blanks around it do not matter. -/
def ofText? (s : String) : Option NodeId :=
  ofChars? (Text.trimChars s.toList)

/-! ### Order -/

instance : LT NodeId := ⟨fun a b => a.octets < b.octets⟩

instance (a b : NodeId) : Decidable (a < b) :=
  inferInstanceAs (Decidable (a.octets < b.octets))

/-- The identifiers in ascending order, repeated ones kept. -/
def sort (ids : List NodeId) : List NodeId :=
  ids.mergeSort fun a b => !decide (b < a)

theorem ofOctets?_octets (n : NodeId) : ofOctets? n.octets = some n := rfl

theorem octets_injective {a b : NodeId} (h : a.octets = b.octets) : a = b := by
  cases a; cases b; simpa [octets] using h

/-- The written form of an identifier reads back as the identifier. -/
theorem ofChars?_chars (n : NodeId) : ofChars? n.chars = some n := by
  simp [ofChars?, chars, octets, List.intercalate, List.intersperse, Text.octetDigits, readOctets,
    Text.octet?_upper, ofOctets?]

theorem isMulticast_asMulticast (n : NodeId) : n.asMulticast.isMulticast = true := by
  have key : ∀ b : Fin 256, (UInt8.ofNat b.val ||| 0x80) &&& 0x80 != 0 := by decide +kernel
  simpa [isMulticast, asMulticast] using key ⟨n.o0.toNat, n.o0.toNat_lt⟩

end NodeId
end TimeIds
