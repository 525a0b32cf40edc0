import TimeIds.Base36.Numeral
import TimeIds.Clock.Ticks

/-!
Alphanumeric identifiers: thirteen base-36 digits of time, then a suffix of a fixed width.

The time segment counts milliseconds from the offset of its generator. It may run past a ring of
64 bits, and is folded back onto the ring when the time is recovered. `parse` wants an identifier
of one suffix width; `millisOf` looks at the time segment alone.
-/
namespace TimeIds.Alphanumeric

/-- The parts of an identifier. -/
structure ParsedId where
  raw : String
  /-- The time segment, folded onto the ring of 64 bits. -/
  elapsed : UInt64
  /-- The value of the suffix. -/
  serial : UInt64
deriving DecidableEq, Repr

/-- The time that lies `elapsed` milliseconds past an offset, on the ring of 64 bits. -/
def timeAt (offset : Millis) (elapsed : UInt64) : Millis :=
  offset + elapsed.toInt64

/-- The time at which an identifier was issued. -/
def ParsedId.millis (p : ParsedId) (offset : Millis) : Millis :=
  timeAt offset p.elapsed

/-- Refuses a suffix wider than a time segment. -/
def checkSuffix (digits : Nat) : Except IdError Unit :=
  if digits > Base36.timeDigits then .error (.invalidArgument (.suffixTooWide digits)) else .ok ()

/-- A lower-case base-36 digit. -/
def isIdChar (c : Char) : Bool := ('0' ≤ c && c ≤ '9') || ('a' ≤ c && c ≤ 'z')

/-- The identifier of a time segment and a serial number. -/
def idText (suffixDigits position serial : Nat) : String :=
  Base36.encode position Base36.timeDigits ++ Base36.encode serial suffixDigits

/-- The value of a suffix; an empty one is 0. -/
def suffixValue (suffix : String) : Except ArgumentFault Nat :=
  if suffix.isEmpty then .ok 0 else Base36.decodeWord suffix

/-- Takes an identifier with a suffix of that many digits apart. -/
def parse (id : String) (suffixDigits : Nat) : Except IdError ParsedId :=
  (checkSuffix suffixDigits).bind fun _ =>
    let cs := id.toList
    if cs.length = Base36.timeDigits + suffixDigits ∧ cs.all isIdChar then
      let parts : Except ArgumentFault ParsedId := do
        let elapsed ← Base36.decode (String.ofList (cs.take Base36.timeDigits))
        let serial ← suffixValue (String.ofList (cs.drop Base36.timeDigits))
        pure ⟨id, UInt64.ofNat elapsed, UInt64.ofNat serial⟩
      parts.mapError .invalidArgument
    else .error (.invalidArgument (.malformedId id))

/-- Whether a text is an identifier with a suffix of that many digits. -/
def isValid (id : String) (suffixDigits : Nat) : Bool :=
  (parse id suffixDigits).toBool

/-- The characters that fill exactly the first `size` bytes of a text in UTF-8. -/
def takeBytes? : Nat → List Char → Option (List Char)
  | 0, _ => some []
  | _ + 1, [] => none
  | size + 1, c :: rest =>
    if c.utf8Size ≤ size + 1 then (takeBytes? (size + 1 - c.utf8Size) rest).map (c :: ·) else none

/-- The time at which an identifier was issued, from its time segment alone. -/
def millisOf (id : String) (offset : Millis) : Except IdError Millis :=
  match takeBytes? Base36.timeDigits id.toList with
  | none => .error (.invalidArgument (.shortId id))
  | some time =>
    ((Base36.decode (String.ofList time)).map fun elapsed =>
      timeAt offset (UInt64.ofNat elapsed)).mapError .invalidArgument

end TimeIds.Alphanumeric
