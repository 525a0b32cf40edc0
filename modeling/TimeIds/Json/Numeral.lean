import TimeIds.Json.Reader
import TimeIds.Text.Numeral

/-!
Numbers of JSON text.

A number is kept as its digits. It counts as a whole number only if it is written without sign,
fraction and exponent; any other must at least lie within the range of binary64, which
`Numeral.isOutOfRange` decides in exact arithmetic on the digits that a 64-bit significand holds.
-/
namespace TimeIds.Json

/-- A number as it is written. -/
structure Numeral where
  negative : Bool
  whole : List Char
  /-- The digits after the point; none if there is no point. -/
  fraction : List Char
  /-- Whether the exponent is negative, and its digits. -/
  exponent : Option (Bool × List Char)
deriving DecidableEq, Repr

/-- At least one digit, up to the first character that is none. A text without a digit there is
malformed, or has the fault `atEnd` if it ends. -/
def digitRun (atEnd : Fault) : Reader (List Char)
  | [] => .error atEnd
  | c :: rest =>
    if c.isDigit then .ok (c :: rest.takeWhile Char.isDigit, rest.dropWhile Char.isDigit)
    else .error .malformed

/-- The digits before the point: a single zero, or a run that does not begin with one. -/
def wholeDigits (atEnd : Fault) : Reader (List Char) := fun cs => do
  let (digits, cs) ← digitRun atEnd cs
  match digits with
  | '0' :: _ :: _ => throw .malformed
  | digits => pure (digits, cs)

/-- The point and the digits after it, if there is a point. -/
def fractionDigits (atEnd : Fault) : Reader (List Char)
  | '.' :: rest => digitRun atEnd rest
  | cs => .ok ([], cs)

/-- The exponent, if there is one. -/
def exponentDigits (atEnd : Fault) : Reader (Option (Bool × List Char)) := fun cs =>
  let afterSign (negative : Bool) (cs : List Char) :=
    (digitRun atEnd cs).map fun r => (some (negative, r.1), r.2)
  let afterLetter : List Char → Except Fault (Option (Bool × List Char) × List Char)
    | '+' :: rest => afterSign false rest
    | '-' :: rest => afterSign true rest
    | cs => afterSign false cs
  match cs with
  | 'e' :: rest => afterLetter rest
  | 'E' :: rest => afterLetter rest
  | cs => .ok (none, cs)

/-- A number. Where digits are missing because the text ends, the fault is `atEnd`. -/
def numeral (atEnd : Fault) : Reader Numeral := fun cs => do
  let (negative, cs) := match cs with
    | '-' :: rest => (true, rest)
    | cs => (false, cs)
  let (whole, cs) ← wholeDigits atEnd cs
  let (fraction, cs) ← fractionDigits atEnd cs
  let (exponent, cs) ← exponentDigits atEnd cs
  pure (⟨negative, whole, fraction, exponent⟩, cs)

/-! ### Range -/

/-- The nearest number with at most 53 binary digits before trailing zeros; a half goes to the even
neighbour. -/
def roundTo53 (n : Nat) : Nat :=
  let spare := n.log2 - 52
  let unit := 2 ^ spare
  let quotient := n / unit
  let rest := 2 * (n % unit)
  if rest > unit ∨ (rest = unit ∧ quotient % 2 = 1) then (quotient + 1) * unit else quotient * unit

/-- The least exponent that is too large at once, whatever the significand makes of it. -/
def exponentCap : Nat := 2 ^ 31

/-- The least product that rounds past the largest finite binary64. -/
def overflowBound : Nat := 2 ^ 1024 - 2 ^ 970

/-- The significand that fits a 64-bit word, and the number of whole digits that did not. -/
def significandOfWhole : Nat → List Char → Nat × Nat
  | n, [] => (n, 0)
  | n, c :: rest =>
    if Text.appendDigit n c < 2 ^ 64 then significandOfWhole (Text.appendDigit n c) rest
    else (n, rest.length + 1)

/-- A significand lengthened by fraction digits as far as a 64-bit word goes, and how many it
took. -/
def significandOfFraction : Nat → List Char → Nat × Nat
  | n, [] => (n, 0)
  | n, c :: rest =>
    if Text.appendDigit n c < 2 ^ 64 then
      let (m, taken) := significandOfFraction (Text.appendDigit n c) rest
      (m, taken + 1)
    else (n, 0)

namespace Numeral

/-- Written without fraction and exponent. -/
def isWhole (n : Numeral) : Bool := n.fraction.isEmpty && n.exponent.isNone

/-- The value of a number written as a whole one that fits a 64-bit word. -/
def word? (n : Numeral) : Option UInt64 :=
  if n.isWhole && !n.negative then (Text.digits? (2 ^ 64) n.whole).map UInt64.ofNat else none

/-- The value of the digits of an exponent, cut to `exponentCap`. -/
def exponentValue (digits : List Char) : Nat :=
  digits.foldl (fun n c => min exponentCap (Text.appendDigit n c)) 0

/-- Whether the number is too large for binary64. Its exponent is that of the significand; one
beyond 308 is too large whatever the significand, if that is not zero. -/
def isOutOfRange (n : Numeral) : Bool :=
  let (whole, dropped) := significandOfWhole 0 n.whole
  let (significand, taken) := significandOfFraction whole n.fraction
  let written : Int := match n.exponent with
    | none => 0
    | some (negative, digits) =>
      let value : Int := exponentValue digits
      if negative then -value else value
  let exponent : Int := written + dropped - taken
  significand != 0 && (decide (exponent > 308) || written ≥ exponentCap ||
    (decide (0 ≤ exponent) &&
      decide (overflowBound ≤ roundTo53 significand * roundTo53 (10 ^ exponent.toNat))))

end Numeral

/-- A number that is kept: within the range of binary64. -/
def keptNumeral : Reader Numeral := fun cs => do
  let (n, cs) ← numeral .truncated cs
  if n.isOutOfRange then throw .malformed else pure (n, cs)

end TimeIds.Json
