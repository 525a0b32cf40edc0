import TimeIds.Clock.Ticks

/-!
Instants of the proleptic Gregorian calendar in UTC.

An instant is a second of Unix time and the nanoseconds since its start. These may run on for a
second more, which is how a leap second is told; it may follow any second, though an instant made
from Unix time has it only at the end of a minute. Main definitions:

- `Instant.ofUnix?` – the instant of a second and its nanoseconds;
- `Instant.ofTicks?`, `Instant.toTicks` – the way from and to ticks;
- `Date.ofDays` – the date of a day counted from 1970-01-01;
- `Instant.rfc3339` – the text of an instant.
-/
namespace TimeIds

/-- A second of the years -262143 to 262142, with the nanoseconds of it and of a leap second after
it. -/
def Instant.Valid (secs : Int) (nanos : Nat) : Prop :=
  -8334601228800 ≤ secs ∧ secs ≤ 8210266876799 ∧ nanos < 2000000000

instance (secs : Int) (nanos : Nat) : Decidable (Instant.Valid secs nanos) :=
  inferInstanceAs (Decidable (_ ∧ _ ∧ _))

/-- A point in time. -/
structure Instant where
  /-- Seconds since 1970-01-01. -/
  secs : Int
  /-- Nanoseconds since the start of the second, past a whole second in a leap second. -/
  nanos : Nat
  valid : Instant.Valid secs nanos
deriving DecidableEq

/-- A day of the calendar. -/
structure Date where
  year : Int
  month : Nat
  day : Nat
deriving DecidableEq, Repr

/-- The date of a day counted from 1970-01-01.

Years begin in March here, so that a leap day is the last day of its year; a cycle of 400 such years
has 146097 days. -/
def Date.ofDays (days : Int) : Date :=
  let shifted := days + 719468
  let cycle := shifted / 146097
  let dayOfCycle := (shifted % 146097).toNat
  let yearOfCycle :=
    (dayOfCycle - dayOfCycle / 1460 + dayOfCycle / 36524 - dayOfCycle / 146096) / 365
  let dayOfYear := dayOfCycle - (365 * yearOfCycle + yearOfCycle / 4 - yearOfCycle / 100)
  let monthFromMarch := (5 * dayOfYear + 2) / 153
  let day := dayOfYear - (153 * monthFromMarch + 2) / 5 + 1
  let month := if monthFromMarch < 10 then monthFromMarch + 3 else monthFromMarch - 9
  let year := yearOfCycle + cycle * 400
  ⟨if month ≤ 2 then year + 1 else year, month, day⟩

namespace Instant

/-- The instant of a Unix second and its nanoseconds, if there is one. A leap second is taken only
after the last second of a minute. -/
def ofUnix? (secs : Int) (nanos : Nat) : Option Instant :=
  if h : Valid secs nanos ∧ (nanos < 1000000000 ∨ secs % 60 = 59) then some ⟨secs, nanos, h.1⟩
  else none

/-- The instant of a number of Unix milliseconds, if there is one. -/
def ofMillis? (millis : Int) : Option Instant :=
  ofUnix? (millis / 1000) ((millis % 1000).toNat * 1000000)

/-- The instant of a tick. -/
def ofTicks? (ticks : Ticks) : Option Instant :=
  let sinceUnix : Int := ticks.toNat - Ticks.gregorianOffset
  ofUnix? (sinceUnix / Ticks.perSecond) ((sinceUnix % Ticks.perSecond).toNat * 100)

/-- The position of an instant on the unbounded tick scale, cut to a whole tick. -/
def position (i : Instant) : Int :=
  i.secs * Ticks.perSecond + (i.nanos / 100 : Nat) + Ticks.gregorianOffset

/-- The tick of an instant. -/
def toTicks (i : Instant) : Ticks := Ticks.clamp i.position

/-! ### Text -/

/-- A number in at least `width` digits. -/
def padded (width n : Nat) : String :=
  let digits := toString n
  String.ofList (List.replicate (width - digits.length) '0') ++ digits

/-- A year in at least four digits, with a sign where it does not fit four. -/
def yearText (year : Int) : String :=
  if 0 ≤ year ∧ year ≤ 9999 then padded 4 year.toNat
  else (if year < 0 then "-" else "+") ++ padded 4 year.natAbs

/-- The fraction of a second in the fewest of 0, 3, 6 and 9 digits that lose nothing. -/
def fractionText (nanos : Nat) : String :=
  if nanos = 0 then ""
  else if nanos % 1000000 = 0 then "." ++ padded 3 (nanos / 1000000)
  else if nanos % 1000 = 0 then "." ++ padded 6 (nanos / 1000)
  else "." ++ padded 9 nanos

/-- The text of an instant, with the offset of UTC. A leap second is second 60. -/
def rfc3339 (i : Instant) : String :=
  let date := Date.ofDays (i.secs / 86400)
  let second := (i.secs % 86400).toNat
  yearText date.year ++ "-" ++ padded 2 date.month ++ "-" ++ padded 2 date.day ++ "T" ++
    padded 2 (second / 3600) ++ ":" ++ padded 2 (second / 60 % 60) ++ ":" ++
    padded 2 (second % 60 + i.nanos / 1000000000) ++ fractionText (i.nanos % 1000000000) ++
    "+00:00"

/-- Within a second there is nothing more to ask of an instant than that the calendar has it. -/
theorem ofUnix?_of_lt {secs : Int} {nanos : Nat} (h : Valid secs nanos) (hlt : nanos < 1000000000) :
    ofUnix? secs nanos = some ⟨secs, nanos, h⟩ := dif_pos ⟨h, .inl hlt⟩

/-- Every tick lies within the calendar. -/
theorem isSome_ofTicks? (ticks : Ticks) : (ofTicks? ticks).isSome = true := by
  have bound := ticks.toNat_lt
  have valid : Valid (((ticks.toNat : Int) - Ticks.gregorianOffset) / Ticks.perSecond)
      ((((ticks.toNat : Int) - Ticks.gregorianOffset) % Ticks.perSecond).toNat * 100) := by
    simp only [Valid, Ticks.gregorianOffset, Ticks.perSecond]
    omega
  have within : (((ticks.toNat : Int) - Ticks.gregorianOffset) % Ticks.perSecond).toNat * 100 <
      1000000000 := by
    simp only [Ticks.perSecond]
    omega
  unfold ofTicks?
  dsimp only
  rw [ofUnix?_of_lt valid within, Option.isSome_some]

end Instant
end TimeIds
