import TimeIds.Instances

/-!
The two scales of time: Unix milliseconds and ticks.

A tick is 100 nanoseconds, counted from 1582-10-15 00:00 in 64 bits. An instant before the first or
after the last tick is taken to that end of the scale.
-/
namespace TimeIds

/-- Milliseconds since 1970-01-01. -/
abbrev Millis := Int64

/-- Ticks of 100 ns since 1582-10-15. -/
abbrev Ticks := UInt64

/-- What a tick clock answers: a tick, or nothing when it has no fresh one left. -/
abbrev Reading := Option Ticks

namespace Ticks

/-- Ticks between 1582-10-15 and 1970-01-01. -/
def gregorianOffset : Nat := 0x01B21DD213814000

/-- Ticks in a millisecond. -/
def perMilli : Nat := 10000

/-- Ticks in a second. -/
def perSecond : Nat := 10000000

/-- The tick nearest to a position on the unbounded scale. -/
def clamp (position : Int) : Ticks :=
  UInt64.ofNat (min position.toNat (2 ^ 64 - 1))

/-- The first tick of a millisecond. -/
def ofMillis (millis : Millis) : Ticks :=
  clamp (millis.toInt * perMilli + gregorianOffset)

theorem toNat_clamp (position : Int) :
    (clamp position).toNat = min position.toNat (2 ^ 64 - 1) := by
  unfold clamp
  rw [UInt64.toNat_ofNat_of_lt' (by simp only [UInt64.size]; omega)]

/-- Clamping keeps the order. -/
theorem clamp_mono {a b : Int} (h : a ≤ b) : clamp a ≤ clamp b := by
  rw [UInt64.le_iff_toNat_le, toNat_clamp, toNat_clamp]
  omega

/-- Later times have no earlier ticks. -/
theorem ofMillis_mono {a b : Millis} (h : a ≤ b) : ofMillis a ≤ ofMillis b := by
  rw [Int64.le_iff_toInt_le] at h
  exact clamp_mono (by simp only [perMilli]; omega)

end Ticks
end TimeIds
