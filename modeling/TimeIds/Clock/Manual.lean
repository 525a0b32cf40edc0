import TimeIds.Clock.Ticks

/-!
A clock moved by hand, for simulations. It shows a millisecond and a tick; moving the millisecond
moves the tick with it, and the tick alone may be set to any value.
-/
namespace TimeIds

/-- What a clock moved by hand shows. -/
structure ManualClock where
  millis : Millis := 0
  ticks : Ticks := 0
  /-- While set, the clock has no tick to give. -/
  overClocked : Bool := false
deriving DecidableEq, Repr

namespace ManualClock

/-- Both scales moved to a millisecond. -/
def setMillis (c : ManualClock) (millis : Millis) : ManualClock :=
  { c with millis, ticks := Ticks.ofMillis millis }

/-- A clock that starts at a millisecond. -/
def startingAt (millis : Millis) : ManualClock := setMillis {} millis

/-- Both scales shifted by a number of milliseconds, round the ring of 64 bits. -/
def advance (c : ManualClock) (delta : Millis) : ManualClock :=
  c.setMillis (c.millis + delta)

/-- The tick alone moved. -/
def setTicks (c : ManualClock) (ticks : Ticks) : ManualClock := { c with ticks }

/-- What the clock answers as a tick clock. -/
def reading (c : ManualClock) : Reading :=
  if c.overClocked then none else some c.ticks

end ManualClock
end TimeIds
