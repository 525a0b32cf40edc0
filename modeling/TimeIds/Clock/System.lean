import TimeIds.Clock.Ticks
import TimeIds.Error

/-!
The tick clock over a wall clock of milliseconds.

A millisecond holds `Ticks.perMilli` ticks. They are handed out one after the other while the wall
clock shows the same millisecond, and a caller that asks for more is refused until it moves.
-/
namespace TimeIds

/-- How far the current millisecond is used up. -/
structure SystemClock where
  millis : Millis := 0
  /-- Ticks of this millisecond that lie behind. -/
  issued : Nat := 0
deriving DecidableEq, Repr

namespace SystemClock

/-- The next tick while the wall clock shows `now`; a refusal leaves the clock as it is. -/
def next (c : SystemClock) (now : Millis) : Except IdError (Ticks × SystemClock) :=
  let used : Except IdError SystemClock :=
    if now ≠ c.millis then .ok ⟨now, 0⟩
    else if c.issued + 1 ≥ Ticks.perMilli then .error .overClocked
    else .ok { c with issued := c.issued + 1 }
  used.map fun c' => (Ticks.clamp ((Ticks.ofMillis now).toNat + c'.issued), c')

end SystemClock
end TimeIds
