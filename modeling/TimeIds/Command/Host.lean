import TimeIds.Disk.Basic
import TimeIds.Node.Draws

/-!
What a command needs of the machine it runs on: files, clocks, chance, the environment, and a place
to print to.
-/
namespace TimeIds.Command

/-- The surroundings of a command. -/
class Host (m : Type → Type) extends Disk m where
  /-- The wall clock. -/
  now : m Millis
  /-- Nanoseconds since some point in the past. -/
  stopwatch : m Nat
  /-- A word of random bits. -/
  random : m UInt64
  /-- An environment variable. -/
  environment : String → m (Option String)
  /-- Prints a line. -/
  printLine : String → m Unit

end TimeIds.Command
