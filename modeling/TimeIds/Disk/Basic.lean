import TimeIds.Disk.Fault
import TimeIds.Disk.Path

/-!
What node records need of a file system: four operations, in any monad.

A text is put in place as a whole: `Disk.replaceText` writes it to the temporary sibling and then
renames that over the target, so no reader meets half of it.
-/
namespace TimeIds

/-- A file system that holds texts. -/
class Disk (m : Type → Type) where
  /-- Whether a path leads to a file or a directory. -/
  isPresent : Path → m Bool
  /-- The text of a file. -/
  readText : Path → m (Except FileFault String)
  /-- Makes a file hold a text, whatever it held before. -/
  writeText : Path → String → m (Except FileFault Unit)
  /-- Moves a file over another. -/
  rename : Path → Path → m (Except FileFault Unit)

/-- Makes a file hold a text in one step: the file is the old one or the new one at any time. -/
def Disk.replaceText {m : Type → Type} [Monad m] [Disk m] (target : Path) (text : String) :
    m (Except FileFault Unit) := do
  match ← Disk.writeText target.tempSibling text with
  | .error fault => pure (.error fault)
  | .ok () => Disk.rename target.tempSibling target

end TimeIds
