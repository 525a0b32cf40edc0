/-!
Paths of files, and the sibling that a document is written through.

A path is kept as it was given. Its file name is the last part that is neither empty nor a single
dot; a name is cut at its last dot into stem and extension, and a name that only begins with a dot
is all stem. `tempSibling` adds `.tmp` to the extension.
-/
namespace TimeIds

/-- A path in the words of its owner. -/
structure Path where
  text : String
deriving DecidableEq, Repr

namespace Path

/-- The parts of a path between its slashes, from the last to the first, with the empty parts and
single dots after the file name left out. -/
def tailTrimmed (cs : List Char) : List (List Char) :=
  (cs.splitOn '/').reverse.dropWhile fun part => part.isEmpty || part == ['.']

/-- What stands before the file name, and the file name, if the path ends in one. -/
def named? (cs : List Char) : Option (List Char × List Char) :=
  match tailTrimmed cs with
  | [] => none
  | name :: before =>
    if name == ['.', '.'] then none
    else some ((before.reverse.map (· ++ ['/'])).flatten, name)

/-- The stem of a name and the extension after its last dot. -/
def cutName (name : List Char) : List Char × Option (List Char) :=
  let extension := (name.reverse.takeWhile (· != '.')).reverse
  let stem := name.take (name.length - extension.length - 1)
  if stem.isEmpty then (name, none) else (stem, some extension)

/-- A path with its extension replaced, or as it was where it has no file name. -/
def setExtension (cs extension : List Char) : List Char :=
  match named? cs with
  | none => cs
  | some (before, name) => before ++ (cutName name).1 ++ ['.'] ++ extension

/-- The extension of the file name of a path. -/
def extension? (cs : List Char) : Option (List Char) :=
  (named? cs).bind fun n => (cutName n.2).2

/-- A path whose extension is first cut off the end of its text and then set anew. -/
def withExtension (cs extension : List Char) : List Char :=
  let old := (extension? cs).getD []
  setExtension (cs.take (cs.length - old.length)) extension

/-- The file that a document for `path` is first written to. -/
def tempSibling (path : Path) : Path :=
  let cs := path.text.toList
  ⟨String.ofList (withExtension cs ((extension? cs).getD [] ++ ".tmp".toList))⟩

example : tempSibling ⟨"s.json"⟩ = ⟨"s.json.tmp"⟩ := by decide +kernel
example : tempSibling ⟨"d/state"⟩ = ⟨"d/state..tmp"⟩ := by decide +kernel
example : tempSibling ⟨".json"⟩ = ⟨".json..tmp"⟩ := by decide +kernel
example : tempSibling ⟨"s."⟩ = ⟨"s..tmp"⟩ := by decide +kernel
example : tempSibling ⟨"..x"⟩ = ⟨".."⟩ := by decide +kernel
example : tempSibling ⟨"s.json/"⟩ = ⟨"s.json.tmp"⟩ := by decide +kernel
example : tempSibling ⟨"a/.."⟩ = ⟨"a/.."⟩ := by decide +kernel

end Path
end TimeIds
