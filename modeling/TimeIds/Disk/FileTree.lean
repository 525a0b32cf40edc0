import TimeIds.Disk.Basic
import TimeIds.Instances

/-!
A file system held in memory: a tree of directories and files, with a working directory.

Places are lists of names from the root. A path is resolved from the working directory or, if it
begins with a slash, from the root; every name before the last must lead to a directory. Main
definitions:

- `FileTree.locate` – where a path leads;
- `FileTree.read`, `FileTree.write`, `FileTree.move` – the operations, with their refusals;
- the instance of `Disk` for computations on a tree.
-/
namespace TimeIds

/-- What a file holds. -/
inductive Content
  | text (s : String)
  /-- Bytes that are no UTF-8 text. -/
  | binary (bytes : ByteArray)
deriving DecidableEq

/-- The content of a file with the given bytes. -/
def Content.ofBytes (bytes : ByteArray) : Content :=
  match String.fromUTF8? bytes with
  | some s => .text s
  | none => .binary bytes

/-- What stands at a place. -/
inductive Entry
  | directory
  | file (content : Content)
deriving DecidableEq

/-- A place, as the names that lead to it from the root. -/
abbrev Place := List String

/-- Directories and files, and the directory that paths start from. -/
structure FileTree where
  entries : List (Place × Entry) := []
  workingDirectory : Place := []
deriving DecidableEq

/-- Where a path leads. -/
inductive Target
  /-- To a directory that exists, since the path ends in a dot name or is the root. -/
  | existing (place : Place)
  /-- To a name in a directory; `slash` tells whether a slash follows the name. -/
  | named (directory : Place) (name : String) (slash : Bool)

namespace FileTree

/-- The longest name in bytes. -/
def maxName : Nat := 255

/-- The longest path in bytes. -/
def maxPath : Nat := 4095

/-- What stands at a place. The root is always there. -/
def get? (t : FileTree) (place : Place) : Option Entry :=
  if place.isEmpty then some .directory else t.entries.lookup place

/-- The tree without what stands at a place. -/
def erase (t : FileTree) (place : Place) : FileTree :=
  { t with entries := t.entries.filter fun e => e.1 != place }

/-- The tree with an entry at a place, instead of what stood there. -/
def insert (t : FileTree) (place : Place) (e : Entry) : FileTree :=
  let t := t.erase place
  { t with entries := t.entries ++ [(place, e)] }

/-- What a name in a directory leads to. -/
def lookUp (t : FileTree) (directory : Place) (name : String) : Except FileFault (Option Entry) :=
  if name.utf8ByteSize > maxName then .error .nameTooLong else .ok (t.get? (directory ++ [name]))

/-- The directory that names lead to from a directory. -/
def walk (t : FileTree) (place : Place) : List String → Except FileFault Place
  | [] => .ok place
  | name :: rest =>
    if name = "." then walk t place rest
    else if name = ".." then walk t place.dropLast rest
    else
      match t.lookUp place name with
      | .error fault => .error fault
      | .ok none => .error .notFound
      | .ok (some (.file _)) => .error .notDirectory
      | .ok (some .directory) => walk t (place ++ [name]) rest

/-- The names of a path between its slashes. -/
def pathNames (cs : List Char) : List String :=
  ((cs.splitOn '/').filter (!·.isEmpty)).map String.ofList

/-- Where a path leads. -/
def locate (t : FileTree) (path : Path) : Except FileFault Target :=
  let cs := path.text.toList
  if cs.contains '\x00' then .error .nulInPath
  else if cs.isEmpty then .error .notFound
  else if path.text.utf8ByteSize > maxPath then .error .nameTooLong
  else
    let names := pathNames cs
    let start := if cs.head? = some '/' then [] else t.workingDirectory
    match t.walk start names.dropLast, names.getLast? with
    | .error fault, _ => .error fault
    | .ok place, none => .ok (.existing place)
    | .ok place, some name =>
      if name = "." then .ok (.existing place)
      else if name = ".." then .ok (.existing place.dropLast)
      else .ok (.named place name (cs.getLast? = some '/'))

/-- The content of the file that a path leads to. -/
def read (t : FileTree) (path : Path) : Except FileFault Content := do
  match ← t.locate path with
  | .existing _ => throw .isDirectory
  | .named directory name slash =>
    match ← t.lookUp directory name with
    | none => throw .notFound
    | some .directory => throw .isDirectory
    | some (.file content) => if slash then throw .notDirectory else pure content

/-- The text of the file that a path leads to. -/
def readText (t : FileTree) (path : Path) : Except FileFault String := do
  match ← t.read path with
  | .text s => pure s
  | .binary _ => throw .notText

/-- Whether a path leads to a file or a directory. -/
def isPresent (t : FileTree) (path : Path) : Bool :=
  match t.read path with
  | .ok _ => true
  | .error fault => fault == .isDirectory

/-- The tree with a text in the file that a path leads to. -/
def write (t : FileTree) (path : Path) (text : String) : Except FileFault FileTree := do
  match ← t.locate path with
  | .existing _ => throw .isDirectory
  | .named directory name slash =>
    match ← t.lookUp directory name with
    | some .directory => throw .isDirectory
    | _ =>
      if slash then throw .isDirectory
      else pure (t.insert (directory ++ [name]) (.file (.text text)))

/-- The tree with a file moved over another. Directories are not moved. -/
def move (t : FileTree) (source target : Path) : Except FileFault FileTree := do
  match ← t.locate source, ← t.locate target with
  | .named directory name slash, .named directory' name' slash' =>
    match ← t.lookUp directory name, ← t.lookUp directory' name' with
    | none, _ => throw .notFound
    | some .directory, _ => throw .isDirectory
    | some (.file content), held =>
      if slash || slash' then throw .notDirectory
      else if held = some .directory then throw .isDirectory
      else pure ((t.erase (directory ++ [name])).insert (directory' ++ [name']) (.file content))
  | _, _ => throw .busy

/-- The outcome of a change, and the tree after it; a refused change leaves the tree as it is. -/
def update (change : FileTree → Except FileFault FileTree) :
    StateM FileTree (Except FileFault Unit) := fun t =>
  match change t with
  | .error fault => (.error fault, t)
  | .ok t' => (.ok (), t')

instance : Disk (StateM FileTree) where
  isPresent path := fun t => (t.isPresent path, t)
  readText path := fun t => (t.readText path, t)
  writeText path text := update (·.write path text)
  rename source target := update (·.move source target)

/-- What lies below the working directory: places from there, and what stands at them. -/
def listing (t : FileTree) : List (Place × Entry) :=
  t.entries.filterMap fun e =>
    if t.workingDirectory.isPrefixOf e.1 && e.1 != t.workingDirectory then
      some (e.1.drop t.workingDirectory.length, e.2)
    else none

theorem get?_insert_self (t : FileTree) {place : Place} (e : Entry) (h : place ≠ []) :
    (t.insert place e).get? place = some e := by
  have hnil : place.isEmpty = false := by simpa using h
  have absent : (t.entries.filter fun x => x.1 != place).lookup place = none := by
    rw [List.lookup_eq_none_iff]
    intro x hx
    have hne : x.1 ≠ place := by simpa using (List.mem_filter.1 hx).2
    simpa using hne.symm
  simp [get?, insert, erase, hnil, List.lookup_append, absent]

end FileTree
end TimeIds
