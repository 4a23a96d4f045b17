import VisualNovel.Path

/-!
This module contains disks: files and directories in one tree without links. A place in the tree is the list
of the names that lead to it from the root.
-/

namespace VisualNovel

/--
Why a disk refuses an access.
-/
inductive DiskFault where
  | notFound
  | notDirectory
  | isDirectory
  | alreadyExists
  | nameTooLong
  | invalidName
  | invalidText
  deriving DecidableEq, Repr

def DiskFault.message : DiskFault → String
  | .notFound => "No such file or directory (os error 2)"
  | .notDirectory => "Not a directory (os error 20)"
  | .isDirectory => "Is a directory (os error 21)"
  | .alreadyExists => "File exists (os error 17)"
  | .nameTooLong => "File name too long (os error 36)"
  | .invalidName => "file name contained an unexpected NUL byte"
  | .invalidText => "stream did not contain valid UTF-8"

namespace Disk

abbrev Place := List String

inductive Entry where
  | directory
  | file (bytes : ByteArray)

end Disk

structure Disk where
  /-- All that there is below the root. -/
  entries : List (Disk.Place × Disk.Entry) := []
  /-- The directory that relative paths start from. -/
  current : Disk.Place := []

namespace Disk

def get? (disk : Disk) (place : Place) : Option Entry :=
  if place = [] then some .directory else disk.entries.lookup place

def erase (disk : Disk) (place : Place) : Disk :=
  { disk with entries := disk.entries.filter (·.1 != place) }

def insert (disk : Disk) (place : Place) (entry : Entry) : Disk :=
  { disk with entries := (place, entry) :: (disk.erase place).entries }

theorem lookup_filter_ne {β : Type} (entries : List (Place × β)) {place other : Place}
    (h : other ≠ place) : (entries.filter (·.1 != place)).lookup other = entries.lookup other := by
  induction entries with
  | nil => rfl
  | cons e es ih =>
    obtain ⟨key, b⟩ := e
    by_cases hp : key = place
    . have : (other == key) = false := by simpa [hp] using h
      rw [List.filter_cons_of_neg (by simpa using hp), List.lookup_cons, this]
      exact ih
    . rw [List.filter_cons_of_pos (by simpa using hp), List.lookup_cons, List.lookup_cons, ih]

@[simp]
theorem get?_insert_self (disk : Disk) {place : Place} (entry : Entry) (h : place ≠ [])
    : (disk.insert place entry).get? place = some entry := by
  simp [insert, get?, h]

theorem get?_insert_of_ne (disk : Disk) {place other : Place} (entry : Entry) (h : other ≠ place)
    : (disk.insert place entry).get? other = disk.get? other := by
  have : (other == place) = false := by simpa using h
  simp only [insert, erase, get?, List.lookup_cons, this]
  split
  . rfl
  . exact lookup_filter_ne _ h

/-! ### From paths to places -/

/--
Refuses all but a directory.
-/
def requireDirectory (disk : Disk) (place : Place) : Except DiskFault Unit :=
  match disk.get? place with
  | some .directory => .ok ()
  | some (.file _) => .error .notDirectory
  | none => .error .notFound

/--
Follows the parts of a path from a place. All but the last part must lead to a directory.
-/
def follow (disk : Disk) (place : Place) : List String → Except DiskFault Place
  | [] => .ok place
  | part :: parts => do
    disk.requireDirectory place
    if part = "" || part = "." then
      disk.follow place parts
    else if part = ".." then
      disk.follow place.dropLast parts
    else if 255 < part.utf8ByteSize then
      throw .nameTooLong
    else
      disk.follow (place ++ [part]) parts

/--
The parts of a path, and the place that it starts from.
-/
def start (disk : Disk) (path : String) : Except DiskFault (Place × List String) := do
  if path.toList.contains '\x00' then
    throw .invalidName
  if path.isEmpty then
    throw .notFound
  if 4095 < path.utf8ByteSize then
    throw .nameTooLong
  let parts := (Path.splitAt '/' path.toList).map String.ofList
  return (if Path.isAbsolute path then [] else disk.current, parts)

/--
What a path leads to.
-/
def find (disk : Disk) (path : String) : Except DiskFault (Place × Entry) := do
  let (place, parts) ← disk.start path
  let place ← disk.follow place parts
  match disk.get? place with
  | some entry => return (place, entry)
  | none => throw .notFound

/--
The last part of a path, the parts before it, and whether slashes follow.
-/
structure Target where
  before : List String
  name : String
  slashed : Bool

def Target.ofParts (parts : List String) : Target :=
  match parts.reverse.dropWhile (· = "") with
  | [] => { before := [], name := "", slashed := true }
  | name :: before =>
    { before := before.reverse, name, slashed := parts.getLast? = some "" }

/--
The directory that a new entry comes into, and its name there.
-/
def findTarget (disk : Disk) (path : String) : Except DiskFault (Place × Target) := do
  let (place, parts) ← disk.start path
  let target := Target.ofParts parts
  let directory ← disk.follow place target.before
  disk.requireDirectory directory
  return (directory, target)

def Target.isName (target : Target) : Bool :=
  target.name != "" && target.name != "." && target.name != ".."

/--
The place of a target in its directory.
-/
def Target.placeIn (target : Target) (directory : Place) : Except DiskFault Place :=
  if 255 < target.name.utf8ByteSize then
    throw .nameTooLong
  else
    return directory ++ [target.name]

end Disk
end VisualNovel
