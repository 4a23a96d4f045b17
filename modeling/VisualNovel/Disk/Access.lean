import VisualNovel.Disk.Basic

/-!
This module contains the accesses to a disk: files are read, written and removed, directories are made and
listed.
-/

namespace VisualNovel
namespace Disk

def isFile (disk : Disk) (path : String) : Bool :=
  match disk.find path with
  | .ok (_, .file _) => true
  | _ => false

def isDirectory (disk : Disk) (path : String) : Bool :=
  match disk.find path with
  | .ok (_, .directory) => true
  | _ => false

/--
The absolute path without detours of something that exists.
-/
def absolute? (disk : Disk) (path : String) : Option String :=
  match disk.find path with
  | .ok (place, _) => some ("/" ++ String.intercalate "/" place)
  | .error _ => none

def currentPath (disk : Disk) : String :=
  "/" ++ String.intercalate "/" disk.current

def readBytes (disk : Disk) (path : String) : Except DiskFault ByteArray := do
  match ← disk.find path with
  | (_, .file bytes) => return bytes
  | (_, .directory) => throw .isDirectory

def readText (disk : Disk) (path : String) : Except DiskFault String := do
  match String.fromUTF8? (← disk.readBytes path) with
  | some text => return text
  | none => throw .invalidText

/--
Writes a file, in place of what it held before.
-/
def writeBytes (disk : Disk) (path : String) (bytes : ByteArray) : Except DiskFault Disk := do
  let (directory, target) ← disk.findTarget path
  if !target.isName || target.slashed then
    throw .isDirectory
  let place ← target.placeIn directory
  match disk.get? place with
  | some .directory => throw .isDirectory
  | _ => return disk.insert place (.file bytes)

def writeText (disk : Disk) (path text : String) : Except DiskFault Disk :=
  disk.writeBytes path text.toUTF8

def removeFile (disk : Disk) (path : String) : Except DiskFault Disk := do
  match ← disk.find path with
  | (place, .file _) => return disk.erase place
  | (_, .directory) => throw .isDirectory

def createDirectory (disk : Disk) (path : String) : Except DiskFault Disk := do
  let (directory, target) ← disk.findTarget path
  if !target.isName then
    throw .alreadyExists
  let place ← target.placeIn directory
  match disk.get? place with
  | some _ => throw .alreadyExists
  | none => return disk.insert place .directory

/--
Makes a directory unless it is there already.
-/
def ensureDirectory (disk : Disk) (path : String) : Except DiskFault Disk :=
  match disk.createDirectory path with
  | .error .alreadyExists =>
    if disk.isDirectory path then .ok disk else .error .alreadyExists
  | result => result

/--
The names in a directory, in ascending order.
-/
def list (disk : Disk) (path : String) : Except DiskFault (List String) := do
  let (place, entry) ← disk.find path
  match entry with
  | .file _ => throw .notDirectory
  | .directory =>
    let names := disk.entries.filterMap fun (other, _) =>
      if other.dropLast = place then other.getLast? else none
    return names.mergeSort (· ≤ ·)

/--
The files at a path and below it, each by the names that lead to it from there.
-/
def filesBelow (disk : Disk) (path : String) : Except DiskFault (List Place) := do
  let (place, _) ← disk.find path
  return disk.entries.filterMap fun (other, entry) =>
    match entry with
    | .file _ => if place.isPrefixOf other then some (other.drop place.length) else none
    | .directory => none

/--
The computations that change a disk. What a computation has changed before it fails stays.
-/
abbrev Change (ε : Type) := ExceptT ε (StateM Disk)

/--
Does one change, and reports a fault in the given way.
-/
def change {ε : Type} (report : DiskFault → ε) (f : Disk → Except DiskFault Disk) : Change ε Unit := do
  match f (← get) with
  | .ok disk => set disk
  | .error fault => throw (report fault)

/--
Makes the first directory of the list. The others are the directories around it, the nearest one first; of
them those that are missing are made before.
-/
def ensureNested : List String → Change DiskFault Unit
  | [] => pure ()
  | path :: parents => do
    if path.isEmpty then
      return
    match (← get).ensureDirectory path with
    | .ok disk => set disk
    | .error .notFound =>
      ensureNested parents
      change id (·.ensureDirectory path)
    | .error fault => throw fault

/--
Makes a directory, together with the directories around it that are missing.
-/
def ensureDirectories {ε : Type} (report : DiskFault → ε) (path : String) : Change ε Unit :=
  ExceptT.adapt report (ensureNested (Path.ancestors path))

end Disk
end VisualNovel
