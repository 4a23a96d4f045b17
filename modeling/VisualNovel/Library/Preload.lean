import VisualNovel.Library.Load

/-!
This module contains the loading of several scripts at once.
-/

namespace VisualNovel
namespace Library

/--
The file name extensions of scripts.
-/
def extensions : List String := ["pon", Grammar.bracketExtension]

def isScript (path : String) : Bool :=
  match Path.extension? path with
  | some extension => extensions.contains extension.toLower
  | none => false

/--
The scripts in the directory and in the directories in it, in ascending order.
-/
def scriptFiles (lib : Library) : Except LibraryError (List String) := do
  let places ← (lib.disk.filesBelow lib.directory).mapError (.scan lib.directory)
  let files := places.filterMap fun place =>
    let path := if place.isEmpty then lib.directory else String.intercalate "/" place
    if isScript path then some (String.intercalate "/" place) else none
  return files.mergeSort (· ≤ ·)

/--
Loads scripts one after another. Returns the errors of those that do not load.
-/
def loadEach (lib : Library) : List String → List LibraryError × Library
  | [] => ([], lib)
  | file :: files =>
    let (result, lib) := lib.load file
    let (errors, lib) := loadEach lib files
    match result with
    | .ok _ => (errors, lib)
    | .error e => (e :: errors, lib)

/--
Loads all scripts of the directory. Returns the errors of those that do not load.
-/
def preload (lib : Library) : Except LibraryError (List LibraryError × Library) := do
  return lib.loadEach (← lib.scriptFiles)

/--
Loads scripts. Each of them gets a part of a task, with a promise of its own that the outcome of the load is passed on to
when the part is started. It carries no cursor.
-/
def loadEachLater (lib : Library) (reactor : Reactor Cursor)
    : List String → List (Part Cursor) × Library × Reactor Cursor
  | [] => ([], lib, reactor)
  | file :: files =>
    let (loading, lib, reactor) := lib.loadLater file reactor
    let (joined, reactor) := reactor.create
    let (parts, lib, reactor) := loadEachLater lib reactor files
    (.bridge loading joined :: parts, lib, reactor)

/--
Loads scripts, and makes one promise for all of them. Without any scripts it is kept by the next tick.
-/
def preloadLater (lib : Library) (files : List String) (reactor : Reactor Cursor)
    : Nat × Library × Reactor Cursor :=
  let (promise, reactor) := reactor.create
  let (parts, lib, reactor) := lib.loadEachLater reactor files
  (promise, lib, reactor.join promise parts)

end Library
end VisualNovel
