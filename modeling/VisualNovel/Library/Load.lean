import VisualNovel.Library.Basic
import VisualNovel.Reactor.Run

/-!
This module contains the loading of scripts. A script that is in memory is not read again. Otherwise its tags
come from the cache if they can, and a cache that fails is passed over.
-/

namespace VisualNovel
namespace Library

/--
The text of a script and its grammar.
-/
def source (lib : Library) (file : String) : Except LibraryError (String × Grammar) :=
  let path := Path.join lib.directory file
  match lib.disk.readText path with
  | .ok text => .ok (text, Grammar.ofPath path lib.grammar)
  | .error fault => .error (.io path fault)

/--
The tags of a script without regard to the cache.
-/
def parse (lib : Library) (file : String) : Except LibraryError (List Tag) := do
  let (text, grammar) ← lib.source file
  (grammar.parse text).mapError (.parse file)

/--
The tags that the cache keeps for a text.
-/
def cached? (lib : Library) (text : String) (grammar : Grammar) : Option (List Tag) := do
  let cache ← lib.cache
  (cache.read? (Cache.key text grammar) lib.disk).toOption.join

/--
The disk after the tags of a text have been put into the cache.
-/
def diskWith (lib : Library) (text : String) (grammar : Grammar) (tags : List Tag) : Disk :=
  match lib.cache with
  | some cache => ((cache.write (Cache.key text grammar) tags).run.run lib.disk).2
  | none => lib.disk

/--
The tags of a script, and the disk after they have been read.
-/
def read (lib : Library) (file : String) : Except LibraryError (List Tag) × Disk :=
  match lib.source file with
  | .error e => (.error e, lib.disk)
  | .ok (text, grammar) =>
    match lib.cached? text grammar with
    | some tags => (.ok tags, lib.disk)
    | none =>
      match grammar.parse text with
      | .error e => (.error (.parse file e), lib.disk)
      | .ok tags => (.ok tags, lib.diskWith text grammar tags)

/--
A cursor at the start of a script, which is in memory from then on.
-/
def load (lib : Library) (file : String) : Except LibraryError Cursor × Library :=
  match lib.scripts.lookup file with
  | some tags => (.ok (lib.cursor file tags), lib)
  | none =>
    let (result, disk) := lib.read file
    let lib := { lib with disk }
    match result with
    | .ok tags => (.ok (lib.cursor file tags), lib.keep file tags)
    | .error e => (.error e, lib)

/--
Loads a script, and promises its cursor for the next tick.
-/
def loadLater (lib : Library) (file : String) (reactor : Reactor Cursor)
    : Nat × Library × Reactor Cursor :=
  let (promise, reactor) := reactor.create
  let (result, lib) := lib.load file
  let outcome : Outcome Cursor :=
    match result with
    | .ok cursor => .done (some cursor)
    | .error e => .failed (.failed e.message)
  (promise, lib, reactor.enqueue (.settle promise outcome))

end Library
end VisualNovel
