import VisualNovel.Cache.Basic
import VisualNovel.Cursor.Basic
import VisualNovel.Grammar.Parser

/-!
This module contains libraries: a directory of scripts, of which those that have been parsed are kept in
memory, and the macros that scripts have defined. A library hands out cursors at the start of a script.
-/

namespace VisualNovel

inductive LibraryError where
  | io (path : String) (fault : DiskFault)
  | parse (file : String) (error : ParseError)
  | scan (directory : String) (fault : DiskFault)
  deriving Repr

def LibraryError.message : LibraryError → String
  | .io path fault => "I/O error while reading script '" ++ path ++ "': " ++ fault.message
  | .parse file error => "Failed to parse '" ++ file ++ "': " ++ error.message
  | .scan directory fault =>
    "Failed to scan '" ++ directory ++ "': IO error for operation on " ++ directory ++ ": " ++
      fault.message

structure Library where
  directory : String
  /-- The grammar of the scripts whose names do not tell it. -/
  grammar : Grammar
  maxDepth : Nat
  cache : Option Cache
  disk : Disk
  /-- The tags of the scripts that are in memory. -/
  scripts : List (String × List Tag) := []
  macros : MacroTable := {}

namespace Library

def isLoaded (lib : Library) (file : String) : Bool :=
  (lib.scripts.lookup file).isSome

/--
A cursor at the start of a script.
-/
def cursor (lib : Library) (file : String) (tags : List Tag) : Cursor :=
  { file, tags, maxDepth := lib.maxDepth }

/--
Keeps the tags of a script in memory.
-/
def keep (lib : Library) (file : String) (tags : List Tag) : Library :=
  { lib with scripts := (file, tags) :: lib.scripts }

def modifyDisk (lib : Library) (f : Disk → Disk) : Library :=
  { lib with disk := f lib.disk }

def define (lib : Library) (m : Macro) : Library :=
  { lib with macros := lib.macros.define m }

def forget (lib : Library) (name : String) : Library :=
  { lib with macros := lib.macros.erase name }

@[simp]
theorem isLoaded_keep_self (lib : Library) (file : String) (tags : List Tag)
    : (lib.keep file tags).isLoaded file := by
  simp [keep, isLoaded]

theorem isLoaded_keep_of_ne (lib : Library) {file other : String} (tags : List Tag)
    (h : other ≠ file) : (lib.keep file tags).isLoaded other = lib.isLoaded other := by
  have : (other == file) = false := by simpa using h
  simp [keep, isLoaded, List.lookup_cons, this]

end Library
end VisualNovel
