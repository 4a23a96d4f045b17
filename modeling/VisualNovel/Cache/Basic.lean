import VisualNovel.Cache.Digest
import VisualNovel.Cache.Record
import VisualNovel.Disk.Access
import VisualNovel.Grammar.Basic

/-!
This module contains the cache of parsed scripts: a directory with one file for each text that has been
parsed. The name of the file depends on the text and its grammar, so an edited script has an entry of its
own.
-/

namespace VisualNovel

inductive CacheError where
  | io (path : String) (fault : DiskFault)
  | unreadable (path : String) (fault : RecordFault)
  deriving DecidableEq, Repr

def RecordFault.message (path : String) : RecordFault → String
  | .block => "Failed to decompress cache file '" ++ path ++ "': the block is malformed"
  | .layout => "Failed to decode cache data: the layout is malformed"
  | .values => "Corrupt tag values in cache: not an object"
  | .version found =>
    "Cache file has format version " ++ toString found ++ ", expected " ++ toString Record.version

def CacheError.message : CacheError → String
  | .io path fault => "I/O error while accessing cache file '" ++ path ++ "': " ++ fault.message
  | .unreadable path fault => fault.message path

structure Cache where
  directory : String
  /-- How entries are packed. They are read however they have been packed. -/
  packing : Packing := .literal

namespace Cache

def extension : String := ".tags.bin"

/--
The key of a text in a grammar.
-/
def key (source : String) (grammar : Grammar) : String :=
  Digest.hex (grammar.name.toUTF8.toList ++ 0 :: source.toUTF8.toList)

def path (cache : Cache) (key : String) : String :=
  Path.join cache.directory (key ++ extension)

/--
The tags that are kept under a key.
-/
def read? (cache : Cache) (key : String) (disk : Disk) : Except CacheError (Option (List Tag)) :=
  let path := cache.path key
  match disk.readBytes path with
  | .error .notFound => .ok none
  | .error fault => .error (.io path fault)
  | .ok bytes => (Record.decode bytes.toList).mapError (.unreadable path) |>.map some

/--
Keeps tags under a key. The directory is made if there is none.
-/
def write (cache : Cache) (key : String) (tags : List Tag) : Disk.Change CacheError Unit := do
  Disk.ensureDirectories (.io cache.directory) cache.directory
  let path := cache.path key
  Disk.change (.io path) (·.writeBytes path ⟨(Record.encode cache.packing tags).toArray⟩)

/--
Removes all entries. Returns their number.
-/
def clear (cache : Cache) : Disk.Change CacheError Nat := do
  match (← get).list cache.directory with
  | .error .notFound => return 0
  | .error fault => throw (.io cache.directory fault)
  | .ok names =>
    let entries := names.filter fun name => name.endsWith extension
    for name in entries do
      let path := Path.join cache.directory name
      Disk.change (.io path) (·.removeFile path)
    return entries.length

end Cache
end VisualNovel
