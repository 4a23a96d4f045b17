import VisualNovel.Cache.Block
import VisualNovel.Json.Printer
import VisualNovel.Json.Reader
import VisualNovel.Tag

/-!
This module contains the bytes that the tags of a script are kept in: a version, and for each tag its name,
its values as JSON text and its line.
-/

namespace VisualNovel

/--
Why the bytes of an entry hold no tags.
-/
inductive RecordFault where
  | block
  | layout
  | values
  | version (found : Nat)
  deriving DecidableEq, Repr

namespace Record

def version : Nat := 1

/-! ### Numbers -/

/--
The least significant bytes of a number, the least one first.
-/
def lowBytes : Nat → Nat → List UInt8
  | 0, _ => []
  | count + 1, n => n.toUInt8 :: lowBytes count (n / 256)

def ofLowBytes : List UInt8 → Nat
  | [] => 0
  | b :: bytes => b.toNat + 256 * ofLowBytes bytes

/--
A number below 251 takes one byte, a larger one the fewest of 2, 4 or 8 bytes, behind a byte that tells
which.
-/
def numberBytes (n : Nat) : List UInt8 :=
  if n < 251 then [n.toUInt8]
  else if n < Nat.pow 2 16 then 251 :: lowBytes 2 n
  else if n < Nat.pow 2 32 then 252 :: lowBytes 4 n
  else 253 :: lowBytes 8 n

def splitBytes? (count : Nat) (bytes : List UInt8) : Option (List UInt8 × List UInt8) :=
  if count ≤ bytes.length then some (bytes.splitAt count) else none

/--
Reads a number that takes up to the given number of bytes.
-/
def readNumber? (width : Nat) : List UInt8 → Option (Nat × List UInt8)
  | [] => none
  | b :: bytes => do
    let count :=
      if b < 251 then 0 else if b = 251 then 2 else if b = 252 then 4 else if b = 253 then 8 else 16
    if count = 0 then
      return (b.toNat, bytes)
    guard (count ≤ width)
    let (low, rest) ← splitBytes? count bytes
    return (ofLowBytes low, rest)

/-! ### Texts -/

def textBytes (s : String) : List UInt8 :=
  numberBytes s.utf8ByteSize ++ s.toUTF8.toList

def readText? (bytes : List UInt8) : Option (String × List UInt8) := do
  let (count, rest) ← readNumber? 8 bytes
  let (text, rest) ← splitBytes? count rest
  return (← String.fromUTF8? ⟨text.toArray⟩, rest)

/-! ### Tags -/

/--
A tag whose values are kept as text.
-/
structure Stored where
  name : String
  values : String
  line : Nat

def Stored.ofTag (tag : Tag) : Stored :=
  { name := tag.name, values := Json.compact (.object tag.values), line := tag.line }

def Stored.tag? (stored : Stored) : Option Tag :=
  match Json.readWhole? stored.values with
  | some (.object fields) => some (.make stored.name fields stored.line)
  | _ => none

def Stored.bytes (stored : Stored) : List UInt8 :=
  textBytes stored.name ++ (textBytes stored.values ++ numberBytes stored.line)

def readStored? (bytes : List UInt8) : Option (Stored × List UInt8) := do
  let (name, rest) ← readText? bytes
  let (values, rest) ← readText? rest
  let (line, rest) ← readNumber? 8 rest
  return ({ name, values, line }, rest)

/--
Reads a number of tags. What follows them does not matter.
-/
def readMany? : Nat → List UInt8 → Option (List Stored)
  | 0, _ => some []
  | count + 1, bytes => do
    let (first, rest) ← readStored? bytes
    return first :: (← readMany? count rest)

/--
The bytes of an entry before they are packed.
-/
def bytes (tags : List Tag) : List UInt8 :=
  numberBytes version ++ (numberBytes tags.length ++ tags.flatMap fun tag => (Stored.ofTag tag).bytes)

/--
The bytes of an entry.
-/
def encode (packing : Packing) (tags : List Tag) : List UInt8 :=
  packing.pack (bytes tags)

/--
The tags of an entry.
-/
def decode (bytes : List UInt8) : Except RecordFault (List Tag) := do
  let some bytes := Block.unpack? bytes | throw .block
  let some (found, rest) := readNumber? 4 bytes | throw .layout
  let some (count, rest) := readNumber? 8 rest | throw .layout
  let some stored := readMany? count rest | throw .layout
  if found ≠ version then
    throw (.version found)
  let some tags := stored.mapM Stored.tag? | throw .values
  return tags

end Record
end VisualNovel
