/-!
This module contains whole numbers in decimal digits, as keys and parameters spell them.
-/

namespace VisualNovel
namespace Text

/--
The number that a list of decimal digits stands for.
-/
def ofDigits (ds : List Char) : Nat :=
  ds.foldl (fun n d => n * 10 + (d.toNat - '0'.toNat)) 0

/--
The digits at the start of a text and what follows them.
-/
def splitDigits : List Char → List Char × List Char
  | [] => ([], [])
  | c :: cs => if c.isDigit then let (ds, rest) := splitDigits cs; (c :: ds, rest) else ([], c :: cs)

/--
The number spelled by a nonempty list of digits and nothing else.
-/
def readDigits? (cs : List Char) : Option Nat :=
  if cs.isEmpty || !cs.all Char.isDigit then none else some (ofDigits cs)

/--
The number below `2 ^ 64` spelled by digits after an optional plus sign.
-/
def readNat64? (cs : List Char) : Option Nat :=
  let digits :=
    match cs with
    | '+' :: cs => cs
    | cs => cs
  (readDigits? digits).filter (· < Nat.pow 2 64)

/--
The number from `-2 ^ 63` to `2 ^ 63 - 1` spelled by digits after an optional sign.
-/
def readInt64? (cs : List Char) : Option Int :=
  let number : Option Int :=
    match cs with
    | '-' :: cs => (readDigits? cs).map fun n => -n
    | '+' :: cs => (readDigits? cs).map Int.ofNat
    | cs => (readDigits? cs).map Int.ofNat
  number.filter fun i => -(Nat.pow 2 63 : Nat) ≤ i && i < (Nat.pow 2 63 : Nat)

end Text
end VisualNovel
