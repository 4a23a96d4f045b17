/-!
This module contains the dates and times of TOML. Nothing in a configuration takes one, so all that matters is
whether it is well formed.
-/

namespace VisualNovel
namespace Moment

/--
Reads a number with the given number of digits.
-/
def readDigits? (count : Nat) (cs : List Char) : Option (Nat × List Char) :=
  let digits := cs.take count
  if digits.length = count && digits.all Char.isDigit then
    some (digits.foldl (fun n c => n * 10 + (c.toNat - '0'.toNat)) 0, cs.drop count)
  else
    none

/--
Skips a number of two digits from `low` to `high`.
-/
def skipPair? (low high : Nat) (cs : List Char) : Option (List Char) := do
  let (n, rest) ← readDigits? 2 cs
  if low ≤ n && n ≤ high then some rest else none

def skipChar? (c : Char) : List Char → Option (List Char)
  | [] => none
  | d :: cs => if d = c then some cs else none

def isLeap (year : Nat) : Bool :=
  year % 4 = 0 && (year % 100 ≠ 0 || year % 400 = 0)

def daysIn (year month : Nat) : Nat :=
  if month = 2 then (if isLeap year then 29 else 28)
  else if month = 4 || month = 6 || month = 9 || month = 11 then 30
  else 31

/--
Skips a year, a month and a day.
-/
def skipDate? (cs : List Char) : Option (List Char) := do
  let (year, rest) ← readDigits? 4 cs
  let rest ← skipChar? '-' rest
  let (month, rest) ← readDigits? 2 rest
  if month = 0 || 12 < month then
    none
  skipPair? 1 (daysIn year month) (← skipChar? '-' rest)

/--
Skips what a second may have behind it.
-/
def skipFraction? : List Char → Option (List Char)
  | '.' :: cs => if cs.head?.any Char.isDigit then some (cs.dropWhile Char.isDigit) else none
  | cs => some cs

/--
Skips hours and minutes, and seconds if there are any. The last minute of a day may have 61 seconds.
-/
def skipTime? (cs : List Char) : Option (List Char) := do
  let rest ← skipChar? ':' (← skipPair? 0 23 cs)
  let rest ← skipPair? 0 59 rest
  match rest with
  | ':' :: rest => skipFraction? (← skipPair? 0 60 rest)
  | rest => some rest

/--
Is this the distance to universal time, or nothing?
-/
def isOffset : List Char → Bool
  | [] => true
  | c :: cs =>
    if c = 'Z' || c = 'z' then
      cs.isEmpty
    else if c = '+' || c = '-' then
      ((skipPair? 0 23 cs).bind (skipChar? ':')).bind (skipPair? 0 59) == some []
    else
      false

def isDate (cs : List Char) : Bool :=
  skipDate? cs == some []

/--
Is this a date, a time, or a date with a time?
-/
def isMoment (cs : List Char) : Bool :=
  match skipDate? cs with
  | some [] => true
  | some (c :: rest) => (c == 'T' || c == 't' || c == ' ') && (skipTime? rest).any isOffset
  | none => skipTime? cs == some []

end Moment
end VisualNovel
