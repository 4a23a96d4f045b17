import VisualNovel.Setting
import VisualNovel.Toml.Text

/-!
This module contains the numbers of TOML. Whether a number is well formed is decided here, but a number whose
digits stand for nothing is only refused by what takes it.
-/

namespace VisualNovel
namespace Toml

/--
Does every underscore stand between two digits? `before` is the character before the text.
-/
def underscoresFit (isDigit : Char → Bool) (before : Option Char) : List Char → Bool
  | [] => true
  | '_' :: cs =>
    before.any isDigit && cs.head?.any isDigit && underscoresFit isDigit (some '_') cs
  | c :: cs => underscoresFit isDigit (some c) cs

def isHexDigit (c : Char) : Bool :=
  (digitValue? c).isSome

/-! ### Whole numbers -/

/--
The number that digits in a base stand for.
-/
def ofDigits? (base : Nat) (cs : List Char) : Option Nat :=
  if cs.isEmpty then
    none
  else
    cs.foldlM (fun n c => ((digitValue? c).filter (· < base)).map (n * base + ·)) 0

/--
A number with or without a sign.
-/
def ofSigned? (base : Nat) : List Char → Option Int
  | '+' :: cs => (ofDigits? base cs).map Int.ofNat
  | '-' :: cs => (ofDigits? base cs).map fun n => -n
  | cs => (ofDigits? base cs).map Int.ofNat

/--
A whole number, in which underscores mean nothing.
-/
def readWhole? (base : Nat) (cs : List Char) : Option Setting :=
  if underscoresFit isHexDigit none cs then
    some (((ofSigned? base (cs.filter (· != '_'))).map .whole).getD .other)
  else
    none

/--
A whole number behind the letter of its base, where it has neither a sign nor other digits than those of the
base. It may have no digits at all.
-/
def readBased? (base : Nat) (cs : List Char) : Option Setting :=
  if cs.all fun c => c == '_' || (digitValue? c).any (· < base) then readWhole? base cs else none

/-! ### Fractions -/

def isDigitOrUnderscore (c : Char) : Bool :=
  c.isDigit || c == '_'

def skipDigits? (cs : List Char) : Option (List Char) :=
  if (cs.takeWhile isDigitOrUnderscore).any Char.isDigit then
    some (cs.dropWhile isDigitOrUnderscore)
  else
    none

/--
A zero may not stand before another digit.
-/
def leadsWithZero (cs : List Char) : Bool :=
  cs.head? == some '0' && 1 < ((cs.takeWhile isDigitOrUnderscore).filter Char.isDigit).length

/--
Is this a number without a sign, perhaps with digits behind a point and with an exponent?
-/
def isFraction (cs : List Char) : Bool :=
  let skipped := do
    let rest ← skipDigits? cs
    let rest ←
      match rest with
      | '.' :: rest => skipDigits? rest
      | rest => some rest
    match rest with
    | c :: rest =>
      if c = 'e' || c = 'E' then
        match rest with
        | '+' :: rest | '-' :: rest => skipDigits? rest
        | rest => skipDigits? rest
      else
        none
    | [] => some []
  !leadsWithZero cs && underscoresFit Char.isDigit none cs && skipped == some []

/-! ### Numbers in general -/

/--
A decimal number. `cs` is the number without its sign.
-/
def readDecimal? (word cs : List Char) : Option Setting :=
  let rest := cs.dropWhile Char.isDigit
  if cs = ['i', 'n', 'f'] || cs = ['n', 'a', 'n'] then
    some .other
  else if !cs.head?.any Char.isDigit then
    none
  else if rest.any fun c => c == '.' || c == 'e' || c == 'E' then
    if isFraction cs then some .other else none
  else if (rest.isEmpty || rest.head? = some '_') && !leadsWithZero cs then
    readWhole? 10 word
  else
    none

/--
The number that a word stands for. The base of a number without a sign may be told by a letter behind a
zero.
-/
def readNumber? : List Char → Option Setting
  | '0' :: 'x' :: cs => readBased? 16 cs
  | '0' :: 'o' :: cs => readBased? 8 cs
  | '0' :: 'b' :: cs => readBased? 2 cs
  | '+' :: cs => readDecimal? ('+' :: cs) cs
  | '-' :: cs => readDecimal? ('-' :: cs) cs
  | cs => readDecimal? cs cs

end Toml
end VisualNovel
