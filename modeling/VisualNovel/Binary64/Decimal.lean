import VisualNovel.Binary64.Basic
import VisualNovel.Text.Numeral

/-!
This module contains the decimal text of doubles: reading rounds the exact decimal value once, and
writing takes the fewest digits that read back as the same double.
-/

namespace VisualNovel
namespace Binary64

open Text (ofDigits splitDigits)

/--
The double nearest to `digits * 10 ^ exponent`. The first two tests only keep the powers small: beyond
them the value overflows, or rounds to zero.
-/
def ofDecimal (negative : Bool) (digits : Nat) (exponent : Int) : Binary64 :=
  if digits = 0 then
    .finite negative 0
  else if 400 ≤ exponent then
    .infinite negative
  else if exponent + bitLength digits ≤ -400 then
    .finite negative 0
  else if 0 ≤ exponent then
    ofUnits negative (digits * Nat.pow 10 exponent.toNat * one) 1
  else
    ofUnits negative (digits * one) (Nat.pow 10 (-exponent).toNat)

/--
The value of an exponent, all that follows the letter `e`: an optional sign and digits.
-/
def readExponent? (cs : List Char) : Option Int :=
  let (negative, cs) :=
    match cs with
    | '-' :: cs => (true, cs)
    | '+' :: cs => (false, cs)
    | cs => (false, cs)
  match splitDigits cs with
  | ([], _) => none
  | (ds, []) => some (if negative then -(ofDigits ds) else ofDigits ds)
  | _ => none

/--
A number without its sign: digits with at most one point among them, and perhaps an exponent.
-/
def readUnsigned? (negative : Bool) (cs : List Char) : Option Binary64 :=
  let (whole, rest) := splitDigits cs
  let (fraction, rest) :=
    match rest with
    | '.' :: rest => splitDigits rest
    | rest => ([], rest)
  if whole.isEmpty && fraction.isEmpty then
    none
  else
    let digits := ofDigits (whole ++ fraction)
    match rest with
    | [] => some (ofDecimal negative digits (-fraction.length))
    | c :: rest =>
      if c = 'e' || c = 'E' then
        (readExponent? rest).map fun e => ofDecimal negative digits (e - fraction.length)
      else
        none

/--
Reads the whole text as a double: a decimal number, or one of the words `inf`, `infinity` and `nan` in any
case, after an optional sign.
-/
def read? (cs : List Char) : Option Binary64 :=
  let (negative, cs) :=
    match cs with
    | '-' :: cs => (true, cs)
    | '+' :: cs => (false, cs)
    | cs => (false, cs)
  let word := cs.map Char.toLower
  if word = "nan".toList then
    some .nan
  else if word = "inf".toList || word = "infinity".toList then
    some (.infinite negative)
  else
    readUnsigned? negative cs

/--
Which of two equally near decimals is written.
-/
inductive Tie where
  | even
  | up
  deriving DecidableEq, Repr

/--
The numbers that read back as the double of a positive number of units, in quarters of a unit: half a step
of the grid to either side, where the step below a power of two is half as long. The ends belong to it if
the significand is even.
-/
structure Interval where
  low : Nat
  high : Nat
  closed : Bool

def interval (units : Nat) : Interval :=
  let grid := Nat.pow 2 (bitLength units - 53)
  let below := if 1 < grid && units == Nat.pow 2 (bitLength units - 1) then grid else 2 * grid
  { low := 4 * units - below, high := 4 * units + 2 * grid, closed := units / grid % 2 == 0 }

namespace Interval

def contains (i : Interval) (scale point : Nat) : Bool :=
  if i.closed then
    i.low * scale ≤ point && point ≤ i.high * scale
  else
    i.low * scale < point && point < i.high * scale

end Interval

/--
The multiple of `10 ^ exponent` that is nearest to the double among those that read back as it. If any
multiple does, one of the two neighbours of the double does.
-/
def onGrid? (tie : Tie) (units : Nat) (exponent : Int) : Option Nat :=
  let scale := Nat.pow 10 (-exponent).toNat
  let step := one * Nat.pow 10 exponent.toNat
  let lower := units * scale / step
  let twice := 2 * (units * scale % step)
  let inside (d : Nat) := (interval units).contains scale (4 * (d * step))
  let up := step < twice || (step == twice && (tie == .up || lower % 2 == 1))
  match inside lower, inside (lower + 1) with
  | true, true => some (if up then lower + 1 else lower)
  | true, false => some lower
  | false, true => some (lower + 1)
  | false, false => none

/--
The decimal of fewest digits that reads back as a positive double, as digits and the exponent of the last
of them: the first hit among ever finer grids, from one that is too coarse to hold more than one digit.
-/
def shortest (tie : Tie) (units : Nat) : Nat × Int :=
  go 20 ((bitLength units - 1074 : Int) * 30103 / 100000 + 1)
where
  go : Nat → Int → Nat × Int
    | 0, exponent => (units * Nat.pow 10 (-exponent).toNat / one, exponent)
    | steps + 1, exponent =>
      match onGrid? tie units exponent with
      | some digits => (digits, exponent)
      | none => go steps (exponent - 1)

/--
How a finite double is laid out: the exponents of the leading digit for which it is written without an
exponent, and whether a positive exponent carries a sign.
-/
structure Layout where
  tie : Tie
  minPlain : Int
  maxPlain : Int
  plus : Bool

namespace Layout

def scientific (l : Layout) (digits : List Char) (lead : Int) : String :=
  let mantissa :=
    match digits with
    | d :: e :: ds => String.ofList (d :: '.' :: e :: ds)
    | ds => String.ofList ds
  mantissa ++ "e" ++ (if l.plus && 0 ≤ lead then "+" else "") ++ toString lead

/--
Writes the digits, the last of which counts `10 ^ exponent`, with at least one digit on either side of the
point.
-/
def plain (digits : List Char) (exponent : Int) : String :=
  if 0 ≤ exponent then
    String.ofList (digits ++ List.replicate exponent.toNat '0' ++ ['.', '0'])
  else
    let places := (-exponent).toNat
    let padded := List.replicate (places + 1 - digits.length) '0' ++ digits
    let whole := padded.length - places
    String.ofList (padded.take whole ++ '.' :: padded.drop whole)

def magnitude (l : Layout) (units : Nat) : String :=
  if units = 0 then
    "0.0"
  else
    let (n, exponent) := shortest l.tie units
    let digits := Nat.toDigits 10 n
    let lead := exponent + digits.length - 1
    if l.minPlain ≤ lead && lead ≤ l.maxPlain then plain digits exponent else l.scientific digits lead

end Layout

def render (l : Layout) : Binary64 → String
  | .nan => "NaN"
  | .infinite s => if s then "-inf" else "inf"
  | .finite s u => (if s then "-" else "") ++ l.magnitude u

end Binary64
end VisualNovel
