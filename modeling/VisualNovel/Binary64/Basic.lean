/-!
This module contains the double precision numbers of expressions, as exact values: a finite number is
a sign and a whole number of units of `2 ^ -1074`, the smallest positive double. Every operation is
computed exactly and then rounded once, to the nearest double, ties to the even significand.
-/

namespace VisualNovel

inductive Binary64 where
  | nan
  | infinite (negative : Bool)
  | finite (negative : Bool) (units : Nat)
  deriving DecidableEq, Repr, Inhabited

namespace Binary64

/--
The number of units in `1`.
-/
def one : Nat := Nat.pow 2 1074

/--
The first whole number of units that is too large for a finite double.
-/
def overflow : Nat := Nat.pow 2 2098

/--
The number of binary digits of `n`, `0` for `0`.
-/
def bitLength (n : Nat) : Nat :=
  if n = 0 then 0 else n.log2 + 1

/--
The fraction `num / den` rounded to a whole number, a half to the even neighbour.
-/
def roundDiv (num den : Nat) : Nat :=
  let quotient := num / den
  let twice := 2 * (num % den)
  if den < twice || (twice == den && quotient % 2 == 1) then quotient + 1 else quotient

/--
The double nearest to `num / den` units. Its significand has 53 binary digits, so the grid is the power
of two that leaves 53 digits of the quotient; below `2 ^ 53` units the grid is the unit itself.
-/
def ofUnits (negative : Bool) (num den : Nat) : Binary64 :=
  let grid := Nat.pow 2 (bitLength (num / den) - 53)
  let units := roundDiv num (den * grid) * grid
  if overflow ≤ units then .infinite negative else .finite negative units

def zero : Binary64 := .finite false 0

def ofInt (i : Int) : Binary64 :=
  ofUnits (decide (i < 0)) (i.natAbs * one) 1

def ofNat (n : Nat) : Binary64 :=
  ofUnits false (n * one) 1

def ofBool (b : Bool) : Binary64 :=
  if b then ofNat 1 else zero

def isFinite : Binary64 → Bool
  | .finite .. => true
  | _ => false

def neg : Binary64 → Binary64
  | .nan => .nan
  | .infinite s => .infinite !s
  | .finite s u => .finite (!s) u

/--
The signed number of units of a finite double.
-/
def signedUnits (negative : Bool) (units : Nat) : Int :=
  if negative then -units else units

/--
The sum of two finite doubles. An exact zero is negative only if both summands are.
-/
def addFinite (s : Bool) (u : Nat) (t : Bool) (v : Nat) : Binary64 :=
  let sum := signedUnits s u + signedUnits t v
  if sum = 0 then .finite (s && t) 0 else ofUnits (decide (sum < 0)) sum.natAbs 1

def add : Binary64 → Binary64 → Binary64
  | .nan, _ | _, .nan => .nan
  | .infinite s, .infinite t => if s = t then .infinite s else .nan
  | .infinite s, _ | _, .infinite s => .infinite s
  | .finite s u, .finite t v => addFinite s u t v

def sub (x y : Binary64) : Binary64 :=
  x.add y.neg

def mul : Binary64 → Binary64 → Binary64
  | .nan, _ | _, .nan => .nan
  | .infinite s, .infinite t => .infinite (s != t)
  | .infinite s, .finite t v | .finite t v, .infinite s =>
    if v = 0 then .nan else .infinite (s != t)
  | .finite s u, .finite t v => ofUnits (s != t) (u * v) one

def div : Binary64 → Binary64 → Binary64
  | .nan, _ | _, .nan => .nan
  | .infinite _, .infinite _ => .nan
  | .infinite s, .finite t _ => .infinite (s != t)
  | .finite s _, .infinite t => .finite (s != t) 0
  | .finite s u, .finite t v =>
    if v = 0 then
      if u = 0 then .nan else .infinite (s != t)
    else
      ofUnits (s != t) (u * one) v

/--
The remainder of the division toward zero. It is exact and takes the sign of the dividend.
-/
def rem : Binary64 → Binary64 → Binary64
  | .nan, _ | _, .nan => .nan
  | .infinite _, _ => .nan
  | .finite s u, .infinite _ => .finite s u
  | .finite s u, .finite _ v => if v = 0 then .nan else .finite s (u % v)

/--
The order of two doubles, `none` if one of them is no number. The two zeros are equal.
-/
def compare? : Binary64 → Binary64 → Option Ordering
  | .nan, _ | _, .nan => none
  | .infinite s, .infinite t => some (if s = t then .eq else if s then .lt else .gt)
  | .infinite s, .finite .. => some (if s then .lt else .gt)
  | .finite .., .infinite t => some (if t then .gt else .lt)
  | .finite s u, .finite t v => some (compare (signedUnits s u) (signedUnits t v))

/--
Equality of numbers: not a number differs from itself, and the two zeros are equal.
-/
def eq (x y : Binary64) : Bool :=
  x.compare? y == some .eq

def isZero : Binary64 → Bool
  | .finite _ u => u == 0
  | _ => false

/--
The whole number that a finite double stands for, `none` if it has a fraction.
-/
def toInt? : Binary64 → Option Int
  | .finite s u => if u % one = 0 then some (signedUnits s (u / one)) else none
  | _ => none

end Binary64
end VisualNovel
