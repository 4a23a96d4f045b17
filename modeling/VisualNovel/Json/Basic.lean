import VisualNovel.Text.Numeral
import VisualNovel.Value.Basic

/-!
This module contains JSON documents as they are written: members keep their order and may repeat a name,
numbers keep their digits, and texts keep their escapes. What a document means is decided where it is
used, so a part that nobody uses may hold a number or a text that means nothing.
-/

namespace VisualNovel

/--
A piece of a JSON text: a character, or an escaped 16-bit unit.
-/
inductive Json.Piece where
  | char (c : Char)
  | unit (n : Nat)
  deriving DecidableEq, Repr

/--
A JSON number: the digits before and after the point, and the exponent. Without point and exponent it is
whole.
-/
structure Json.Numeral where
  negative : Bool
  digits : List Char
  fraction : List Char
  exponent : Option (Bool × List Char)
  deriving DecidableEq, Repr

inductive Json where
  | null
  | bool (b : Bool)
  | number (n : Json.Numeral)
  | string (pieces : List Json.Piece)
  | array (items : List Json)
  | object (members : List (List Json.Piece × Json))
  deriving Repr

namespace Json

/--
The text of a list of pieces. An escaped unit from the surrogate range counts only as one half of a pair.
-/
def Piece.decode? : List Piece → Option (List Char)
  | [] => some []
  | .char c :: rest => (decode? rest).map (c :: ·)
  | .unit high :: .unit low :: rest =>
    if high < 0xd800 || 0xe000 ≤ high then
      (decode? (.unit low :: rest)).map (Char.ofNat high :: ·)
    else if high < 0xdc00 && 0xdc00 ≤ low && low < 0xe000 then
      (decode? rest).map (Char.ofNat (0x10000 + (high - 0xd800) * 0x400 + (low - 0xdc00)) :: ·)
    else
      none
  | .unit n :: rest =>
    if n < 0xd800 || 0xe000 ≤ n then (decode? rest).map (Char.ofNat n :: ·) else none

def text? (pieces : List Piece) : Option String :=
  (Piece.decode? pieces).map String.ofList

namespace Numeral

/--
The leading digits that fit in 64 bits, appended to a number, and the digits that are left.
-/
def absorb (n : Nat) : List Char → Nat × List Char
  | [] => (n, [])
  | d :: ds =>
    let next := n * 10 + (d.toNat - '0'.toNat)
    if next < Nat.pow 2 64 then absorb next ds else (n, d :: ds)

/--
`significand * 10 ^ exponent`, multiplied or divided by powers of ten up to `10 ^ 308`. A result beyond the
largest double is refused.
-/
def scale? (significand : Nat) (exponent : Int) : Option Binary64 :=
  let f := Binary64.ofNat significand
  if f.isZero then
    some f
  else if 308 < exponent || exponent < -1300 then
    if exponent < 0 then some .zero else none
  else
    go 5 f exponent
where
  go : Nat → Binary64 → Int → Option Binary64
    | 0, f, _ => some f
    | steps + 1, f, exponent =>
      if 0 ≤ exponent then
        let product := f.mul (.ofDecimal false 1 exponent)
        if product.isFinite then some product else none
      else if -308 ≤ exponent then
        some (f.div (.ofDecimal false 1 (-exponent)))
      else
        go steps (f.div (.ofDecimal false 1 308)) (exponent + 308)

/--
The double that a number with more than whole digits, or with too many of them, stands for. Its
significand is what fits in 64 bits.
-/
def toBinary64? (n : Numeral) : Option Binary64 :=
  let (significand, overflow) := absorb 0 n.digits
  let (significand, ignored) := absorb significand n.fraction
  let places := n.fraction.length - ignored.length
  let exponent :=
    match n.exponent with
    | none => 0
    | some (negative, ds) => if negative then -(Text.ofDigits ds : Int) else Text.ofDigits ds
  scale? significand (overflow.length - places + exponent)

/--
A whole number that fits in 64 bits, signed or unsigned, is taken exactly, but a negative zero is a double.
-/
def toNumber? (n : Numeral) : Option Number :=
  let magnitude := Text.ofDigits n.digits
  let whole :=
    n.fraction.isEmpty && n.exponent.isNone &&
      (if n.negative then 0 < magnitude && magnitude ≤ Nat.pow 2 63 else magnitude < Nat.pow 2 64)
  if whole then
    some (.int (if n.negative then -magnitude else magnitude))
  else
    match toBinary64? n with
    | some (.finite _ units) => some (.float n.negative units)
    | _ => none

end Numeral

mutual

/--
The value of a document in which brackets are nested less than `depth` deep. Of several members of one name
the last one counts.
-/
def toValue? (depth : Nat) : Json → Option Value
  | .null => some .null
  | .bool b => some (.bool b)
  | .number n => n.toNumber?.map .number
  | .string pieces => (text? pieces).map .string
  | .array items => if depth ≤ 1 then none else (toValues? (depth - 1) items).map .array
  | .object members =>
    if depth ≤ 1 then none else (toFields? (depth - 1) [] members).map .object

def toValues? (depth : Nat) : List Json → Option (List Value)
  | [] => some []
  | item :: items => do
    let value ← item.toValue? depth
    let values ← toValues? depth items
    return value :: values

def toFields? (depth : Nat) (fields : Fields) : List (List Piece × Json) → Option Fields
  | [] => some fields
  | (name, member) :: members => do
    let key ← text? name
    let value ← member.toValue? depth
    toFields? depth (fields.insert key value) members

end

/--
Brackets may be nested up to 127 deep.
-/
def maxDepth : Nat := 128

end Json
end VisualNovel
