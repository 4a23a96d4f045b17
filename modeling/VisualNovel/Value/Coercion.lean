import VisualNovel.Text.Blank
import VisualNovel.Value.Basic

/-!
This module contains what a value counts as where a condition, a number or a text is wanted, and the two
equalities of expressions.
-/

namespace VisualNovel
namespace Value

def isTruthy : Value → Bool
  | .null => false
  | .bool b => b
  | .number n => !n.toBinary64.isZero
  | .string s => !s.isEmpty
  | .array _ | .object _ => true

/--
A blank text counts as zero; a text that spells no number, an array and an object count as no number.
-/
def toNumber : Value → Binary64
  | .null => .zero
  | .bool b => .ofBool b
  | .number n => n.toBinary64
  | .string s =>
    match Text.trim s.toList with
    | [] => .zero
    | cs => (Binary64.read? cs).getD .nan
  | .array _ | .object _ => .nan

mutual

/--
The text of a value, as a script prints it.
-/
def display : Value → String
  | .null => "null"
  | .bool b => if b then "true" else "false"
  | .number n => n.display
  | .string s => s
  | .array items => String.intercalate "," (displayItems items)
  | .object _ => "[object Object]"

def displayItems : List Value → List String
  | [] => []
  | v :: vs => v.display :: displayItems vs

end

def strictEqual (a b : Value) : Bool :=
  match a, b with
  | .number m, .number n => m.toBinary64.eq n.toBinary64
  | a, b => a.same b

/--
A number is also compared with the number that a text or a truth value counts as.
-/
def looseEqual (a b : Value) : Bool :=
  match a, b with
  | .number _, .number _ | .number _, .string _ | .string _, .number _ | .bool _, .number _
  | .number _, .bool _ => a.toNumber.eq b.toNumber
  | a, b => a.same b

end Value
end VisualNovel
