import VisualNovel.Expr.Token
import VisualNovel.Value.Basic

/-!
This module contains the syntax trees of expressions, and the table of the binary operators.
-/

namespace VisualNovel

inductive BinaryOp where
  | add | sub | mul | div | rem | lt | le | gt | ge | eq | ne | strictEq | strictNe
  deriving DecidableEq, Repr

inductive UnaryOp where
  | not | neg | plus
  deriving DecidableEq, Repr

/--
An assignment with an operator first combines the old value with the new one.
-/
inductive Expr where
  | literal (value : Value)
  | name (name : String)
  | member (object key : Expr)
  | array (items : List Expr)
  | object (entries : List (String × Expr))
  | unary (op : UnaryOp) (operand : Expr)
  | binary (op : BinaryOp) (left right : Expr)
  | and (left right : Expr)
  | or (left right : Expr)
  | conditional (condition yes no : Expr)
  | assign (op : Option BinaryOp) (target value : Expr)
  | sequence (statements : List Expr)
  deriving Repr, Inhabited

namespace Expr

/--
The number of levels of binary operators. Level `0` binds weakest, and the operators of a level associate
to the left.
-/
def levels : Nat := 6

/--
The operator that a punctuator is on a level.
-/
def operator? : Nat → Punct → Option (Expr → Expr → Expr)
  | 0, .or => some .or
  | 1, .and => some .and
  | 2, .eq => some (.binary .eq)
  | 2, .ne => some (.binary .ne)
  | 2, .strictEq => some (.binary .strictEq)
  | 2, .strictNe => some (.binary .strictNe)
  | 3, .less => some (.binary .lt)
  | 3, .le => some (.binary .le)
  | 3, .greater => some (.binary .gt)
  | 3, .ge => some (.binary .ge)
  | 4, .plus => some (.binary .add)
  | 4, .minus => some (.binary .sub)
  | 5, .star => some (.binary .mul)
  | 5, .slash => some (.binary .div)
  | 5, .percent => some (.binary .rem)
  | _, _ => none

def unary? : Punct → Option UnaryOp
  | .bang => some .not
  | .minus => some .neg
  | .plus => some .plus
  | _ => none

/--
The assignment that a punctuator is: plain, or with an operator.
-/
def assignment? : Punct → Option (Option BinaryOp)
  | .assign => some none
  | .addAssign => some (some .add)
  | .subAssign => some (some .sub)
  | .mulAssign => some (some .mul)
  | .divAssign => some (some .div)
  | _ => none

/--
Has the expression the form of an assignment's left side?
-/
def isTarget : Expr → Bool
  | .member .. | .name _ => true
  | _ => false

end Expr
end VisualNovel
