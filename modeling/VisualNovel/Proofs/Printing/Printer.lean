import VisualNovel.Expr.Parser

/-!
This module contains the printer of expressions. It writes parentheses only where the table of the operators asks for
them: an expression is enclosed if it binds weaker than its place requires.
-/

namespace VisualNovel

/-! ### The table of the operators -/

namespace BinaryOp

def level : BinaryOp → Nat
  | .eq | .ne | .strictEq | .strictNe => 2
  | .lt | .le | .gt | .ge => 3
  | .add | .sub => 4
  | .mul | .div | .rem => 5

def punct : BinaryOp → Punct
  | .add => .plus
  | .sub => .minus
  | .mul => .star
  | .div => .slash
  | .rem => .percent
  | .lt => .less
  | .le => .le
  | .gt => .greater
  | .ge => .ge
  | .eq => .eq
  | .ne => .ne
  | .strictEq => .strictEq
  | .strictNe => .strictNe

/--
The punctuator of an assignment with an operator, if there is one.
-/
def assign? : BinaryOp → Option Punct
  | .add => some .addAssign
  | .sub => some .subAssign
  | .mul => some .mulAssign
  | .div => some .divAssign
  | _ => none

end BinaryOp

def UnaryOp.punct : UnaryOp → Punct
  | .not => .bang
  | .neg => .minus
  | .plus => .plus

namespace Expr

/--
How strongly an expression binds: the operators of a level bind as strongly as the level counted from `2` on, behind
them come the unary operators, and then the accesses to members and all that stands for itself.
-/
def binding : Expr → Nat
  | .sequence _ => 0
  | .assign .. | .conditional .. => 1
  | .or .. => 2
  | .and .. => 3
  | .binary op .. => op.level + 2
  | .unary .. => 8
  | .literal _ | .name _ | .member .. | .array _ | .object _ => 9

def assignPunct (op : Option BinaryOp) : Punct :=
  (op.bind BinaryOp.assign?).getD .assign

/-! ### Printing -/

/--
Encloses the tokens of an expression in parentheses if it binds weaker than required.
-/
def enclose (required : Nat) (e : Expr) (kinds : List TokenKind) : List TokenKind :=
  if e.binding < required then .punct .leftParen :: (kinds ++ [.punct .rightParen]) else kinds

def literalToken : Value → TokenKind
  | .bool b => .name (if b then "true" else "false")
  | .number n => .number n.toBinary64
  | .string s => .string s
  | _ => .name "null"

/--
The access to a member. A key that is a string may be written behind a dot.
-/
def accessor (dotted : String → Bool) (key : Expr) (kinds : List TokenKind) : List TokenKind :=
  match key with
  | .literal (.string s) =>
    if dotted s then [.punct .dot, .name s] else .punct .leftBracket :: (kinds ++ [.punct .rightBracket])
  | _ => .punct .leftBracket :: (kinds ++ [.punct .rightBracket])

/--
Lists of tokens, with a punctuator between any two of them.
-/
def separate (p : Punct) : List (List TokenKind) → List TokenKind :=
  List.intercalate [.punct p]

mutual

/--
Prints an expression. Which of the keys that are strings are written behind a dot is up to `dotted`.
-/
def print (dotted : String → Bool) : Expr → List TokenKind
  | .literal value => [literalToken value]
  | .name word => [.name word]
  | .member base key => enclose 9 base (base.print dotted) ++ accessor dotted key (key.print dotted)
  | .array items =>
    .punct .leftBracket :: (separate .comma (printItems dotted items) ++ [.punct .rightBracket])
  | .object entries =>
    .punct .leftBrace :: (separate .comma (printEntries dotted entries) ++ [.punct .rightBrace])
  | .unary op operand => .punct op.punct :: enclose 8 operand (operand.print dotted)
  | .binary op left right =>
    enclose (op.level + 2) left (left.print dotted) ++
      .punct op.punct :: enclose (op.level + 3) right (right.print dotted)
  | .and left right =>
    enclose 3 left (left.print dotted) ++ .punct .and :: enclose 4 right (right.print dotted)
  | .or left right =>
    enclose 2 left (left.print dotted) ++ .punct .or :: enclose 3 right (right.print dotted)
  | .conditional condition yes no =>
    enclose 2 condition (condition.print dotted) ++ .punct .question ::
      (yes.print dotted ++ .punct .colon :: no.print dotted)
  | .assign op target value =>
    enclose 9 target (target.print dotted) ++ .punct (assignPunct op) :: value.print dotted
  | .sequence statements => separate .semicolon (printItems dotted statements)

def printItems (dotted : String → Bool) : List Expr → List (List TokenKind)
  | [] => []
  | item :: items => item.print dotted :: printItems dotted items

def printEntries (dotted : String → Bool) : List (String × Expr) → List (List TokenKind)
  | [] => []
  | (key, value) :: entries =>
    (.string key :: .punct .colon :: value.print dotted) :: printEntries dotted entries

end

/-! ### Trees that can be parsed -/

/--
The values that a single token stands for. A number among them is one that the number of a token is read as.
-/
def IsAtom : Value → Prop
  | .null | .bool _ | .string _ => True
  | .number n => ∃ x, Number.ofBinary64? x = some n
  | .array _ | .object _ => False

mutual

/--
The form of a single statement.
-/
def IsStatement : Expr → Prop
  | .literal value => IsAtom value
  | .name word => word ∉ ["true", "false", "null", "undefined"]
  | .member base key => base.IsStatement ∧ key.IsStatement
  | .array items => AreStatements items
  | .object entries => HoldStatements entries
  | .unary _ operand => operand.IsStatement
  | .binary _ left right | .and left right | .or left right => left.IsStatement ∧ right.IsStatement
  | .conditional condition yes no => condition.IsStatement ∧ yes.IsStatement ∧ no.IsStatement
  | .assign op target value =>
    (∀ o ∈ op, o.assign?.isSome) ∧ target.isTarget ∧ target.IsStatement ∧ value.IsStatement
  | .sequence _ => False

def AreStatements : List Expr → Prop
  | [] => True
  | item :: items => item.IsStatement ∧ AreStatements items

def HoldStatements : List (String × Expr) → Prop
  | [] => True
  | (_, value) :: entries => value.IsStatement ∧ HoldStatements entries

end

/--
The form of a program: a statement, or two or more of them in a sequence.
-/
def IsProgram : Expr → Prop
  | .sequence statements => 2 ≤ statements.length ∧ AreStatements statements
  | e => e.IsStatement

end Expr
end VisualNovel
