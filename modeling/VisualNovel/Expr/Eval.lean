import VisualNovel.Expr.Parser
import VisualNovel.Variables

/-!
This module contains the evaluation of expressions. Assignments change the variables one after another, so
an expression that fails leaves the changes made before the fault.
-/

namespace VisualNovel
namespace Expr

/--
What an expression can see: the variables, if there are any, and the parameters of the macro that it stands
in.
-/
structure Scope where
  vars : Option Variables := none
  parameters : Option Fields := none
  deriving Repr, Inhabited

abbrev Eval := ExceptT Fault (StateM Scope)

/--
What the first name of a path stands for.
-/
inductive Root where
  | space (space : Space)
  | parameters
  deriving DecidableEq, Repr

def root? (name : String) : Option Root :=
  if name = "tv" then some (.space .temporary)
  else if name = "gv" then some (.space .game)
  else if name = "sv" then some (.space .system)
  else if name = "mp" then some .parameters
  else none

namespace Scope

def fields (scope : Scope) : Root → Except Fault Fields
  | .space space =>
    match scope.vars with
    | some vars => .ok (vars.fields space)
    | none => .error .noVariables
  | .parameters =>
    match scope.parameters with
    | some params => .ok params
    | none => .error .noParameters

/--
The value that a path leads to, null where it leads nowhere.
-/
def read (scope : Scope) (root : Root) (keys : List String) : Except Fault Value := do
  let fields ← scope.fields root
  return keys.foldl (fun value key => value.property key) (.object fields)

/--
The scope with the value set that a path leads to. A path names a variable or something inside of one.
-/
def write (scope : Scope) (root : Root) (keys : List String) (value : Value) : Except Fault Scope :=
  match root, keys.getLast? with
  | .space space, some last =>
    match scope.vars with
    | none => .error .noVariables
    | some vars =>
      match Value.setPath last value keys.dropLast (.object (vars.fields space)) with
      | .ok (.object fields) => .ok { scope with vars := some (vars.setFields fields space) }
      | .ok _ => .ok scope
      | .error fault => .error (.badWrite fault)
  | _, _ => .error .invalidTarget

end Scope

def read (root : Root) (keys : List String) : Eval Value := do
  match (← get).read root keys with
  | .ok value => return value
  | .error fault => throw fault

def write (root : Root) (keys : List String) (value : Value) : Eval Unit := do
  match (← get).write root keys value with
  | .ok scope => set scope
  | .error fault => throw fault

/--
The number for the result of an operation, which has to be finite.
-/
def result (x : Binary64) : Except Fault Value :=
  (number x).map .number

/--
The order of two operands: texts are compared as texts, everything else as numbers.
-/
def order? : Value → Value → Option Ordering
  | .string a, .string b => some (compare a b)
  | a, b => a.toNumber.compare? b.toNumber

end Expr

def UnaryOp.apply (op : UnaryOp) (value : Value) : Except Expr.Fault Value :=
  match op with
  | .not => .ok (.bool !value.isTruthy)
  | .neg => Expr.result value.toNumber.neg
  | .plus => Expr.result value.toNumber

/--
The sum of two operands is their joined text as soon as one of them is a text.
-/
def BinaryOp.apply (op : BinaryOp) (left right : Value) : Except Expr.Fault Value :=
  match op with
  | .add =>
    match left.string?, right.string? with
    | none, none => Expr.result (left.toNumber.add right.toNumber)
    | _, _ => .ok (.string (left.display ++ right.display))
  | .sub => Expr.result (left.toNumber.sub right.toNumber)
  | .mul => Expr.result (left.toNumber.mul right.toNumber)
  | .div => Expr.result (left.toNumber.div right.toNumber)
  | .rem => Expr.result (left.toNumber.rem right.toNumber)
  | .lt => .ok (.bool ((Expr.order? left right).any Ordering.isLT))
  | .le => .ok (.bool ((Expr.order? left right).any Ordering.isLE))
  | .gt => .ok (.bool ((Expr.order? left right).any Ordering.isGT))
  | .ge => .ok (.bool ((Expr.order? left right).any Ordering.isGE))
  | .eq => .ok (.bool (left.looseEqual right))
  | .ne => .ok (.bool !left.looseEqual right)
  | .strictEq => .ok (.bool (left.strictEqual right))
  | .strictNe => .ok (.bool !left.strictEqual right)

namespace Expr

mutual

def eval : Expr → Eval Value
  | .literal value => return value
  | .name word =>
    match root? word with
    | some root => read root []
    | none => throw (.undefined word)
  | .member base key => do
    match ← resolve base with
    | some (root, keys) =>
      let key ← eval key
      read root (keys ++ [key.display])
    | none =>
      let container ← eval base
      let key ← eval key
      return container.property key.display
  | .array items => return .array (← evalItems items)
  | .object entries => return .object (← evalEntries [] entries)
  | .unary op operand => do
    let value ← eval operand
    op.apply value
  | .binary op left right => do
    let left ← eval left
    let right ← eval right
    op.apply left right
  | .and left right => do
    let value ← eval left
    if value.isTruthy then eval right else return value
  | .or left right => do
    let value ← eval left
    if value.isTruthy then return value else eval right
  | .conditional condition yes no => do
    let value ← eval condition
    if value.isTruthy then eval yes else eval no
  | .assign op target value => do
    match ← resolve target with
    | none => throw .invalidTarget
    | some (root, keys) =>
      let value ← eval value
      match op with
      | none =>
        write root keys value
        return value
      | some op =>
        let current ← read root keys
        let value ← op.apply current value
        write root keys value
        return value
  | .sequence statements => evalSequence .null statements

/--
The root and the keys of a path, none if the expression does not start at a root. The keys are evaluated
from left to right.
-/
def resolve : Expr → Eval (Option (Root × List String))
  | .name word => return (root? word).map (·, [])
  | .member base key => do
    match ← resolve base with
    | some (root, keys) =>
      let key ← eval key
      return some (root, keys ++ [key.display])
    | none => return none
  | _ => return none

def evalItems : List Expr → Eval (List Value)
  | [] => return []
  | item :: items => do
    let value ← eval item
    let values ← evalItems items
    return value :: values

def evalEntries (fields : Fields) : List (String × Expr) → Eval Fields
  | [] => return fields
  | (key, entry) :: entries => do
    let value ← eval entry
    evalEntries (Fields.insert key value fields) entries

def evalSequence (last : Value) : List Expr → Eval Value
  | [] => return last
  | statement :: statements => do
    let value ← eval statement
    evalSequence value statements

end

/--
Evaluates the text of an expression.
-/
def evaluate (source : String) (scope : Scope) : Except Error Value × Scope :=
  match parse source with
  | .error fault => (.error { fault, source }, scope)
  | .ok expr =>
    match (eval expr).run.run scope with
    | (.ok value, scope) => (.ok value, scope)
    | (.error fault, scope) => (.error { fault, source }, scope)

/--
Evaluates a text in which no variables are visible.
-/
def evaluateClosed (source : String) : Except Error Value :=
  (evaluate source {}).1

end Expr
end VisualNovel
