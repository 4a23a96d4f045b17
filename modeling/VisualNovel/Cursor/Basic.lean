import VisualNovel.Cursor.Error
import VisualNovel.Macro
import VisualNovel.Expr.Eval

/-!
This module contains cursors: a position in the tags of a script, inside of running macros, open
conditionals and open loops. The innermost macro and the innermost loop come first.
-/

namespace VisualNovel

/--
An open loop: where its body starts, in how deep a macro, and how many of its rounds have begun before this
one.
-/
structure LoopFrame where
  start : Nat
  depth : Nat
  indexVariable : String
  loops : Nat
  count : Nat := 0
  deriving DecidableEq, Repr

structure Cursor where
  file : String
  tags : List Tag
  maxDepth : Nat
  point : Nat := 0
  macros : List Macro := []
  ifDepth : Nat := 0
  loops : List LoopFrame := []
  /-- The tag that was read last. -/
  latest : Option Tag := none
  deriving Repr, Inhabited

namespace Cursor

/--
How deep macros may be nested if nobody says otherwise.
-/
def defaultMaxDepth : Nat := 64

/--
A cursor at the start of the same script.
-/
def restart (c : Cursor) : Cursor :=
  { file := c.file, tags := c.tags, maxDepth := c.maxDepth }

def macroDepth (c : Cursor) : Nat :=
  c.macros.length

def loopDepth (c : Cursor) : Nat :=
  c.loops.length

/--
The parameters of the innermost running macro.
-/
def parameters (c : Cursor) : Option Fields :=
  c.macros.head?.map Macro.parameters

def latestLine (c : Cursor) : Nat :=
  (c.latest.map Tag.line).getD 0

/-! ### The current frame: the innermost running macro, or else the script -/

def frameTags (c : Cursor) : List Tag :=
  match c.macros with
  | m :: _ => m.tags
  | [] => c.tags

def framePoint (c : Cursor) : Nat :=
  match c.macros with
  | m :: _ => m.point
  | [] => c.point

def setFramePoint (c : Cursor) (point : Nat) : Cursor :=
  match c.macros with
  | m :: ms => { c with macros := { m with point } :: ms }
  | [] => { c with point }

/--
The tags of the current frame that have not been read.
-/
def unread (c : Cursor) : List Tag :=
  c.frameTags.drop c.framePoint

/--
Moves the current frame forward by a number of tags.
-/
def skip (c : Cursor) (count : Nat) : Cursor :=
  c.setFramePoint (c.framePoint + count)

/--
The tag that is read next, if no macro of its name has to be run first.
-/
def peek? (c : Cursor) : Option Tag :=
  (c.macros.findSome? fun m => m.tags[m.point]?).or c.tags[c.point]?

end Cursor

/--
Evaluates an expression with the parameters of the macro that it stands in. A fault is reported for the given
line.
-/
def Expr.evaluateAt (source : String) (line : Nat) (parameters : Option Fields)
    : ExceptT CursorError (StateM Variables) Value := do
  let vars ← get
  let (result, scope) := Expr.evaluate source { vars := some vars, parameters }
  set (scope.vars.getD vars)
  match result with
  | .ok value => return value
  | .error e => throw (.expression line e)

/--
What the directives of a script act on.
-/
structure Scene where
  cursor : Cursor
  vars : Variables
  deriving Repr, Inhabited

/--
The computations of directives. A directive that fails leaves what it has changed before.
-/
abbrev Play := ExceptT CursorError (StateM Scene)

namespace Play

def modifyCursor (f : Cursor → Cursor) : Play Unit :=
  modify fun s => { s with cursor := f s.cursor }

def setTemporary (name : String) (value : Value) : Play Unit :=
  modify fun s => { s with vars := s.vars.set .temporary name value }

/--
Evaluates an expression where the cursor stands.
-/
def evaluate (source : String) (line : Nat) : Play Value := do
  let s ← get
  let (result, vars) := (Expr.evaluateAt source line s.cursor.parameters).run.run s.vars
  set { s with vars }
  match result with
  | .ok value => return value
  | .error e => throw e

end Play
end VisualNovel
