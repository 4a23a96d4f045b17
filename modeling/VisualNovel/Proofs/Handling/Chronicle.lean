import VisualNovel.Proofs.Handling.Change

/-!
This module contains all that can be done with a cursor, and the history of a cursor with which this is done. In
the history every invocation of a macro has a number of its own.
-/

namespace VisualNovel

/--
What has been seen of a cursor: how many macros have been opened, which of these invocations are running, the
innermost first, and for each open loop the invocations that were running when it was opened.
-/
structure Chronicle where
  opened : Nat := 0
  running : List Nat := []
  origins : List (List Nat) := []

namespace Chronicle

/--
Takes note of one step of a cursor. Where there are more macros than before, one has been opened, and where
there are less, the innermost ones are over; so it is with the loops.
-/
def follow (x : Chronicle) (before after : Cursor) : Chronicle :=
  let opens := before.macroDepth < after.macroDepth
  let running :=
    if opens then x.opened :: x.running else x.running.drop (before.macroDepth - after.macroDepth)
  { opened := if opens then x.opened + 1 else x.opened
    running
    origins :=
      if before.loopDepth < after.loopDepth then
        running :: x.origins
      else
        x.origins.drop (before.loopDepth - after.loopDepth) }

/--
Takes note of all steps in which a tag is read.
-/
def read {σ : Type} (table : MacroTable) (resolve : Resolver σ) (x : Chronicle) (c : Cursor) (s : σ)
    : Chronicle :=
  match _h : c.step table resolve s with
  | (.ok .more, d, t) => (x.follow c d).read table resolve d t
  | (_, d, _) => x.follow c d
termination_by c.weight table.base
decreasing_by exact Cursor.weight_step_lt ‹_›

end Chronicle

/-! ### Operations -/

/--
The directives that act on a cursor.
-/
inductive Instruction where
  | enterIf (condition : String)
  | skipRest (directive : Directive)
  | endIf
  | startLoop (loops : Nat) (indexVariable : String)
  | endRound
  | breakLoop
  | define (name : String)

def Instruction.play : Instruction → Play Unit
  | .enterIf condition => Play.enterIf condition
  | .skipRest directive => Play.skipRest directive
  | .endIf => Play.endIf
  | .startLoop loops indexVariable => Play.startLoop loops indexVariable
  | .endRound => Play.endRound
  | .breakLoop => Play.breakLoop
  | .define name => do let _ ← Play.define name

theorem Instruction.changed_play (instruction : Instruction) (scene : Scene)
    : Cursor.Changed scene.cursor (instruction.play.cursorAfter scene) := by
  cases instruction with
  | enterIf condition => exact (Play.moved_enterIf condition scene).changed
  | skipRest directive => exact (Play.moved_skipRest directive scene).changed
  | endIf => exact (Play.moved_endIf scene).changed
  | startLoop loops indexVariable => exact Play.changed_startLoop loops indexVariable scene
  | endRound => exact Play.changed_endRound scene
  | breakLoop => exact Play.changed_breakLoop scene
  | define name =>
    have hmoved := Play.moved_define name scene
    unfold Play.cursorAfter at *
    unfold Instruction.play
    rw [run_bind]
    cases hdefined : (Play.define name).run.run scene with
    | mk result after =>
      rw [hdefined] at hmoved
      cases result <;> exact hmoved.changed

/--
All that can be done with a cursor from outside. Each may fail, and tags may be read with any macros and any
resolver.
-/
inductive Operation : Type 1 where
  | restart
  | goTo (point : Nat)
  | goToLabel (name : String)
  | goToSaveMark (name : String)
  | read {σ : Type} (table : MacroTable) (resolve : Resolver σ) (state : σ)
  | instruct (instruction : Instruction) (vars : Variables)

namespace Operation

/--
The cursor after an operation. A move to a place that is missing leaves it where it is.
-/
def apply (c : Cursor) : Operation → Cursor
  | .restart => c.restart
  | .goTo point => c.goTo point
  | .goToLabel name => (c.goToLabel name).toOption.getD c
  | .goToSaveMark name => (c.goToSaveMark name).toOption.getD c
  | .read table resolve state => (c.next table resolve state).2.1
  | .instruct instruction vars => instruction.play.cursorAfter { cursor := c, vars }

def record (x : Chronicle) (c : Cursor) : Operation → Chronicle
  | .read table resolve state => x.read table resolve c state
  | op => x.follow c (op.apply c)

/--
Does operations one after another, and takes note of them.
-/
def applyAll (c : Cursor) (x : Chronicle) : List Operation → Cursor × Chronicle
  | [] => (c, x)
  | op :: ops => applyAll (op.apply c) (op.record x c) ops

end Operation

end VisualNovel
