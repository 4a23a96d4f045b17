import VisualNovel.Cursor.Branch
import VisualNovel.Cursor.Definition
import VisualNovel.Cursor.Loop
import VisualNovel.Cursor.Reading

/-!
This module contains the plainest way to run a script: directives are obeyed, text and printed values are
collected, and all other tags pass by. It shows which tags a script delivers, and in which order.
-/

namespace VisualNovel

/--
What a tag comes to: nothing, a text, or the definition of a macro.
-/
inductive Play.Effect where
  | nothing
  | text (s : String)
  | definition (m : Macro)
  deriving Repr

namespace Play

/--
Obeys a tag. A condition that is missing counts as an empty expression, a missing number of rounds as zero.
-/
def perform (tag : Tag) : Play Effect :=
  match tag.directive? with
  | some .ifThen => do enterIf ((tag.string? "exp").getD ""); return .nothing
  | some .elsif => do skipRest .elsif; return .nothing
  | some .otherwise => do skipRest .otherwise; return .nothing
  | some .endIf => do endIf; return .nothing
  | some .forLoop => do
    let loops :=
      match tag.value? "loops" with
      | some (.number n) => n.toNat?.getD 0
      | _ => 0
    startLoop loops ((tag.string? "indexvar").getD "i")
    return .nothing
  | some .endFor => do endRound; return .nothing
  | some .breakFor => do breakLoop; return .nothing
  | some .define => return .definition (← define ((tag.string? "name").getD ""))
  | some .char => return .text ((tag.string? "text").getD "")
  | some .script => return .text (← evaluate tag.body tag.line).display
  | _ => return .nothing

end Play

namespace Trace

/--
A delivered tag, and where the cursor stands after it.
-/
structure Row where
  tag : Tag
  point : Nat
  ifDepth : Nat
  loopDepth : Nat
  macroDepth : Nat
  deriving Repr

/--
Why a trace ends: at a stop tag, at the end of the script, after as many tags as asked for, or at a fault.
-/
inductive Ending where
  | stopped
  | finished
  | full
  | failed (e : CursorError)
  deriving Repr

structure State where
  scene : Scene
  table : MacroTable
  deriving Repr

structure Result where
  text : String
  rows : List Row
  ending : Ending
  state : State
  deriving Repr

/--
Runs a script up to a number of tags.
-/
def run (max : Nat) (state : State) : Result :=
  match max with
  | 0 => { text := "", rows := [], ending := .full, state }
  | max + 1 =>
    let (read, cursor, _) := state.scene.cursor.next state.table .written ()
    let scene := { state.scene with cursor }
    match read with
    | .error e => { text := "", rows := [], ending := .failed e, state := { state with scene } }
    | .ok none => { text := "", rows := [], ending := .finished, state := { state with scene } }
    | .ok (some tag) =>
      match (Play.perform tag).run.run scene with
      | (.error e, scene) =>
        { text := "", rows := [], ending := .failed e, state := { state with scene } }
      | (.ok effect, scene) =>
        let c := scene.cursor
        let row := {
          tag, point := c.point, ifDepth := c.ifDepth, loopDepth := c.loopDepth
          macroDepth := c.macroDepth
        }
        let (text, table) :=
          match effect with
          | .nothing => ("", state.table)
          | .text s => (s, state.table)
          | .definition m => ("", state.table.define m)
        let state := { scene, table }
        if tag.directive? = some .stop then
          { text, rows := [row], ending := .stopped, state }
        else
          let later := run max state
          { later with text := text ++ later.text, rows := row :: later.rows }

end Trace
end VisualNovel
