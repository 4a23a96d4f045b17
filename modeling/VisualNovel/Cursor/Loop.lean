import VisualNovel.Cursor.Basic

/-!
This module contains the loops. A loop remembers where its body starts; its end is found by scanning the tags
of the current frame, where loops and conditionals in between are counted.
-/

namespace VisualNovel
namespace Play

/--
The tags up to the end of the loop that the tags stand in.
-/
structure LoopScan where
  /-- The number of tags, the end of the loop included. -/
  count : Nat
  /-- The number of conditionals around the tags that end before the loop does. -/
  closed : Nat
  deriving DecidableEq, Repr

def scanLoop (loops ifs closed count : Nat) : List Tag → Option LoopScan
  | [] => none
  | tag :: tags =>
    match tag.directive? with
    | some .forLoop => scanLoop (loops + 1) ifs closed (count + 1) tags
    | some .endFor =>
      match loops with
      | 0 => some { count := count + 1, closed }
      | loops + 1 => scanLoop loops ifs closed (count + 1) tags
    | some .ifThen => scanLoop loops (ifs + 1) closed (count + 1) tags
    | some .endIf =>
      match ifs with
      | 0 => scanLoop loops 0 (closed + 1) (count + 1) tags
      | ifs + 1 => scanLoop loops ifs closed (count + 1) tags
    | _ => scanLoop loops ifs closed (count + 1) tags

@[simp]
theorem scanLoop_nil (loops ifs closed count : Nat) : scanLoop loops ifs closed count [] = none := by
  rw [scanLoop]

/--
Moves behind the end of the loop, and closes the conditionals that are left on the way.
-/
def skipBody : Play Unit := do
  let c := (← get).cursor
  match scanLoop 0 0 0 0 c.unread with
  | none => throw (.loop c.latestLine .unclosed)
  | some scan =>
    if c.ifDepth < scan.closed then
      throw (.branch c.latestLine .loopClosesTooMany)
    modifyCursor fun c => { c.skip scan.count with ifDepth := c.ifDepth - scan.closed }

/--
Starts a loop of a number of rounds. The index of the round is a temporary variable.
-/
def startLoop (loops : Nat) (indexVariable : String) : Play Unit := do
  if loops = 0 then
    skipBody
  else
    modifyCursor fun c =>
      let frame := { start := c.framePoint, depth := c.macroDepth, indexVariable, loops }
      { c with loops := frame :: c.loops }
    setTemporary indexVariable (.ofNat 0)

/--
Ends a round: back to the start of the body, or on behind the loop after the last round.
-/
def endRound : Play Unit := do
  let c := (← get).cursor
  match c.loops with
  | [] => throw (.loop c.latestLine .endWithoutStart)
  | frame :: frames =>
    if frame.depth != c.macroDepth then
      throw (.loop c.latestLine .endWithoutStart)
    let next := { frame with count := frame.count + 1 }
    if next.count < next.loops then
      setTemporary next.indexVariable (.ofNat next.count)
      modifyCursor fun c => { c with loops := next :: frames }.setFramePoint next.start
    else
      modifyCursor fun c => { c with loops := frames }

/--
Leaves the innermost loop. It must have been opened in the current frame.
-/
def breakLoop : Play Unit := do
  let c := (← get).cursor
  match c.loops with
  | [] => throw (.loop c.latestLine .breakOutside)
  | frame :: frames =>
    if frame.depth != c.macroDepth then
      throw (.loop c.latestLine .breakOutOfMacro)
    skipBody
    modifyCursor fun c => { c with loops := frames }

end Play
end VisualNovel
