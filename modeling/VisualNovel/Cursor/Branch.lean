import VisualNovel.Cursor.Basic

/-!
This module contains the conditionals. A branch that is not taken is passed by scanning the tags of the
current frame, where conditionals in between are counted and passed as a whole.
-/

namespace VisualNovel
namespace Play

/--
The number of tags up to the end of the conditional that the tags stand in, its end included.
-/
def countToEndIf (nested : Nat) : List Tag → Option Nat
  | [] => none
  | tag :: tags =>
    match tag.directive?, nested with
    | some .ifThen, _ => (countToEndIf (nested + 1) tags).map (· + 1)
    | some .endIf, 0 => some 1
    | some .endIf, nested + 1 => (countToEndIf nested tags).map (· + 1)
    | _, _ => (countToEndIf nested tags).map (· + 1)

/--
Leaves the innermost conditional.
-/
def closeIf : Play Unit :=
  modifyCursor fun c => { c with ifDepth := c.ifDepth - 1 }

/--
Moves to the first branch whose condition holds, or behind the conditional. `passed` counts the tags that
have been scanned.
-/
def seekBranch (line : Nat) (nested passed : Nat) : List Tag → Play Unit
  | [] => throw (.branch line (.unclosed .ifThen))
  | tag :: tags =>
    match tag.directive?, nested with
    | some .ifThen, _ => seekBranch line (nested + 1) (passed + 1) tags
    | some .endIf, nested + 1 => seekBranch line nested (passed + 1) tags
    | some .endIf, 0 => do
      modifyCursor (·.skip (passed + 1))
      closeIf
    | some .otherwise, 0 => modifyCursor (·.skip (passed + 1))
    | some .elsif, 0 => do
      match tag.string? "exp" with
      | none => throw (.missingParameter Directive.elsif.name "exp" tag.line)
      | some condition =>
        let value ← tryCatch (evaluate condition tag.line) fun e => do closeIf; throw e
        if value.isTruthy then
          modifyCursor (·.skip (passed + 1))
        else
          seekBranch line 0 (passed + 1) tags
    | _, _ => seekBranch line nested (passed + 1) tags

/--
Enters a conditional. If its condition does not hold, the cursor moves to the branch that is taken.
-/
def enterIf (condition : String) : Play Unit := do
  let line := (← get).cursor.latestLine
  let value ← evaluate condition line
  modifyCursor fun c => { c with ifDepth := c.ifDepth + 1 }
  if !value.isTruthy then
    seekBranch line 0 0 (← get).cursor.unread

/--
Passes the rest of a conditional, from the directive that ends the branch which was taken.
-/
def skipRest (directive : Directive) : Play Unit := do
  let c := (← get).cursor
  if c.ifDepth = 0 then
    throw (.branch c.latestLine (.outside directive))
  match countToEndIf 0 c.unread with
  | none => throw (.branch c.latestLine (.unclosed directive))
  | some count =>
    modifyCursor (·.skip count)
    closeIf

def endIf : Play Unit := do
  let c := (← get).cursor
  if c.ifDepth = 0 then
    throw (.branch c.latestLine .endWithoutStart)
  closeIf

end Play
end VisualNovel
