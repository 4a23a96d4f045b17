import VisualNovel.Cursor.Basic
import VisualNovel.Text.Blank

/-!
This module contains the definition of macros by a script.
-/

namespace VisualNovel
namespace Play

/--
The body of a definition: the tags up to its end. Labels, save marks and definitions have no place in it.
-/
def readBody (name : String) (line : Nat) : List Tag → Except CursorError (List Tag)
  | [] => .error (.definition line (.unclosed name))
  | tag :: tags =>
    match tag.directive? with
    | some .endDefine => .ok []
    | some .label | some .saveMark => .error (.definition tag.line (.markInside name))
    | some .define => .error (.definition tag.line (.nested name))
    | _ => (readBody name line tags).map (tag :: ·)

/--
Reads the definition of a macro, up to its end. The cursor moves behind it even if the body is empty.
-/
def define (written : String) : Play Macro := do
  let c := (← get).cursor
  let line := c.latestLine
  let name := String.ofList (Text.trim written.toList)
  if name.isEmpty then
    throw (.definition line .emptyName)
  if (Directive.ofName? name).isSome then
    throw (.definition line (.reserved name))
  match readBody name line c.unread with
  | .error e => throw e
  | .ok tags =>
    modifyCursor (·.skip (tags.length + 1))
    if tags.isEmpty then
      throw (.definition line (.emptyBody name))
    return { name, tags, line }

end Play
end VisualNovel
