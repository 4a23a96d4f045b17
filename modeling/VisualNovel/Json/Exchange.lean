import VisualNovel.Cursor.Mark
import VisualNovel.Json.Record
import VisualNovel.Save

/-!
This module contains the JSON forms of tags, saves and save marks, by which they are handed to other programs
and taken back.
-/

namespace VisualNovel

def Tag.toValue (tag : Tag) : Value :=
  .object [("name", .string tag.name), ("values", .object tag.values), ("line", .ofNat tag.line)]

def Tag.ofJson? (json : Json) : Option Tag := do
  match ← json.record? ["name", "values", "line"] with
  | [some name, some values, some line] =>
    return { name := ← name.string?, values := ← values.fields?, line := ← line.nat? }
  | _ => none

def Save.toValue (save : Save) : Value :=
  .object [
    ("file_path", .string save.file),
    ("save_mark", .string save.mark),
    ("game_vars", .object save.game)
  ]

/--
A save without game variables has none.
-/
def Save.ofJson? (json : Json) : Option Save := do
  match ← json.record? ["file_path", "save_mark", "game_vars"] with
  | [some file, some mark, game] =>
    return {
      file := ← file.string?
      mark := ← mark.string?
      game := ← (game.map Json.fields?).getD (some [])
    }
  | _ => none

def SaveMark.toValue (mark : SaveMark) : Value :=
  .object [("name", .string mark.name), ("comment", .string mark.comment), ("line", .ofNat mark.line)]

def SaveMark.ofJson? (json : Json) : Option SaveMark := do
  match ← json.record? ["name", "comment", "line"] with
  | [some name, some comment, some line] =>
    return { name := ← name.string?, comment := ← comment.string?, line := ← line.nat? }
  | _ => none

end VisualNovel
