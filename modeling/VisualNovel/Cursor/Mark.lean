import VisualNovel.Cursor.Basic

/-!
This module contains the labels and the save marks of a script, and the moves to them. A move drops all
macros, conditionals and loops.
-/

namespace VisualNovel

/--
A save mark of a script, as a list of the marks shows it.
-/
structure SaveMark where
  name : String
  comment : String
  line : Nat
  deriving DecidableEq, Repr

namespace Cursor

def goTo (c : Cursor) (point : Nat) : Cursor :=
  { c.restart with point := min point c.tags.length }

def isLabel (name : String) (tag : Tag) : Bool :=
  tag.directive? == some .label && tag.body == name

def isSaveMark (name : String) (tag : Tag) : Bool :=
  tag.directive? == some .saveMark && tag.string? "name" == some name

/--
Moves behind the first label of a name.
-/
def goToLabel (c : Cursor) (name : String) : Except CursorError Cursor :=
  match c.tags.findIdx? (isLabel name) with
  | some i => .ok (c.goTo (i + 1))
  | none => .error (.labelNotFound c.file name)

/--
Moves behind the first save mark of a name.
-/
def goToSaveMark (c : Cursor) (name : String) : Except CursorError Cursor :=
  match c.tags.findIdx? (isSaveMark name) with
  | some i => .ok (c.goTo (i + 1))
  | none => .error (.saveMarkNotFound c.file name)

def labels (c : Cursor) : List String :=
  (c.tags.filter (·.directive? == some .label)).map Tag.body

def saveMarks (c : Cursor) : List SaveMark :=
  (c.tags.filter (·.directive? == some .saveMark)).map fun tag => {
    name := (tag.string? "name").getD ""
    comment := (tag.string? "comment").getD ""
    line := tag.line
  }

end Cursor
end VisualNovel
