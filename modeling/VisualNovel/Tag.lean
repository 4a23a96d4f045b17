import VisualNovel.Directive
import VisualNovel.Value.Basic

/-!
This module contains tags, the unit in which a script is parsed and run.
-/

namespace VisualNovel

/--
One step of a script, with the line that it stands on.
-/
structure Tag where
  name : String
  values : Fields
  line : Nat
  deriving Repr, Inhabited

namespace Tag

/--
The value that every tag has: the text that it was written with.
-/
def bodyKey : String := "__body__"

/--
A tag, with an empty body unless the values hold one.
-/
def make (name : String) (values : Fields) (line : Nat) : Tag :=
  let values :=
    if Fields.contains bodyKey values then values else Fields.insert bodyKey (.string "") values
  { name, values, line }

def withBody (name body : String) (line : Nat) : Tag :=
  make name [(bodyKey, .string body)] line

def value? (tag : Tag) (key : String) : Option Value :=
  Fields.find? key tag.values

def string? (tag : Tag) (key : String) : Option String :=
  (tag.value? key).bind Value.string?

def body (tag : Tag) : String :=
  (tag.string? bodyKey).getD ""

def withValues (tag : Tag) (values : Fields) : Tag :=
  make tag.name values tag.line

/--
The name and the line, as messages and logs show a tag.
-/
def display (tag : Tag) : String :=
  tag.name ++ "@" ++ toString tag.line

/--
Are two tags alike, value by value?
-/
def same (a b : Tag) : Bool :=
  a.name == b.name && Value.sameFields a.values b.values && a.line == b.line

def directive? (tag : Tag) : Option Directive :=
  Directive.ofName? tag.name

/-! ### The tags of text, labels, marks and scripts -/

/--
The tag of one character of text.
-/
def ofChar (c : Char) (line : Nat) : Tag :=
  make Directive.char.name [(bodyKey, .string c.toString), ("text", .string c.toString)] line

def lineBreak (line : Nat) : Tag :=
  withBody Directive.lineBreak.name "" line

def label (name : String) (line : Nat) : Tag :=
  withBody Directive.label.name name line

/--
The tag of statements to run, or of an expression whose value is printed.
-/
def script (body : String) (print : Bool) (line : Nat) : Tag :=
  make Directive.script.name [(bodyKey, .string body), ("print", .bool print)] line

def saveMark (name comment body : String) (line : Nat) : Tag :=
  make Directive.saveMark.name
    [(bodyKey, .string body), ("comment", .string comment), ("name", .string name)] line

/--
The tag behind the last line of a script.
-/
def stop (line : Nat) : Tag :=
  withBody Directive.stop.name "" line

end Tag
end VisualNovel
