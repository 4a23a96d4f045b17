/-!
This module contains the names of tags that have a meaning of their own. No macro can take one of them.
-/

namespace VisualNovel

inductive Directive where
  | label | saveMark | script | lineBreak | char | stop
  | ifThen | elsif | otherwise | endIf
  | forLoop | endFor | breakFor
  | define | endDefine
  | jump | call | back
  deriving DecidableEq, Repr

namespace Directive

def name : Directive → String
  | .label => "__label__"
  | .saveMark => "__save_mark__"
  | .script => "__js__"
  | .lineBreak => "__line_break__"
  | .char => "ch"
  | .stop => "s"
  | .ifThen => "if"
  | .elsif => "elsif"
  | .otherwise => "else"
  | .endIf => "endif"
  | .forLoop => "for"
  | .endFor => "endfor"
  | .breakFor => "breakfor"
  | .define => "macro"
  | .endDefine => "endmacro"
  | .jump => "jump"
  | .call => "call"
  | .back => "return"

def all : List Directive := [
  .label, .saveMark, .script, .lineBreak, .char, .stop, .ifThen, .elsif, .otherwise, .endIf, .forLoop,
  .endFor, .breakFor, .define, .endDefine, .jump, .call, .back
]

/--
The directive with the given name.
-/
def ofName? (name : String) : Option Directive :=
  all.find? (·.name == name)

theorem mem_all (d : Directive) : d ∈ all := by
  cases d <;> decide

@[simp]
theorem ofName?_name (d : Directive) : ofName? d.name = some d := by
  cases d <;> decide

theorem name_of_ofName? {name : String} {d : Directive} (h : ofName? name = some d)
    : d.name = name := by
  simpa using List.find?_some h

end Directive
end VisualNovel
