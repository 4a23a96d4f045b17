import VisualNovel.Tag

/-!
This module contains macros: named lists of tags that are run where a tag of their name stands.
-/

namespace VisualNovel

/--
A macro, or a running invocation of it: the position in its body and the parameters of the call.
-/
structure Macro where
  name : String
  tags : List Tag
  /-- The line of the tag that defines it. -/
  line : Nat
  point : Nat := 0
  parameters : Fields := []
  deriving Repr, Inhabited

namespace Macro

/--
A fresh invocation, at the start of the body.
-/
def instantiate (m : Macro) (parameters : Fields) : Macro :=
  { m with point := 0, parameters }

/--
The tags of the body that have not been read.
-/
def unread (m : Macro) : List Tag :=
  m.tags.drop m.point

/--
Reads the next tag of the body.
-/
def next? (m : Macro) : Option (Tag × Macro) :=
  m.tags[m.point]?.map (·, { m with point := m.point + 1 })

def same (a b : Macro) : Bool :=
  a.name == b.name && a.tags.length == b.tags.length && (a.tags.zip b.tags).all (fun (s, t) => s.same t) &&
    a.line == b.line && a.point == b.point && Value.sameFields a.parameters b.parameters

end Macro

/--
The defined macros by their names.
-/
structure MacroTable where
  entries : List (String × Macro) := []
  deriving Repr, Inhabited

namespace MacroTable

def find? (table : MacroTable) (name : String) : Option Macro :=
  table.entries.lookup name

def contains (table : MacroTable) (name : String) : Bool :=
  (table.find? name).isSome

def erase (table : MacroTable) (name : String) : MacroTable :=
  { entries := table.entries.filter (·.1 != name) }

/--
Defines a macro, in place of any other one with its name.
-/
def define (table : MacroTable) (m : Macro) : MacroTable :=
  { entries := (m.name, m) :: (table.erase m.name).entries }

def size (table : MacroTable) : Nat :=
  table.entries.length

@[simp]
theorem find?_define_self (table : MacroTable) (m : Macro)
    : (table.define m).find? m.name = some m := by
  simp [define, find?]

@[simp]
theorem find?_erase_self (table : MacroTable) (name : String)
    : (table.erase name).find? name = none := by
  simp only [erase, find?]
  induction table.entries with
  | nil => rfl
  | cons e es ih =>
    obtain ⟨key, m⟩ := e
    by_cases h : key = name
    . simpa [h] using ih
    . have : (name == key) = false := by simpa using fun h' => h h'.symm
      rw [List.filter_cons_of_pos (by simpa using h), List.lookup_cons, this]
      exact ih

end MacroTable
end VisualNovel
