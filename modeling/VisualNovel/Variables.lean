import VisualNovel.Value.Basic

/-!
This module contains the variables of a game in their three spaces, and the record of the save marks that
the player has passed.
-/

namespace VisualNovel

/--
The space of a variable: `temporary` variables are cleared when a save is restored, `game` variables are
part of every save, and `system` variables belong to the player and are kept on disk.
-/
inductive Space where
  | temporary
  | game
  | system
  deriving DecidableEq, Repr

structure Variables where
  temporary : Fields := []
  game : Fields := []
  system : Fields := []
  /-- The passed save marks in ascending order, each with its file in one text. -/
  readMarks : List String := []
  deriving Repr, Inhabited

namespace Variables

def fields (vars : Variables) : Space → Fields
  | .temporary => vars.temporary
  | .game => vars.game
  | .system => vars.system

def setFields (vars : Variables) (fields : Fields) : Space → Variables
  | .temporary => { vars with temporary := fields }
  | .game => { vars with game := fields }
  | .system => { vars with system := fields }

def get? (vars : Variables) (space : Space) (name : String) : Option Value :=
  Fields.find? name (vars.fields space)

def set (vars : Variables) (space : Space) (name : String) (value : Value) : Variables :=
  vars.setFields (Fields.insert name value (vars.fields space)) space

def clearTemporary (vars : Variables) : Variables :=
  { vars with temporary := [] }

/--
Replaces all game variables.
-/
def replaceGame (vars : Variables) (game : Fields) : Variables :=
  { vars with game }

/--
The text that stands for a save mark of a file.
-/
def markKey (file mark : String) : String :=
  file ++ ":" ++ mark

def isRead (vars : Variables) (file mark : String) : Bool :=
  vars.readMarks.contains (markKey file mark)

/--
Adds a text to an ascending list without repetitions.
-/
def insertMark (key : String) : List String → List String
  | [] => [key]
  | k :: ks => if key = k then k :: ks else if key < k then key :: k :: ks else k :: insertMark key ks

/--
Records that the player has passed a save mark.
-/
def markRead (vars : Variables) (file mark : String) : Variables :=
  { vars with readMarks := insertMark (markKey file mark) vars.readMarks }

/--
Records that the player has passed a save mark, and tells whether it is the first time.
-/
def pass (vars : Variables) (file mark : String) : Bool × Variables :=
  (!vars.isRead file mark, vars.markRead file mark)

@[simp]
theorem fields_setFields_self (vars : Variables) (fields : Fields) (space : Space)
    : (vars.setFields fields space).fields space = fields := by
  cases space <;> rfl

theorem fields_setFields_of_ne (vars : Variables) (fields : Fields) {space other : Space}
    (h : other ≠ space) : (vars.setFields fields space).fields other = vars.fields other := by
  cases space <;> cases other <;> first | rfl | exact absurd rfl h

@[simp]
theorem mem_insertMark (key k : String) (ks : List String)
    : k ∈ insertMark key ks ↔ k = key ∨ k ∈ ks := by
  induction ks with
  | nil => simp [insertMark]
  | cons j js ih =>
    by_cases h : key = j
    . subst h
      simp [insertMark]
    . by_cases hlt : key < j
      . simp [insertMark, h, hlt]
      . simp only [insertMark, h, hlt, if_false, List.mem_cons, ih]
        exact ⟨fun h => by rcases h with h | h | h <;> simp [h],
          fun h => by rcases h with h | h | h <;> simp [h]⟩

end Variables
end VisualNovel
