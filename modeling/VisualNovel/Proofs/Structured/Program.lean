import VisualNovel.Cursor.Basic
import VisualNovel.Macro

/-!
This module contains structured programs: trees of branches, loops and calls of macros. It contains the tags
that a program is written as, and an interpreter that follows the tree and knows neither positions nor scans.
-/

namespace VisualNovel

def Directive.isStructural : Directive → Bool
  | .ifThen | .elsif | .otherwise | .endIf | .forLoop | .endFor | .breakFor => true
  | _ => false

def Tag.isStructural (tag : Tag) : Bool :=
  tag.directive?.any Directive.isStructural

namespace Structured

mutual

/--
A sequence of leaves, calls of macros, ends of the innermost loop (`leave`), loops and branches.
-/
inductive Program where
  | done
  | leaf (tag : Tag) (rest : Program)
  | call (tag : Tag) (rest : Program)
  | leave (tag : Tag) (rest : Program)
  | loop (head : Tag) (rounds : Nat) (body : Program) (tail : Tag) (rest : Program)
  | choice (head : Tag) (condition : String) (body : Program) (others : Branches) (rest : Program)

/--
What follows the body of a branch: the end of the branches, the last branch, or one with a condition.
-/
inductive Branches where
  | close (tail : Tag)
  | otherwise (head : Tag) (body : Program) (tail : Tag)
  | elsif (head : Tag) (condition : String) (body : Program) (others : Branches)

end

mutual

def Program.tags : Program → List Tag
  | .done => []
  | .leaf tag rest | .call tag rest | .leave tag rest => tag :: rest.tags
  | .loop head _ body tail rest => head :: (body.tags ++ tail :: rest.tags)
  | .choice head _ body others rest => head :: (body.tags ++ (others.tags ++ rest.tags))

def Branches.tags : Branches → List Tag
  | .close tail => [tail]
  | .otherwise head body tail => head :: (body.tags ++ [tail])
  | .elsif head _ body others => head :: (body.tags ++ others.tags)

end

/--
A tag that is obeyed as the given directive.
-/
def Obeyed (table : MacroTable) (d : Directive) (tag : Tag) : Prop :=
  tag.directive? = some d ∧ table.find? tag.name = none

mutual

/--
The tags of a program are what the tree takes them for: directives of branches and loops, calls of macros whose
bodies are programs, and leaves, which are neither. A loop is left only from inside of it.
-/
def Program.Valid (table : MacroTable) (bodies : String → Option Program) (inLoop : Bool) : Program → Prop
  | .done => True
  | .leaf tag rest =>
    (tag.isStructural = false ∧ table.find? tag.name = none) ∧ rest.Valid table bodies inLoop
  | .call tag rest =>
    (tag.isStructural = false ∧ ∃ m body,
      table.find? tag.name = some m ∧ bodies tag.name = some body ∧ m.tags = body.tags) ∧
      rest.Valid table bodies inLoop
  | .leave tag rest => (inLoop = true ∧ Obeyed table .breakFor tag) ∧ rest.Valid table bodies inLoop
  | .loop head rounds body tail rest =>
    (Obeyed table .forLoop head ∧ head.value? "loops" = some (.ofNat rounds)) ∧
      body.Valid table bodies true ∧ Obeyed table .endFor tail ∧ rest.Valid table bodies inLoop
  | .choice head condition body others rest =>
    (Obeyed table .ifThen head ∧ head.string? "exp" = some condition) ∧
      body.Valid table bodies inLoop ∧ others.Valid table bodies inLoop ∧ rest.Valid table bodies inLoop

def Branches.Valid (table : MacroTable) (bodies : String → Option Program) (inLoop : Bool)
    : Branches → Prop
  | .close tail => Obeyed table .endIf tail
  | .otherwise head body tail =>
    Obeyed table .otherwise head ∧ body.Valid table bodies inLoop ∧ Obeyed table .endIf tail
  | .elsif head condition body others =>
    (Obeyed table .elsif head ∧ head.string? "exp" = some condition) ∧
      body.Valid table bodies inLoop ∧ others.Valid table bodies inLoop

end

/--
The programs that bodies of macros are written as. Other macros of the table may have any body.
-/
structure Bodies (table : MacroTable) where
  find? : String → Option Program
  valid : ∀ name body, find? name = some body → body.Valid table find? false

/-! ### The interpreter -/

structure Row where
  tag : Tag
  parameters : Option Fields
  vars : Variables

/--
How a part of a program ends: behind its last tag, by leaving the innermost loop, or at a fault.
-/
inductive Exit where
  | through
  | left
  | failed (e : CursorError)

structure Played where
  rows : List Row
  vars : Variables
  exit : Exit

namespace Played

def andThen (p : Played) (next : Variables → Played) : Played :=
  match p.exit with
  | .through =>
    let later := next p.vars
    { later with rows := p.rows ++ later.rows }
  | _ => p

end Played

abbrev LeafAction := Tag → Option Fields → ExceptT CursorError (StateM Variables) Unit

/--
Rounds of a loop, from the one with the given index on. The index is set at the start of a round.
-/
def playRounds (index : String) (round : Variables → Played) (first : Nat) : Nat → Variables → Played
  | 0, vars => { rows := [], vars, exit := .through }
  | count + 1, vars =>
    let played := round (vars.set .temporary index (.ofNat first))
    match played.exit with
    | .left => { played with exit := .through }
    | _ => played.andThen (playRounds index round (first + 1) count)

def indexVariable (head : Tag) : String :=
  (head.string? "indexvar").getD "i"

def playIf (condition : String) (line : Nat) (parameters : Option Fields) (vars : Variables)
    (yes no : Variables → Played) : Played :=
  match (Expr.evaluateAt condition line parameters).run.run vars with
  | (.error e, vars) => { rows := [], vars, exit := .failed e }
  | (.ok value, vars) => if value.isTruthy then yes vars else no vars

section Play

variable (act : LeafAction) (call : Tag → Variables → Played) (parameters : Option Fields)

mutual

/--
Plays a program, given what leaves and calls come to.
-/
def Program.playWith : Program → Variables → Played
  | .done, vars => { rows := [], vars, exit := .through }
  | .leaf tag rest, vars =>
    match (act tag parameters).run.run vars with
    | (.error e, after) => { rows := [⟨tag, parameters, vars⟩], vars := after, exit := .failed e }
    | (.ok (), after) =>
      let later := rest.playWith after
      { later with rows := ⟨tag, parameters, vars⟩ :: later.rows }
  | .call tag rest, vars => (call tag vars).andThen fun vars => rest.playWith vars
  | .leave _ _, vars => { rows := [], vars, exit := .left }
  | .loop head rounds body _ rest, vars =>
    (playRounds (indexVariable head) (fun vars => body.playWith vars) 0 rounds vars).andThen
      fun vars => rest.playWith vars
  | .choice head condition body others rest, vars =>
    (playIf condition head.line parameters vars
      (fun vars => body.playWith vars) (fun vars => others.playWith vars)).andThen
      fun vars => rest.playWith vars

def Branches.playWith : Branches → Variables → Played
  | .close _, vars => { rows := [], vars, exit := .through }
  | .otherwise _ body _, vars => body.playWith vars
  | .elsif head condition body others, vars =>
    playIf condition head.line parameters vars
      (fun vars => body.playWith vars) (fun vars => others.playWith vars)

end

end Play

def playCall (table : MacroTable) (bodies : String → Option Program) (act : LeafAction) (limit room : Nat)
    (tag : Tag) (vars : Variables) : Played :=
  match table.find? tag.name, bodies tag.name, room with
  | some m, _, 0 => { rows := [], vars, exit := .failed (.macroDepth m.name limit) }
  | some _, some body, room + 1 =>
    body.playWith act (playCall table bodies act limit room) (some tag.values) vars
  | _, _, _ => { rows := [], vars, exit := .through }

def Program.play (table : MacroTable) (bodies : String → Option Program) (act : LeafAction)
    (limit room : Nat) (parameters : Option Fields) (p : Program) (vars : Variables) : Played :=
  p.playWith act (playCall table bodies act limit room) parameters vars

end Structured
end VisualNovel
