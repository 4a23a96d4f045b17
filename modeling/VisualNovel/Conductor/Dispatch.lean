import VisualNovel.Conductor.Basic
import VisualNovel.Cursor.Branch
import VisualNovel.Cursor.Definition
import VisualNovel.Cursor.Loop
import VisualNovel.Cursor.Mark
import VisualNovel.Cursor.Reading
import VisualNovel.Library.Load

/-!
This module contains what a conductor does with a tag.
-/

namespace VisualNovel

/-! ### Values that are computed when their tag is played -/

namespace Tag

/--
The first character of a value that is an expression.
-/
def deferredMark : Char := '&'

/--
The expression that a value holds, if it is one.
-/
def deferred? : Value → Option String
  | .string s =>
    match s.toList with
    | c :: source => if c = deferredMark then some (String.ofList source) else none
    | [] => none
  | _ => none

/--
Computes the value of one entry. The body of a tag stays as it is written.
-/
def resolveEntry (line : Nat) (parameters : Option Fields) (entry : String × Value)
    : ExceptT CursorError (StateM Variables) (String × Value) := do
  let (key, value) := entry
  match if key = bodyKey then none else deferred? value with
  | none => return (key, value)
  | some source => return (key, ← Expr.evaluateAt source line parameters)

/--
The values of a tag, where all that are expressions are computed, in the order of their names.
-/
def resolve : Resolver Variables := fun tag parameters =>
  tag.values.mapM (resolveEntry tag.line parameters)

end Tag

namespace Conducting

variable {H : Type}

/--
Runs a computation on the variables, where the running script stands.
-/
def onVariables (f : Option Fields → ExceptT CursorError (StateM Variables) α) : Conducting H α := do
  let c ← get
  let (result, vars) := (f (c.cursor.bind Cursor.parameters)).run.run c.vars
  set { c with vars }
  match result with
  | .ok a => return a
  | .error e => throw (.script e)

def resolve (tag : Tag) : Conducting H Fields :=
  onVariables (Tag.resolve tag)

/--
Runs a directive on the running script.
-/
def onScene (p : Play α) : Conducting H α := do
  let c ← get
  match c.cursor with
  | none => throw .noScript
  | some cursor =>
    let (result, scene) := p.run.run { cursor, vars := c.vars }
    set { c with cursor := some scene.cursor, vars := scene.vars }
    match result with
    | .ok a => return a
    | .error e => throw (.script e)

def requireString (tag : Tag) (values : Fields) (key : String) : Conducting H String :=
  match (Fields.find? key values).bind Value.string? with
  | some s => return s
  | none => throw (.script (.missingParameter tag.name key tag.line))

/--
The number of rounds of a loop: a whole number from zero on, or a text that spells one.
-/
def loopCount (tag : Tag) (values : Fields) : Conducting H Nat :=
  match Fields.find? "loops" values with
  | none => throw (.script (.missingParameter tag.name "loops" tag.line))
  | some value =>
    let count :=
      match value with
      | .number n => n.toNat?
      | .string s => Text.readNat64? (Text.trim s.toList)
      | _ => none
    match count with
    | some n => return n
    | none => throw (.parameter tag.name tag.line (.mismatch "loops" .number value))

/--
The variable that counts the rounds of a loop if the loop does not name one.
-/
def defaultIndexVariable : String := "__index__"

def passSaveMark (tag : Tag) : Conducting H Unit :=
  modify fun c =>
    let mark := (tag.string? "name").getD ""
    let file := (c.cursor.map Cursor.file).getD ""
    { c with vars := c.vars.markRead file mark, latestMark := some (file, mark) }

/--
Runs the statements of a tag, and prints their value if the tag says so.
-/
def runScript (tag : Tag) : Conducting H Unit := do
  let value ← onVariables (Expr.evaluateAt tag.body tag.line)
  if (tag.value? "print").any Value.isTruthy then
    modify fun c =>
      { c with printed := c.printed ++ value.display.toList.map (Tag.ofChar · tag.line) }

/-! ### Jumps and calls -/

/--
Makes a script the running one. If its target is missing, nothing changes.
-/
def enter (cursor : Cursor) (target : Target) (mode : EntryMode) : Conducting H Unit := do
  let found : Except CursorError Cursor :=
    match target with
    | .start => .ok (cursor.goTo 0)
    | .label name => cursor.goToLabel name
    | .saveMark name => cursor.goToSaveMark name
  match found with
  | .error e => throw (.script e)
  | .ok cursor =>
    modify fun c => { c with
      latestMark :=
        match target with
        | .saveMark name => some (cursor.file, name)
        | _ => c.latestMark
      callers := if mode = .call then c.cursor.toList ++ c.callers else c.callers
      cursor := some cursor }

/--
Falls asleep until a script is loaded.
-/
def awaitScript (file : String) (target : Target) (mode : EntryMode) (game : Option Fields)
    : Conducting H Unit :=
  modify fun c =>
    let (promise, library, reactor) := c.library.loadLater file c.reactor
    { c with library, reactor, pending := some (.load promise file target mode game), status := .asleep }

/--
A label has precedence over a save mark. Without either the script is entered at its start.
-/
def targetOf (values : Fields) : Target :=
  match (Fields.find? "label" values).bind Value.string? with
  | some name => .label name
  | none =>
    match (Fields.find? "mark" values).bind Value.string? with
    | some name => .saveMark name
    | none => .start

/--
Goes to another place in the running script, or to another script.
-/
def jump (tag : Tag) (mode : EntryMode) : Conducting H Unit := do
  let values ← resolve tag
  let target := targetOf values
  let current := (← get).cursor
  let file := ((Fields.find? "file" values).bind Value.string?).filter fun file =>
    file != "" && current.map Cursor.file != some file
  match file, current with
  | some file, _ => awaitScript file target mode none
  | none, some cursor => enter cursor.restart target mode
  | none, none => throw .noScript

/--
Comes back from the last call.
-/
def back (tag : Tag) : Conducting H Unit := do
  match (← get).callers with
  | [] => throw (.noCall tag.line)
  | caller :: callers => modify fun c => { c with cursor := some caller, callers }

/-! ### Actions -/

/--
Calls the action of a tag. The values are computed before they are checked.
-/
def runAction (tag : Tag) : Conducting H Unit := do
  let some action := (← get).actions.lookup tag.name | throw (.unknownTag tag.name tag.line)
  match Parameter.validate action.parameters (← resolve tag) with
  | .error e => throw (.parameter tag.name tag.line e)
  | .ok values =>
    let c ← get
    let stage : Stage H := { host := c.host, vars := c.vars, reactor := c.reactor }
    let (result, stage) := (action.run tag values).run.run stage
    set { c with host := stage.host, vars := stage.vars, reactor := stage.reactor }
    match result with
    | .error message => throw (.action tag.name tag.line message)
    | .ok .proceed => pure ()
    | .ok .pause => modify fun c => { c with status := .stopped }
    | .ok (.wait promise) =>
      match stage.reactor.outcome? promise with
      | none =>
        modify fun c =>
          { c with pending := some (.wait promise tag.name tag.line), status := .asleep }
      | some (.done _) => pure ()
      | some (.failed fault) => throw (.action tag.name tag.line fault.message)

/--
Plays a tag.
-/
def dispatch (tag : Tag) : Conducting H Unit :=
  match tag.directive? with
  | some .label => pure ()
  | some .saveMark => passSaveMark tag
  | some .script => runScript tag
  | some .stop => modify fun c => { c with status := .stopped }
  | some .ifThen => do
    let condition ← requireString tag tag.values "exp"
    onScene (Play.enterIf condition)
  | some .elsif => onScene (Play.skipRest .elsif)
  | some .otherwise => onScene (Play.skipRest .otherwise)
  | some .endIf => onScene Play.endIf
  | some .forLoop => do
    let values ← resolve tag
    let loops ← loopCount tag values
    let index := ((Fields.find? "indexvar" values).bind Value.string?).getD defaultIndexVariable
    onScene (Play.startLoop loops index)
  | some .endFor => onScene Play.endRound
  | some .breakFor => onScene Play.breakLoop
  | some .define => do
    let name ← requireString tag (← resolve tag) "name"
    let definition ← onScene (Play.define name)
    modify fun c => { c with library := c.library.define definition }
  | some .endDefine => throw (.script (.definition tag.line .endWithoutStart))
  | some .jump => jump tag .jump
  | some .call => jump tag .call
  | some .back => back tag
  | some .char | some .lineBreak | none => runAction tag

end Conducting
end VisualNovel
