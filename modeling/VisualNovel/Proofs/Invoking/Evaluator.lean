import VisualNovel.Proofs.Playing.Verdict

/-!
This module contains what is evaluated while a tag is played, by way of any evaluator in the place of the real one.
An evaluator that differs only where other parameters are visible than those of the innermost running macro makes no
difference.
-/

namespace VisualNovel

/--
Evaluates the text of an expression on a line, with the parameters that are visible there.
-/
abbrev Evaluator := String → Nat → Option Fields → ExceptT CursorError (StateM Variables) Value

/--
The evaluator is the real one as long as the given parameters are visible.
-/
def Evaluator.Faithful (scope : Option Fields) (ev : Evaluator) : Prop :=
  ∀ source line, ev source line scope = Expr.evaluateAt source line scope

variable {H : Type}

/-! ### The parts of a conductor that evaluate expressions -/

section With

variable (ev : Evaluator)

def Tag.resolveEntryWith (line : Nat) (parameters : Option Fields) (entry : String × Value)
    : ExceptT CursorError (StateM Variables) (String × Value) := do
  let (key, value) := entry
  match if key = bodyKey then none else deferred? value with
  | none => return (key, value)
  | some source => return (key, ← ev source line parameters)

def Tag.resolveWith : Resolver Variables := fun tag parameters =>
  tag.values.mapM (Tag.resolveEntryWith ev tag.line parameters)

namespace Play

def evaluateWith (source : String) (line : Nat) : Play Value := do
  let s ← get
  let (result, vars) := (ev source line s.cursor.parameters).run.run s.vars
  set { s with vars }
  match result with
  | .ok value => return value
  | .error e => throw e

def seekBranchWith (line : Nat) (nested passed : Nat) : List Tag → Play Unit
  | [] => throw (.branch line (.unclosed .ifThen))
  | tag :: tags =>
    match tag.directive?, nested with
    | some .ifThen, _ => seekBranchWith line (nested + 1) (passed + 1) tags
    | some .endIf, nested + 1 => seekBranchWith line nested (passed + 1) tags
    | some .endIf, 0 => do
      modifyCursor (·.skip (passed + 1))
      closeIf
    | some .otherwise, 0 => modifyCursor (·.skip (passed + 1))
    | some .elsif, 0 => do
      match tag.string? "exp" with
      | none => throw (.missingParameter Directive.elsif.name "exp" tag.line)
      | some condition =>
        let value ← tryCatch (evaluateWith ev condition tag.line) fun e => do closeIf; throw e
        if value.isTruthy then
          modifyCursor (·.skip (passed + 1))
        else
          seekBranchWith line 0 (passed + 1) tags
    | _, _ => seekBranchWith line nested (passed + 1) tags

def enterIfWith (condition : String) : Play Unit := do
  let line := (← get).cursor.latestLine
  let value ← evaluateWith ev condition line
  modifyCursor fun c => { c with ifDepth := c.ifDepth + 1 }
  if !value.isTruthy then
    seekBranchWith ev line 0 0 (← get).cursor.unread

end Play

namespace Conducting

def resolveWith (tag : Tag) : Conducting H Fields :=
  onVariables (Tag.resolveWith ev tag)

def runScriptWith (tag : Tag) : Conducting H Unit := do
  let value ← onVariables (ev tag.body tag.line)
  if (tag.value? "print").any Value.isTruthy then
    modify fun c =>
      { c with printed := c.printed ++ value.display.toList.map (Tag.ofChar · tag.line) }

def jumpWith (tag : Tag) (mode : EntryMode) : Conducting H Unit := do
  let values ← resolveWith ev tag
  let target := targetOf values
  let current := (← get).cursor
  let file := ((Fields.find? "file" values).bind Value.string?).filter fun file =>
    file != "" && current.map Cursor.file != some file
  match file, current with
  | some file, _ => awaitScript file target mode none
  | none, some cursor => enter cursor.restart target mode
  | none, none => throw .noScript

def runActionWith (tag : Tag) : Conducting H Unit := do
  let some action := (← get).actions.lookup tag.name | throw (.unknownTag tag.name tag.line)
  match Parameter.validate action.parameters (← resolveWith ev tag) with
  | .error e => throw (.parameter tag.name tag.line e)
  | .ok values =>
    let c ← get
    let stage : Stage H := { host := c.host, vars := c.vars, reactor := c.reactor }
    let (result, stage) := (action.run tag values).run.run stage
    set { c with host := stage.host, vars := stage.vars, reactor := stage.reactor }
    match result with
    | .error message => throw (.action tag.name tag.line message)
    | .ok .proceed => pure ()
    | .ok .pause => modify fun c => { c with status := .stopped }
    | .ok (.wait promise) =>
      match stage.reactor.outcome? promise with
      | none =>
        modify fun c =>
          { c with pending := some (.wait promise tag.name tag.line), status := .asleep }
      | some (.done _) => pure ()
      | some (.failed fault) => throw (.action tag.name tag.line fault.message)

/--
Plays a tag, where all expressions are evaluated by the given evaluator.
-/
def dispatchWith (tag : Tag) : Conducting H Unit :=
  match tag.directive? with
  | some .label => pure ()
  | some .saveMark => passSaveMark tag
  | some .script => runScriptWith ev tag
  | some .stop => modify fun c => { c with status := .stopped }
  | some .ifThen => do
    let condition ← requireString tag tag.values "exp"
    onScene (Play.enterIfWith ev condition)
  | some .elsif => onScene (Play.skipRest .elsif)
  | some .otherwise => onScene (Play.skipRest .otherwise)
  | some .endIf => onScene Play.endIf
  | some .forLoop => do
    let values ← resolveWith ev tag
    let loops ← loopCount tag values
    let index := ((Fields.find? "indexvar" values).bind Value.string?).getD defaultIndexVariable
    onScene (Play.startLoop loops index)
  | some .endFor => onScene Play.endRound
  | some .breakFor => onScene Play.breakLoop
  | some .define => do
    let name ← requireString tag (← resolveWith ev tag) "name"
    let definition ← onScene (Play.define name)
    modify fun c => { c with library := c.library.define definition }
  | some .endDefine => throw (.script (.definition tag.line .endWithoutStart))
  | some .jump => jumpWith ev tag .jump
  | some .call => jumpWith ev tag .call
  | some .back => back tag
  | some .char | some .lineBreak | none => runActionWith ev tag

end Conducting

end With

/-! ### Evaluators that make no difference -/

namespace Evaluator.Faithful

variable {ev : Evaluator} {scope : Option Fields}

theorem resolve_eq (h : ev.Faithful scope) (tag : Tag) : Tag.resolveWith ev tag scope = Tag.resolve tag scope := by
  have hentry (entry : String × Value)
      : Tag.resolveEntryWith ev tag.line scope entry = Tag.resolveEntry tag.line scope entry := by
    unfold Tag.resolveEntryWith Tag.resolveEntry
    dsimp only
    cases (if entry.1 = Tag.bodyKey then none else Tag.deferred? entry.2) with
    | none => rfl
    | some source =>
      dsimp only
      rw [h source tag.line]
  unfold Tag.resolveWith Tag.resolve
  rw [funext hentry]

theorem run_evaluate_eq {scene : Scene} (h : ev.Faithful scene.cursor.parameters) (source : String) (line : Nat)
    : (Play.evaluateWith ev source line).run.run scene = (Play.evaluate source line).run.run scene := by
  rw [Play.run_evaluate]
  unfold Play.evaluateWith
  rw [run_get_bind, h source line]
  cases (Expr.evaluateAt source line scene.cursor.parameters).run.run scene.vars with
  | mk result vars => cases result <;> rfl

/--
No branch is entered before its condition is known, so all conditions are evaluated in the same place.
-/
theorem run_seekBranch_eq {scene : Scene} (h : ev.Faithful scene.cursor.parameters) (line nested passed : Nat)
    (tags : List Tag)
    : (Play.seekBranchWith ev line nested passed tags).run.run scene
        =
      (Play.seekBranch line nested passed tags).run.run scene := by
  induction tags generalizing nested passed scene with
  | nil => rfl
  | cons tag tags ih =>
    cases hdirective : tag.directive? with
    | none =>
      simp only [Play.seekBranchWith, Play.seekBranch, hdirective]
      exact ih h _ _
    | some directive =>
      cases directive with
      | otherwise | endIf =>
        cases nested with
        | zero => simp only [Play.seekBranchWith, Play.seekBranch, hdirective]
        | succ nested =>
          simp only [Play.seekBranchWith, Play.seekBranch, hdirective]
          exact ih h _ _
      | elsif =>
        cases nested with
        | succ nested =>
          simp only [Play.seekBranchWith, Play.seekBranch, hdirective]
          exact ih h _ _
        | zero =>
          simp only [Play.seekBranchWith, Play.seekBranch, hdirective]
          cases tag.string? "exp" with
          | none => rfl
          | some condition =>
            dsimp only
            rw [run_bind, run_bind, run_tryCatch, run_tryCatch, run_evaluate_eq h, Play.run_evaluate]
            cases (Expr.evaluateAt condition tag.line scene.cursor.parameters).run.run scene.vars with
            | mk result vars =>
              cases result with
              | error e => rfl
              | ok value =>
                dsimp only
                split
                . rfl
                . apply ih
                  exact h
      | _ =>
        simp only [Play.seekBranchWith, Play.seekBranch, hdirective]
        exact ih h _ _

theorem run_enterIf_eq {scene : Scene} (h : ev.Faithful scene.cursor.parameters) (condition : String)
    : (Play.enterIfWith ev condition).run.run scene = (Play.enterIf condition).run.run scene := by
  unfold Play.enterIfWith Play.enterIf
  rw [run_get_bind, run_get_bind, run_bind, run_bind, run_evaluate_eq h, Play.run_evaluate]
  cases (Expr.evaluateAt condition scene.cursor.latestLine scene.cursor.parameters).run.run scene.vars with
  | mk result vars =>
    cases result with
    | error e => rfl
    | ok value =>
      dsimp only
      unfold Play.modifyCursor
      rw [run_modify_bind, run_modify_bind]
      split
      . rw [run_get_bind, run_get_bind]
        apply run_seekBranch_eq
        exact h
      . rfl

section Conducting

variable {α : Type} {c : Conductor H}

theorem run_onVariables_eq {f g : Option Fields → ExceptT CursorError (StateM Variables) α}
    (h : f (c.cursor.bind Cursor.parameters) = g (c.cursor.bind Cursor.parameters))
    : (Conducting.onVariables f).run.run c = (Conducting.onVariables g).run.run c := by
  rw [Conducting.run_onVariables, Conducting.run_onVariables, h]

theorem run_resolve_eq (h : ev.Faithful (c.cursor.bind Cursor.parameters)) (tag : Tag)
    : (Conducting.resolveWith ev tag).run.run c = (Conducting.resolve tag).run.run c :=
  run_onVariables_eq (h.resolve_eq tag)

/--
What comes first is the same, and what comes next does not evaluate anything.
-/
theorem run_bind_eq {β : Type} {x y : Conducting H α} (h : x.run.run c = y.run.run c) (next : α → Conducting H β)
    : (x >>= next).run.run c = (y >>= next).run.run c := by
  rw [run_bind, run_bind, h]

theorem run_runScript_eq (h : ev.Faithful (c.cursor.bind Cursor.parameters)) (tag : Tag)
    : (Conducting.runScriptWith ev tag).run.run c = (Conducting.runScript tag).run.run c := by
  unfold Conducting.runScriptWith Conducting.runScript
  exact run_bind_eq (run_onVariables_eq (h tag.body tag.line)) _

theorem run_jump_eq (h : ev.Faithful (c.cursor.bind Cursor.parameters)) (tag : Tag) (mode : EntryMode)
    : (Conducting.jumpWith ev tag mode).run.run c = (Conducting.jump tag mode).run.run c := by
  unfold Conducting.jumpWith Conducting.jump
  exact run_bind_eq (h.run_resolve_eq tag) _

theorem run_runAction_eq (h : ev.Faithful (c.cursor.bind Cursor.parameters)) (tag : Tag)
    : (Conducting.runActionWith ev tag).run.run c = (Conducting.runAction tag).run.run c := by
  unfold Conducting.runActionWith Conducting.runAction
  rw [run_get_bind, run_get_bind]
  cases c.actions.lookup tag.name with
  | none => rfl
  | some action => exact run_bind_eq (h.run_resolve_eq tag) _

theorem run_onScene_enterIf_eq (h : ev.Faithful (c.cursor.bind Cursor.parameters)) (condition : String)
    : (Conducting.onScene (Play.enterIfWith ev condition)).run.run c
        =
      (Conducting.onScene (Play.enterIf condition)).run.run c := by
  cases hcursor : c.cursor with
  | none => rw [Conducting.run_onScene_none _ hcursor, Conducting.run_onScene_none _ hcursor]
  | some cursor =>
    rw [hcursor] at h
    have hfaithful : ev.Faithful ({ cursor, vars := c.vars } : Scene).cursor.parameters := h
    rw [Conducting.run_onScene_some _ hcursor, Conducting.run_onScene_some _ hcursor,
      run_enterIf_eq hfaithful condition]

theorem run_requireString (tag : Tag) (values : Fields) (key : String)
    : (Conducting.requireString tag values key).run.run c
        =
      match (Fields.find? key values).bind Value.string? with
      | some s => (.ok s, c)
      | none => (.error (.script (.missingParameter tag.name key tag.line)), c) := by
  unfold Conducting.requireString
  cases (Fields.find? key values).bind Value.string? <;> rfl

/--
Whatever tag is played, its expressions are evaluated with the parameters of the innermost running macro.
-/
theorem run_dispatch_eq (h : ev.Faithful (c.cursor.bind Cursor.parameters)) (tag : Tag)
    : (Conducting.dispatchWith ev tag).run.run c = (Conducting.dispatch tag).run.run c := by
  unfold Conducting.dispatchWith Conducting.dispatch
  cases tag.directive? with
  | none => exact h.run_runAction_eq tag
  | some directive =>
    cases directive with
    | char | lineBreak => exact h.run_runAction_eq tag
    | script => exact h.run_runScript_eq tag
    | forLoop | define =>
      dsimp only
      exact run_bind_eq (h.run_resolve_eq tag) _
    | jump => exact h.run_jump_eq tag .jump
    | call => exact h.run_jump_eq tag .call
    | ifThen =>
      dsimp only
      rw [run_bind, run_bind, run_requireString]
      cases (Fields.find? "exp" tag.values).bind Value.string? with
      | none => rfl
      | some condition => exact h.run_onScene_enterIf_eq condition
    | label | saveMark | stop | elsif | otherwise | endIf | endFor | breakFor | endDefine | back => rfl

end Conducting

end Evaluator.Faithful

end VisualNovel
