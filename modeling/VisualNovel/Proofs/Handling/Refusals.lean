import VisualNovel.Cursor.Mark
import VisualNovel.Proofs.Computation
import VisualNovel.Proofs.Handling.Balance

/-!
This module contains the operations that go along the structure of a script, and when they refuse to. Whatever they refuse,
they leave everything as it was.
-/

namespace VisualNovel

/--
The operations that end conditionals, run loops and move to a name in the script.
-/
inductive Control where
  | skipRest (directive : Directive)
  | endIf
  | startLoop (loops : Nat) (indexVariable : String)
  | endRound
  | breakLoop
  | goToLabel (name : String)
  | goToSaveMark (name : String)

def Play.moveTo (find : Cursor → Except CursorError Cursor) : Play Unit := do
  match find (← get).cursor with
  | .ok cursor => modifyCursor fun _ => cursor
  | .error e => throw e

def Control.play : Control → Play Unit
  | .skipRest directive => Play.skipRest directive
  | .endIf => Play.endIf
  | .startLoop loops indexVariable => Play.startLoop loops indexVariable
  | .endRound => Play.endRound
  | .breakLoop => Play.breakLoop
  | .goToLabel name => Play.moveTo (·.goToLabel name)
  | .goToSaveMark name => Play.moveTo (·.goToSaveMark name)

namespace Cursor

/--
The innermost loop was opened in the current frame.
-/
def InLoop (c : Cursor) : Prop :=
  c.loops.head?.map LoopFrame.depth = some c.macroDepth

/--
Why the rest of a loop's body cannot be passed: the loop does not end, or more conditionals end in the body than are open.
-/
inductive Traps (c : Cursor) : CursorError → Prop where
  | unclosed (h : ¬ Play.Closes .forLoop .endFor 0 c.unread) : Traps c (.loop c.latestLine .unclosed)
  | tooMany (hends : Play.Closes .forLoop .endFor 0 c.unread) {part : List Tag} (hpart : part <+: c.unread)
    (hinside : ¬ Play.Closes .forLoop .endFor 0 part) (hcloses : Play.Closes .ifThen .endIf c.ifDepth part)
    : Traps c (.branch c.latestLine .loopClosesTooMany)

/--
What the operations refuse to do, and the faults that they report.
-/
inductive Refuses (c : Cursor) : Control → CursorError → Prop where
  | outside (directive : Directive) (h : c.ifDepth = 0)
    : Refuses c (.skipRest directive) (.branch c.latestLine (.outside directive))
  | unclosed (directive : Directive) (hinside : c.ifDepth ≠ 0) (h : ¬ Play.Closes .ifThen .endIf 0 c.unread)
    : Refuses c (.skipRest directive) (.branch c.latestLine (.unclosed directive))
  | endIf (h : c.ifDepth = 0) : Refuses c .endIf (.branch c.latestLine .endWithoutStart)
  | startLoop (indexVariable : String) {e : CursorError} (h : c.Traps e) : Refuses c (.startLoop 0 indexVariable) e
  | endRound (h : ¬ c.InLoop) : Refuses c .endRound (.loop c.latestLine .endWithoutStart)
  | breakOutside (h : c.loops = []) : Refuses c .breakLoop (.loop c.latestLine .breakOutside)
  | breakOutOfMacro (hopen : c.loops ≠ []) (h : ¬ c.InLoop) : Refuses c .breakLoop (.loop c.latestLine .breakOutOfMacro)
  | breakLoop (hinside : c.InLoop) {e : CursorError} (h : c.Traps e) : Refuses c .breakLoop e
  | goToLabel {name : String} (h : ∀ tag ∈ c.tags, isLabel name tag = false)
    : Refuses c (.goToLabel name) (.labelNotFound c.file name)
  | goToSaveMark {name : String} (h : ∀ tag ∈ c.tags, isSaveMark name tag = false)
    : Refuses c (.goToSaveMark name) (.saveMarkNotFound c.file name)

end Cursor

namespace Play

open Cursor

variable {scene after : Scene} {e : CursorError}

theorem skipRest_eq_error_iff (directive : Directive)
    : (skipRest directive).run.run scene = (.error e, after)
        ↔
      after = scene ∧ scene.cursor.Refuses (.skipRest directive) e := by
  unfold skipRest
  rw [run_get_bind]
  dsimp only
  constructor
  . intro h
    split at h
    . next hdepth =>
      cases h
      exact ⟨rfl, .outside directive hdepth⟩
    . next hdepth =>
      cases hcount : countToEndIf 0 scene.cursor.unread with
      | none =>
        rw [hcount] at h
        cases h
        exact ⟨rfl, .unclosed directive hdepth (countToEndIf_eq_none_iff.1 hcount)⟩
      | some count =>
        rw [hcount] at h
        cases h
  . rintro ⟨rfl, hrefuses⟩
    cases hrefuses with
    | outside _ hdepth =>
      rw [if_pos hdepth]
      rfl
    | unclosed _ hdepth hends =>
      rw [if_neg hdepth, countToEndIf_eq_none_iff.2 hends]
      rfl

theorem endIf_eq_error_iff
    : endIf.run.run scene = (.error e, after) ↔ after = scene ∧ scene.cursor.Refuses .endIf e := by
  unfold endIf
  rw [run_get_bind]
  dsimp only
  constructor
  . intro h
    split at h
    . next hdepth =>
      cases h
      exact ⟨rfl, .endIf hdepth⟩
    . cases h
  . rintro ⟨rfl, hrefuses⟩
    cases hrefuses with
    | endIf hdepth =>
      rw [if_pos hdepth]
      rfl

theorem skipBody_eq_error_iff
    : skipBody.run.run scene = (.error e, after) ↔ after = scene ∧ scene.cursor.Traps e := by
  unfold skipBody
  rw [run_get_bind]
  dsimp only
  constructor
  . intro h
    cases hscan : scanLoop 0 0 0 0 scene.cursor.unread with
    | none =>
      rw [hscan] at h
      cases h
      exact ⟨rfl, .unclosed (scanLoop_eq_none_iff.1 hscan)⟩
    | some scan =>
      rw [hscan] at h
      dsimp only at h
      split at h
      . next hlt =>
        cases h
        obtain ⟨part, hpart, hinside, hcloses⟩ := (lt_closed_iff hscan _).1 hlt
        exact ⟨rfl, .tooMany (closes_of_scanLoop hscan) hpart hinside hcloses⟩
      . cases h
  . rintro ⟨rfl, htraps⟩
    cases htraps with
    | unclosed h =>
      rw [scanLoop_eq_none_iff.2 h]
      rfl
    | tooMany hends hpart hinside hcloses =>
      cases hscan : scanLoop 0 0 0 0 after.cursor.unread with
      | none => exact absurd hends (scanLoop_eq_none_iff.1 hscan)
      | some scan =>
        have hlt := (lt_closed_iff hscan _).2 ⟨_, hpart, hinside, hcloses⟩
        dsimp only
        rw [if_pos hlt]
        rfl

theorem startLoop_eq_error_iff (loops : Nat) (indexVariable : String)
    : (startLoop loops indexVariable).run.run scene = (.error e, after)
        ↔
      after = scene ∧ scene.cursor.Refuses (.startLoop loops indexVariable) e := by
  unfold startLoop
  split
  . next hloops =>
    subst hloops
    rw [skipBody_eq_error_iff]
    constructor
    . rintro ⟨hafter, htraps⟩
      exact ⟨hafter, .startLoop indexVariable htraps⟩
    . rintro ⟨hafter, hrefuses⟩
      cases hrefuses with
      | startLoop _ htraps => exact ⟨hafter, htraps⟩
  . next hloops =>
    constructor
    . intro h
      cases h
    . rintro ⟨_, hrefuses⟩
      cases hrefuses
      exact absurd rfl hloops

theorem endRound_eq_error_iff
    : endRound.run.run scene = (.error e, after) ↔ after = scene ∧ scene.cursor.Refuses .endRound e := by
  unfold endRound
  rw [run_get_bind]
  dsimp only
  cases hloops : scene.cursor.loops with
  | nil =>
    constructor
    . intro h
      cases h
      exact ⟨rfl, .endRound (by simp [InLoop, hloops])⟩
    . rintro ⟨rfl, hrefuses⟩
      cases hrefuses
      rfl
  | cons frame frames =>
    dsimp only
    by_cases hdepth : (frame.depth != scene.cursor.macroDepth) = true
    . rw [if_pos hdepth]
      constructor
      . intro h
        cases h
        exact ⟨rfl, .endRound (by simpa [InLoop, hloops] using hdepth)⟩
      . rintro ⟨rfl, hrefuses⟩
        cases hrefuses
        rfl
    . rw [if_neg hdepth]
      constructor
      . intro h
        split at h <;> cases h
      . rintro ⟨rfl, hrefuses⟩
        cases hrefuses with
        | endRound houtside => exact absurd (by simpa [InLoop, hloops] using hdepth) houtside

theorem breakLoop_eq_error_iff
    : breakLoop.run.run scene = (.error e, after) ↔ after = scene ∧ scene.cursor.Refuses .breakLoop e := by
  unfold breakLoop
  rw [run_get_bind]
  dsimp only
  cases hloops : scene.cursor.loops with
  | nil =>
    constructor
    . intro h
      cases h
      exact ⟨rfl, .breakOutside hloops⟩
    . rintro ⟨rfl, hrefuses⟩
      cases hrefuses with
      | breakOutside => rfl
      | breakOutOfMacro hopen => exact absurd hloops hopen
      | breakLoop hinside =>
        rw [InLoop, hloops] at hinside
        cases hinside
  | cons frame frames =>
    dsimp only
    by_cases hdepth : (frame.depth != scene.cursor.macroDepth) = true
    . rw [if_pos hdepth]
      have houtside : ¬ scene.cursor.InLoop := by simpa [InLoop, hloops] using hdepth
      constructor
      . intro h
        cases h
        exact ⟨rfl, .breakOutOfMacro (by simp [hloops]) houtside⟩
      . rintro ⟨rfl, hrefuses⟩
        cases hrefuses with
        | breakOutside hnone =>
          rw [hloops] at hnone
          cases hnone
        | breakOutOfMacro => rfl
        | breakLoop hinside => exact absurd hinside houtside
    . rw [if_neg hdepth, run_bind]
      have hinside : scene.cursor.InLoop := by simpa [InLoop, hloops] using hdepth
      constructor
      . intro h
        cases hbody : skipBody.run.run scene with
        | mk result later =>
          rw [hbody] at h
          cases result with
          | ok => cases h
          | error fault =>
            cases h
            obtain ⟨hafter, htraps⟩ := skipBody_eq_error_iff.1 hbody
            exact ⟨hafter, .breakLoop hinside htraps⟩
      . rintro ⟨rfl, hrefuses⟩
        cases hrefuses with
        | breakOutside hnone =>
          rw [hloops] at hnone
          cases hnone
        | breakOutOfMacro _ houtside => exact absurd hinside houtside
        | breakLoop _ htraps => rw [skipBody_eq_error_iff.2 ⟨rfl, htraps⟩]

theorem moveTo_eq_error_iff (find : Cursor → Except CursorError Cursor)
    : (moveTo find).run.run scene = (.error e, after) ↔ after = scene ∧ find scene.cursor = .error e := by
  unfold moveTo
  rw [run_get_bind]
  cases find scene.cursor with
  | ok cursor => exact ⟨nofun, nofun⟩
  | error fault =>
    constructor
    . intro h
      cases h
      exact ⟨rfl, rfl⟩
    . rintro ⟨rfl, h⟩
      cases h
      rfl

end Play

namespace Cursor

variable {c : Cursor} {name : String} {e : CursorError}

theorem goToLabel_eq_error_iff : c.goToLabel name = .error e ↔ c.Refuses (.goToLabel name) e := by
  unfold goToLabel
  constructor
  . intro h
    split at h
    . cases h
    . next hnone =>
      cases h
      exact .goToLabel (List.findIdx?_eq_none_iff.1 hnone)
  . intro h
    cases h with
    | goToLabel hnone => rw [List.findIdx?_eq_none_iff.2 hnone]

theorem goToSaveMark_eq_error_iff : c.goToSaveMark name = .error e ↔ c.Refuses (.goToSaveMark name) e := by
  unfold goToSaveMark
  constructor
  . intro h
    split at h
    . cases h
    . next hnone =>
      cases h
      exact .goToSaveMark (List.findIdx?_eq_none_iff.1 hnone)
  . intro h
    cases h with
    | goToSaveMark hnone => rw [List.findIdx?_eq_none_iff.2 hnone]

end Cursor

/--
The operations fail exactly where they refuse what is asked for, and then the cursor with all that is open in it and the
variables are what they were.
-/
theorem Control.play_eq_error_iff (control : Control) (scene after : Scene) (e : CursorError)
    : control.play.run.run scene = (.error e, after) ↔ after = scene ∧ scene.cursor.Refuses control e := by
  cases control with
  | skipRest directive => exact Play.skipRest_eq_error_iff directive
  | endIf => exact Play.endIf_eq_error_iff
  | startLoop loops indexVariable => exact Play.startLoop_eq_error_iff loops indexVariable
  | endRound => exact Play.endRound_eq_error_iff
  | breakLoop => exact Play.breakLoop_eq_error_iff
  | goToLabel name =>
    rw [← Cursor.goToLabel_eq_error_iff]
    exact Play.moveTo_eq_error_iff (·.goToLabel name)
  | goToSaveMark name =>
    rw [← Cursor.goToSaveMark_eq_error_iff]
    exact Play.moveTo_eq_error_iff (·.goToSaveMark name)

end VisualNovel
