import VisualNovel.Cursor.Mark
import VisualNovel.Cursor.Reading
import VisualNovel.Proofs.Computation
import VisualNovel.Proofs.Scanning

/-!
This module contains all that can become of a cursor. Whatever is done with it, its current frame goes on
somewhere in its tags, and then at most one loop or one macro is opened or closed.
-/

namespace VisualNovel

namespace Cursor

variable {c d e : Cursor}

/--
The cursor is elsewhere in the tags of its frame, perhaps inside of other conditionals.
-/
structure Moved (c d : Cursor) : Prop where
  eq_set : ∃ point ifDepth latest, d = { c.setFramePoint point with ifDepth, latest }
  point_le : c.framePoint ≤ c.frameTags.length → d.framePoint ≤ d.frameTags.length

/--
What is done to the loops and the macros of a cursor at once.
-/
inductive Reshaped (c : Cursor) : Cursor → Prop where
  | openLoop (indexVariable : String) {loops : Nat} (hloops : 0 < loops)
    : Reshaped c { c with
        loops := { start := c.framePoint, depth := c.macroDepth, indexVariable, loops } :: c.loops }
  | nextRound {frame : LoopFrame} {frames : List LoopFrame} (hopen : c.loops = frame :: frames)
    (hdepth : frame.depth = c.macroDepth) (hcount : frame.count + 1 < frame.loops)
    : Reshaped c ({ c with
        loops := { frame with count := frame.count + 1 } :: frames }.setFramePoint frame.start)
  | closeLoop {frame : LoopFrame} {frames : List LoopFrame} (hopen : c.loops = frame :: frames)
    : Reshaped c { c with loops := frames }
  | openMacro {m : Macro} (hstart : m.point = 0) (hdepth : c.macroDepth < c.maxDepth)
    : Reshaped c { c with macros := m :: c.macros }
  | closeMacro (hopen : c.macros ≠ []) : Reshaped c c.closeMacro
  | reset {point : Nat} (hpoint : point ≤ c.tags.length) : Reshaped c { c.restart with point }

/--
What one operation on a cursor can do.
-/
structure Changed (c d : Cursor) : Prop where
  steps : ∃ b, Moved c b ∧ (b = d ∨ Reshaped b d)

/-! ### Moves in a frame -/

@[simp]
theorem frameTags_setFramePoint (c : Cursor) (point : Nat) : (c.setFramePoint point).frameTags = c.frameTags := by
  unfold setFramePoint frameTags
  cases c.macros <;> rfl

@[simp]
theorem framePoint_setFramePoint (c : Cursor) (point : Nat) : (c.setFramePoint point).framePoint = point := by
  unfold setFramePoint framePoint
  cases c.macros <;> rfl

@[simp]
theorem setFramePoint_setFramePoint (c : Cursor) (point other : Nat)
    : (c.setFramePoint point).setFramePoint other = c.setFramePoint other := by
  unfold setFramePoint
  cases c.macros <;> rfl

theorem setFramePoint_framePoint (c : Cursor) : c.setFramePoint c.framePoint = c := by
  obtain ⟨file, tags, maxDepth, point, macros, ifDepth, loops, latest⟩ := c
  unfold setFramePoint framePoint
  cases macros <;> rfl

theorem setFramePoint_with (c : Cursor) (ifDepth : Nat) (latest : Option Tag) (point : Nat)
    : { c with ifDepth, latest }.setFramePoint point = { c.setFramePoint point with ifDepth, latest } := by
  unfold setFramePoint
  cases c.macros <;> rfl

theorem Moved.of_frame (h : ∃ ifDepth latest, d = { c with ifDepth, latest }) : Moved c d := by
  obtain ⟨ifDepth, latest, rfl⟩ := h
  refine ⟨⟨c.framePoint, ifDepth, latest, ?_⟩, fun hc => hc⟩
  rw [setFramePoint_framePoint]

theorem Moved.refl (c : Cursor) : Moved c c :=
  of_frame ⟨c.ifDepth, c.latest, rfl⟩

theorem Moved.trans (h : Moved c d) (h' : Moved d e) : Moved c e := by
  refine ⟨?_, fun hc => h'.point_le (h.point_le hc)⟩
  obtain ⟨point, ifDepth, latest, rfl⟩ := h.eq_set
  obtain ⟨point', ifDepth', latest', rfl⟩ := h'.eq_set
  exists point', ifDepth', latest'
  rw [setFramePoint_with, setFramePoint_setFramePoint]

theorem Moved.skip {count : Nat} (h : count ≤ c.unread.length) : Moved c (c.skip count) := by
  refine ⟨⟨c.framePoint + count, (c.skip count).ifDepth, (c.skip count).latest, rfl⟩, ?_⟩
  intro hpoint
  unfold unread at h
  rw [List.length_drop] at h
  unfold Cursor.skip
  rw [framePoint_setFramePoint, frameTags_setFramePoint]
  omega

theorem Moved.take? {tag : Tag} (h : c.take? = some (tag, d)) : Moved c d := by
  unfold Cursor.take? at h
  cases hm : c.macros with
  | nil =>
    simp only [hm, Option.map_eq_some_iff] at h
    obtain ⟨t, ht, heq⟩ := h
    cases heq
    refine ⟨⟨c.point + 1, c.ifDepth, c.latest, by simp [setFramePoint, hm]⟩, fun _ => ?_⟩
    have hlt := (List.getElem?_eq_some_iff.1 ht).1
    simpa [framePoint, frameTags, hm] using Nat.succ_le_of_lt hlt
  | cons m ms =>
    simp only [hm, Macro.next?, Option.map_map, Option.map_eq_some_iff] at h
    obtain ⟨t, ht, heq⟩ := h
    cases heq
    refine ⟨⟨m.point + 1, c.ifDepth, c.latest, by simp [setFramePoint, hm]⟩, fun _ => ?_⟩
    have hlt := (List.getElem?_eq_some_iff.1 ht).1
    simpa [framePoint, frameTags] using Nat.succ_le_of_lt hlt

theorem Moved.changed (h : Moved c d) : Changed c d :=
  ⟨d, h, Or.inl rfl⟩

theorem Moved.reshaped (h : Moved c d) (h' : Reshaped d e) : Changed c e :=
  ⟨d, h, Or.inr h'⟩

theorem Reshaped.changed (h : Reshaped c d) : Changed c d :=
  (Moved.refl c).reshaped h

/-! ### Steps of reading, and jumps -/

theorem changed_step {σ : Type} (table : MacroTable) (resolve : Resolver σ) (c : Cursor) (s : σ)
    : Changed c (c.step table resolve s).2.1 := by
  unfold step
  split
  . split
    . exact (Moved.refl c).changed
    . next hopen => exact (Reshaped.closeMacro (by simpa using hopen)).changed
  . next tag d htake =>
    have htaken := Moved.take? htake
    split
    . exact (htaken.trans (Moved.of_frame ⟨d.ifDepth, some tag, rfl⟩)).changed
    . split
      . exact htaken.changed
      . next parameters _ _ =>
        split
        . exact htaken.changed
        . next e hopen =>
          unfold Cursor.openMacro at hopen
          split at hopen
          . next hdepth =>
            cases hopen
            exact htaken.reshaped (Reshaped.openMacro rfl hdepth)
          . cases hopen

theorem changed_goTo (c : Cursor) (point : Nat) : Changed c (c.goTo point) :=
  (Reshaped.reset (Nat.min_le_right point c.tags.length)).changed

theorem changed_restart (c : Cursor) : Changed c c.restart :=
  (Reshaped.reset (Nat.zero_le c.tags.length)).changed

theorem changed_goToLabel (c : Cursor) (name : String) : Changed c ((c.goToLabel name).toOption.getD c) := by
  unfold goToLabel
  split
  . exact changed_goTo c _
  . exact (Moved.refl c).changed

theorem changed_goToSaveMark (c : Cursor) (name : String)
    : Changed c ((c.goToSaveMark name).toOption.getD c) := by
  unfold goToSaveMark
  split
  . exact changed_goTo c _
  . exact (Moved.refl c).changed

end Cursor

/-! ### Directives -/

namespace Play

open Cursor

variable {α : Type}

/--
The cursor after a directive, whether it has been obeyed or has failed.
-/
def cursorAfter (p : Play α) (scene : Scene) : Cursor :=
  (p.run.run scene).2.cursor

theorem moved_seekBranch (line nested passed : Nat) (tags : List Tag) (scene : Scene)
    (h : passed + tags.length ≤ scene.cursor.unread.length)
    : Moved scene.cursor ((seekBranch line nested passed tags).cursorAfter scene) := by
  induction tags generalizing nested passed scene with
  | nil => exact Moved.refl _
  | cons tag tags ih =>
    rw [List.length_cons] at h
    have hskip : Moved scene.cursor (scene.cursor.skip (passed + 1)) := Moved.skip (by omega)
    have hrest (nested : Nat) : Moved scene.cursor ((seekBranch line nested (passed + 1) tags).cursorAfter scene) :=
      ih nested (passed + 1) scene (by omega)
    unfold seekBranch
    split
    . exact hrest _
    . exact hrest _
    . exact hskip.trans (Moved.of_frame ⟨_, _, rfl⟩)
    . exact hskip
    . split
      . exact Moved.refl _
      . next condition _ =>
        -- the condition has been evaluated, and this leaves the cursor alone
        unfold cursorAfter
        rw [run_bind, run_tryCatch, run_evaluate]
        cases (Expr.evaluateAt condition tag.line scene.cursor.parameters).run.run scene.vars with
        | mk result vars =>
          cases result with
          | error e => exact Moved.of_frame ⟨_, _, rfl⟩
          | ok value =>
            dsimp only
            split
            . exact hskip
            . apply ih 0 (passed + 1) { scene with vars }
              dsimp only
              omega
    . exact hrest _

theorem moved_enterIf (condition : String) (scene : Scene)
    : Moved scene.cursor ((enterIf condition).cursorAfter scene) := by
  unfold enterIf cursorAfter
  rw [run_get_bind, run_bind, run_evaluate]
  cases (Expr.evaluateAt condition scene.cursor.latestLine scene.cursor.parameters).run.run scene.vars with
  | mk result vars =>
    cases result with
    | error e => exact Moved.refl _
    | ok value =>
      have hentered : Moved scene.cursor { scene.cursor with ifDepth := scene.cursor.ifDepth + 1 } :=
        Moved.of_frame ⟨_, _, rfl⟩
      dsimp only
      unfold modifyCursor
      rw [run_modify_bind]
      split
      . rw [run_get_bind]
        have hsought := moved_seekBranch scene.cursor.latestLine 0 0
          { scene.cursor with ifDepth := scene.cursor.ifDepth + 1 }.unread
          { cursor := { scene.cursor with ifDepth := scene.cursor.ifDepth + 1 }, vars }
          (Nat.le_of_eq (Nat.zero_add _))
        exact hentered.trans hsought
      . exact hentered

theorem moved_endIf (scene : Scene) : Moved scene.cursor (endIf.cursorAfter scene) := by
  unfold endIf cursorAfter
  rw [run_get_bind]
  dsimp only
  split
  . exact Moved.refl _
  . exact Moved.of_frame ⟨_, _, rfl⟩

theorem moved_skipRest (directive : Directive) (scene : Scene)
    : Moved scene.cursor ((skipRest directive).cursorAfter scene) := by
  unfold skipRest cursorAfter
  rw [run_get_bind]
  dsimp only
  split
  . exact Moved.refl _
  . cases hcount : countToEndIf 0 scene.cursor.unread with
    | none => exact Moved.refl _
    | some count => exact (Moved.skip (countToEndIf_le hcount)).trans (Moved.of_frame ⟨_, _, rfl⟩)

theorem moved_define (written : String) (scene : Scene)
    : Moved scene.cursor ((define written).cursorAfter scene) := by
  unfold define cursorAfter
  rw [run_get_bind]
  dsimp only
  split
  . exact Moved.refl _
  . split
    . exact Moved.refl _
    . split
      . exact Moved.refl _
      . next tags hbody =>
        have hskip : Moved scene.cursor (scene.cursor.skip (tags.length + 1)) :=
          Moved.skip (length_readBody_lt hbody)
        unfold modifyCursor
        rw [run_modify_bind]
        split <;> exact hskip

theorem run_skipBody_cases (scene : Scene)
    : (∃ e, skipBody.run.run scene = (.error e, scene)) ∨
        ∃ cursor, skipBody.run.run scene = (.ok (), { scene with cursor }) ∧ Moved scene.cursor cursor := by
  unfold skipBody
  rw [run_get_bind]
  dsimp only
  cases hscan : scanLoop 0 0 0 0 scene.cursor.unread with
  | none => exact Or.inl ⟨_, rfl⟩
  | some scan =>
    dsimp only
    have hle := scanLoop_le hscan
    rw [Nat.zero_add] at hle
    split
    . exact Or.inl ⟨_, rfl⟩
    . exact Or.inr ⟨_, rfl, (Moved.skip hle).trans (Moved.of_frame ⟨_, _, rfl⟩)⟩

theorem changed_startLoop (loops : Nat) (indexVariable : String) (scene : Scene)
    : Changed scene.cursor ((startLoop loops indexVariable).cursorAfter scene) := by
  unfold startLoop cursorAfter
  split
  . obtain ⟨e, h⟩ | ⟨cursor, h, hmoved⟩ := run_skipBody_cases scene
    . rw [h]
      exact (Moved.refl _).changed
    . rw [h]
      exact hmoved.changed
  . next hloops => exact (Reshaped.openLoop indexVariable (Nat.pos_of_ne_zero hloops)).changed

theorem changed_endRound (scene : Scene) : Changed scene.cursor (endRound.cursorAfter scene) := by
  unfold endRound cursorAfter
  rw [run_get_bind]
  dsimp only
  cases hopen : scene.cursor.loops with
  | nil => exact (Moved.refl _).changed
  | cons frame frames =>
    dsimp only
    split
    . exact (Moved.refl _).changed
    . next hdepth =>
      split
      . next hcount => exact (Reshaped.nextRound hopen (by simpa using hdepth) hcount).changed
      . exact (Reshaped.closeLoop hopen).changed

theorem changed_breakLoop (scene : Scene) : Changed scene.cursor (breakLoop.cursorAfter scene) := by
  unfold breakLoop cursorAfter
  rw [run_get_bind]
  dsimp only
  cases hopen : scene.cursor.loops with
  | nil => exact (Moved.refl _).changed
  | cons frame frames =>
    dsimp only
    split
    . exact (Moved.refl _).changed
    . rw [run_bind]
      obtain ⟨e, h⟩ | ⟨cursor, h, hmoved⟩ := run_skipBody_cases scene
      . rw [h]
        exact (Moved.refl _).changed
      . have hopen' : cursor.loops = frame :: frames := by
          obtain ⟨point, ifDepth, latest, rfl⟩ := hmoved.eq_set
          rw [← hopen]
          unfold setFramePoint
          cases scene.cursor.macros <;> rfl
        rw [h]
        exact hmoved.reshaped (Reshaped.closeLoop hopen')

end Play
end VisualNovel
