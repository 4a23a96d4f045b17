import Mathlib.Data.List.Forall2
import VisualNovel.Proofs.Playing.Keeping

/-!
This module contains what becomes of the running macros. They are opened and closed while tags are read, and put aside
or left with calls and jumps; all else leaves them alone, except that they are elsewhere in their bodies.
-/

namespace VisualNovel

namespace Cursor

variable {c d e : Cursor}

/--
The same macros, wherever they are in their bodies.
-/
def SameMacros : List Macro → List Macro → Prop :=
  List.Forall₂ fun m later => ∃ point, later = { m with point }

theorem SameMacros.refl (ms : List Macro) : SameMacros ms ms :=
  List.forall₂_same.2 fun m _ => ⟨m.point, rfl⟩

theorem SameMacros.trans {ms later last : List Macro} (h : SameMacros ms later) (h' : SameMacros later last)
    : SameMacros ms last := by
  induction h generalizing last with
  | nil => exact h'
  | cons hmoved _ ih =>
    cases h' with
    | cons hmoved' hrest =>
      obtain ⟨point, rfl⟩ := hmoved
      obtain ⟨point', rfl⟩ := hmoved'
      exact .cons ⟨point', rfl⟩ (ih hrest)

/--
The cursor is still on its script and runs the same macros.
-/
structure KeepsFrames (c d : Cursor) : Prop where
  tags : d.tags = c.tags
  macros : SameMacros c.macros d.macros

theorem KeepsFrames.of_macros_eq (htags : d.tags = c.tags) (hmacros : d.macros = c.macros) : KeepsFrames c d :=
  ⟨htags, hmacros ▸ .refl c.macros⟩

theorem KeepsFrames.refl (c : Cursor) : KeepsFrames c c :=
  of_macros_eq rfl rfl

theorem KeepsFrames.trans (h : KeepsFrames c d) (h' : KeepsFrames d e) : KeepsFrames c e :=
  ⟨h'.tags.trans h.tags, h.macros.trans h'.macros⟩

theorem keepsFrames_setFramePoint (c : Cursor) (point : Nat) : KeepsFrames c (c.setFramePoint point) := by
  unfold setFramePoint
  split
  . next m ms hmacros =>
    refine ⟨rfl, ?_⟩
    rw [hmacros]
    exact .cons ⟨point, rfl⟩ (SameMacros.refl ms)
  . exact .of_macros_eq rfl rfl

theorem Moved.keepsFrames (h : Moved c d) : KeepsFrames c d := by
  obtain ⟨point, ifDepth, latest, rfl⟩ := h.eq_set
  exact (keepsFrames_setFramePoint c point).trans (.of_macros_eq rfl rfl)

/--
The tags among which the calls stand for which macros have been opened inside of the given ones.
-/
def tagsAround (script : List Tag) (around : List Macro) : List Tag :=
  (around.head?.map Macro.tags).getD script

theorem SameMacros.tagsAround_eq {ms later : List Macro} (h : SameMacros ms later) (script : List Tag)
    : tagsAround script later = tagsAround script ms := by
  cases h with
  | nil => rfl
  | cons hhead _ =>
    obtain ⟨_, rfl⟩ := hhead
    rfl

theorem frameTags_eq_tagsAround (c : Cursor) : c.frameTags = tagsAround c.tags c.macros := by
  unfold frameTags tagsAround
  cases c.macros <;> rfl

/-! ### Steps of reading -/

theorem mem_frameTags_of_take? {tag : Tag} (h : c.take? = some (tag, d)) : tag ∈ c.frameTags := by
  unfold take? at h
  unfold frameTags
  cases hmacros : c.macros with
  | nil =>
    simp only [hmacros, Option.map_eq_some_iff] at h
    obtain ⟨other, hother, heq⟩ := h
    cases heq
    exact List.mem_of_getElem? hother
  | cons m ms =>
    simp only [hmacros, Macro.next?, Option.map_map, Option.map_eq_some_iff] at h
    obtain ⟨other, hother, heq⟩ := h
    cases heq
    exact List.mem_of_getElem? hother

theorem KeepsFrames.frameTags_eq (h : KeepsFrames c d) : d.frameTags = c.frameTags := by
  rw [frameTags_eq_tagsAround, frameTags_eq_tagsAround, h.tags, h.macros.tagsAround_eq]

section Step

variable {σ : Type} {table : MacroTable} {resolve : Resolver σ} {s t : σ}

theorem step_more_cases (h : c.step table resolve s = (.ok .more, d, t))
    : (c.take? = none ∧ d = c.closeMacro ∧ t = s) ∨
        ∃ call taken definition parameters, c.take? = some (call, taken) ∧
          table.find? call.name = some definition ∧
          (resolve call taken.parameters).run.run s = (.ok parameters, t) ∧
          d = { taken with macros := definition.instantiate parameters :: taken.macros } := by
  unfold step at h
  split at h
  . next htake =>
    split at h
    . cases h
    . cases h
      exact Or.inl ⟨htake, rfl, rfl⟩
  . next call taken htake =>
    split at h
    . cases h
    . next definition hfind =>
      split at h
      . cases h
      . next parameters after hresolve =>
        split at h
        . cases h
        . next opened hopen =>
          unfold openMacro at hopen
          split at hopen
          . cases hopen
            cases h
            exact Or.inr ⟨call, taken, definition, parameters, htake, hfind, hresolve, rfl⟩
          . cases hopen

/--
A step after which reading does not go on leaves the frames alone, and a tag that it reads stands in the current one.
-/
theorem step_cases {answer : Except CursorError Progress} (h : c.step table resolve s = (answer, d, t))
    (hdone : answer ≠ .ok .more)
    : KeepsFrames c d ∧ ∀ tag, answer = .ok (.read tag) → tag ∈ d.frameTags := by
  unfold step at h
  split at h
  . split at h
    . cases h
      exact ⟨.refl c, by simp⟩
    . cases h
      exact absurd rfl hdone
  . next tag taken htake =>
    have hkeeps := (Moved.take? htake).keepsFrames
    split at h
    . cases h
      have hread : KeepsFrames taken { taken with latest := some tag } := .of_macros_eq rfl rfl
      refine ⟨hkeeps.trans hread, ?_⟩
      intro other hother
      cases hother
      rw [(hkeeps.trans hread).frameTags_eq]
      exact mem_frameTags_of_take? htake
    . split at h
      . cases h
        exact ⟨hkeeps, by simp⟩
      . split at h
        . cases h
          exact ⟨hkeeps, by simp⟩
        . cases h
          exact absurd rfl hdone

end Step

end Cursor

namespace Play

open Cursor

/-! ### Directives -/

theorem keepsFrames_startLoop (loops : Nat) (indexVariable : String) (scene : Scene)
    : KeepsFrames scene.cursor ((startLoop loops indexVariable).cursorAfter scene) := by
  unfold startLoop cursorAfter
  split
  . obtain ⟨e, h⟩ | ⟨cursor, h, hmoved⟩ := run_skipBody_cases scene
    . rw [h]
      exact .refl _
    . rw [h]
      exact hmoved.keepsFrames
  . exact .of_macros_eq rfl rfl

theorem keepsFrames_endRound (scene : Scene) : KeepsFrames scene.cursor (endRound.cursorAfter scene) := by
  unfold endRound cursorAfter
  rw [run_get_bind]
  dsimp only
  split
  . exact .refl _
  . split
    . exact .refl _
    . next frame frames _ _ =>
      split
      . have hround
            : KeepsFrames scene.cursor
                { scene.cursor with loops := { frame with count := frame.count + 1 } :: frames } :=
          .of_macros_eq rfl rfl
        exact hround.trans (keepsFrames_setFramePoint _ _)
      . exact .of_macros_eq rfl rfl

theorem keepsFrames_breakLoop (scene : Scene) : KeepsFrames scene.cursor (breakLoop.cursorAfter scene) := by
  unfold breakLoop cursorAfter
  rw [run_get_bind]
  dsimp only
  split
  . exact .refl _
  . split
    . exact .refl _
    . rw [run_bind]
      obtain ⟨e, h⟩ | ⟨cursor, h, hmoved⟩ := run_skipBody_cases scene
      . rw [h]
        exact .refl _
      . rw [h]
        exact hmoved.keepsFrames.trans (.of_macros_eq rfl rfl)

end Play

variable {H : Type} {α β : Type}

/--
The script that is running and the scripts that have called keep their frames.
-/
structure Conductor.KeepsFrames (c d : Conductor H) : Prop where
  callers : d.callers = c.callers
  cursor : Option.Rel Cursor.KeepsFrames c.cursor d.cursor

namespace Conductor.KeepsFrames

variable {c d e : Conductor H}

theorem of_cursor_eq (hcallers : d.callers = c.callers) (hcursor : d.cursor = c.cursor) : KeepsFrames c d := by
  refine ⟨hcallers, ?_⟩
  rw [hcursor]
  cases c.cursor with
  | none => exact .none
  | some cursor => exact .some (.refl cursor)

theorem refl (c : Conductor H) : KeepsFrames c c :=
  of_cursor_eq rfl rfl

theorem trans (h : KeepsFrames c d) (h' : KeepsFrames d e) : KeepsFrames c e := by
  obtain ⟨hcallers, hcursor⟩ := h
  obtain ⟨hcallers', hcursor'⟩ := h'
  refine ⟨hcallers'.trans hcallers, ?_⟩
  generalize c.cursor = first at hcursor ⊢
  generalize d.cursor = between at hcursor hcursor'
  generalize e.cursor = last at hcursor' ⊢
  cases hcursor with
  | none => exact hcursor'
  | some hkeeps =>
    cases hcursor' with
    | some hkeeps' => exact .some (hkeeps.trans hkeeps')

end Conductor.KeepsFrames

namespace Conducting

/--
A computation that leaves all frames alone.
-/
def Steady (x : Conducting H α) : Prop :=
  ∀ c : Conductor H, c.KeepsFrames (x.run.run c).2

theorem Quiet.steady {x : Conducting H α} (h : Quiet x) : Steady x := by
  intro c
  obtain ⟨vars, hvars⟩ := h c
  rw [hvars]
  exact .of_cursor_eq rfl rfl

theorem Steady.bind {x : Conducting H α} {f : α → Conducting H β} (h : Steady x) (hnext : ∀ a, Steady (f a))
    : Steady (x >>= f) := by
  intro c
  have hx := h c
  rw [run_bind]
  cases hresult : x.run.run c with
  | mk result d =>
    rw [hresult] at hx
    cases result with
    | error e => exact hx
    | ok a => exact hx.trans (hnext a d)

theorem steady_modify {f : Conductor H → Conductor H} (hcallers : ∀ c, (f c).callers = c.callers)
    (hcursor : ∀ c, (f c).cursor = c.cursor) : Steady (modify f : Conducting H Unit) :=
  fun c => .of_cursor_eq (hcallers c) (hcursor c)

section Steady

variable (H)

theorem steady_onScene (p : Play α) (hp : ∀ scene, Cursor.KeepsFrames scene.cursor (p.cursorAfter scene))
    : Steady (onScene p : Conducting H α) := by
  intro c
  cases hcursor : c.cursor with
  | none =>
    rw [run_onScene_none p hcursor]
    exact .refl c
  | some cursor =>
    rw [run_onScene_some p hcursor]
    refine ⟨rfl, ?_⟩
    rw [hcursor]
    exact .some (hp { cursor, vars := c.vars })

theorem steady_invoke (cue : Cue H) : Steady (invoke cue) := by
  intro c
  rw [run_invoke]
  cases (cue.action.run cue.tag cue.values).run.run { host := c.host, vars := c.vars, reactor := c.reactor } with
  | mk result stage =>
    cases result with
    | error message => exact .of_cursor_eq rfl rfl
    | ok response =>
      cases response with
      | proceed | pause => exact .of_cursor_eq rfl rfl
      | wait promise =>
        dsimp only
        rw [run_respond_wait]
        dsimp only
        cases stage.reactor.outcome? promise with
        | none => exact .of_cursor_eq rfl rfl
        | some outcome => cases outcome <;> exact .of_cursor_eq rfl rfl

theorem steady_runAction (tag : Tag) : Steady (runAction tag : Conducting H Unit) := by
  rw [runAction_eq_prepare]
  exact (quiet_prepare H tag).steady.bind (steady_invoke H)

theorem steady_runScript (tag : Tag) : Steady (runScript tag : Conducting H Unit) := by
  unfold runScript
  apply (quiet_onVariables H _).steady.bind
  intro value
  split
  . exact steady_modify (fun _ => rfl) fun _ => rfl
  . exact (quiet_pure H _).steady

/--
Only jumps, calls and returns do not leave the frames alone.
-/
theorem steady_dispatch {tag : Tag} (hjump : tag.directive? ≠ some .jump) (hcall : tag.directive? ≠ some .call)
    (hback : tag.directive? ≠ some .back) : Steady (dispatch tag : Conducting H Unit) := by
  unfold dispatch
  cases hdirective : tag.directive? with
  | none => exact steady_runAction H tag
  | some directive =>
    cases directive with
    | char | lineBreak => exact steady_runAction H tag
    | label => exact (quiet_pure H _).steady
    | endDefine => exact (quiet_throw H _).steady
    | saveMark | stop => exact steady_modify (fun _ => rfl) fun _ => rfl
    | script => exact steady_runScript H tag
    | ifThen =>
      apply (quiet_requireString H _ _ _).steady.bind
      intro condition
      exact steady_onScene H _ fun scene => (Play.moved_enterIf condition scene).keepsFrames
    | elsif | otherwise => exact steady_onScene H _ fun scene => (Play.moved_skipRest _ scene).keepsFrames
    | endIf => exact steady_onScene H _ fun scene => (Play.moved_endIf scene).keepsFrames
    | forLoop =>
      apply (quiet_onVariables H _).steady.bind
      intro values
      apply (quiet_loopCount H tag values).steady.bind
      intro loops
      exact steady_onScene H _ (Play.keepsFrames_startLoop loops _)
    | endFor => exact steady_onScene H _ Play.keepsFrames_endRound
    | breakFor => exact steady_onScene H _ Play.keepsFrames_breakLoop
    | define =>
      apply (quiet_onVariables H _).steady.bind
      intro values
      apply (quiet_requireString H tag values _).steady.bind
      intro name
      apply (steady_onScene H _ fun scene => (Play.moved_define name scene).keepsFrames).bind
      intro definition
      exact steady_modify (fun _ => rfl) fun _ => rfl
    | jump => exact absurd hdirective hjump
    | call => exact absurd hdirective hcall
    | back => exact absurd hdirective hback

end Steady

end Conducting
end VisualNovel
