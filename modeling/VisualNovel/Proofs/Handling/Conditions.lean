import VisualNovel.Proofs.Evaluating.Footprint
import VisualNovel.Proofs.Invoking.Evaluator

/-!
This module contains what is left of a cursor when a conditional cannot be entered, whatever evaluates the conditions. A
condition that fails leaves the cursor as it was. A conditional without an end, and a branch without a condition, leave it
inside of a conditional that it is not in.
-/

namespace VisualNovel

/--
The faults of the evaluator are faults of expressions, and it reports them for the line that it is given.
-/
def Evaluator.Reports (ev : Evaluator) : Prop :=
  ∀ source line parameters vars e, ((ev source line parameters).run.run vars).1 = .error e →
    ∃ error, e = .expression line error

theorem reports_evaluateAt : Evaluator.Reports Expr.evaluateAt := by
  intro source line parameters vars e h
  unfold Expr.evaluateAt at h
  rw [run_get_bind] at h
  cases hresult : Expr.evaluate source { vars := some vars, parameters } with
  | mk result scope =>
    simp only [hresult] at h
    cases result with
    | error error =>
      cases h
      exact ⟨error, rfl⟩
    | ok value => cases h

namespace Cursor

/--
The cursor in one more conditional.
-/
def entered (c : Cursor) : Cursor :=
  { c with ifDepth := c.ifDepth + 1 }

/--
What is left of the cursor after a fault of each kind.
-/
inductive Leaves (c : Cursor) : CursorError → Cursor → Prop where
  | condition {line : Nat}
    (hline : line = c.latestLine ∨ ∃ tag ∈ c.unread, tag.directive? = some .elsif ∧ line = tag.line) (error : Expr.Error)
    : Leaves c (.expression line error) c
  | unclosed : Leaves c (.branch c.latestLine (.unclosed .ifThen)) c.entered
  | missing {tag : Tag} (htag : tag ∈ c.unread) (helsif : tag.directive? = some .elsif)
    (hcondition : tag.string? "exp" = none)
    : Leaves c (.missingParameter "elsif" "exp" tag.line) c.entered

end Cursor

namespace Play

open Cursor

variable {ev : Evaluator}

theorem run_evaluateWith (source : String) (line : Nat) (cursor : Cursor) (vars : Variables)
    : (evaluateWith ev source line).run.run { cursor, vars }
        =
      (((ev source line cursor.parameters).run.run vars).1,
        { cursor, vars := ((ev source line cursor.parameters).run.run vars).2 }) := by
  unfold evaluateWith
  rw [run_get_bind]
  cases (ev source line cursor.parameters).run.run vars with
  | mk result vars => cases result <;> rfl

/--
A search for a branch that fails has moved nothing. It goes on in the conditional, unless the condition of a branch fails.
-/
theorem leaves_seekBranchWith (hev : ev.Reports) {c : Cursor} {nested passed : Nat} {tags : List Tag}
    (htags : tags ⊆ c.unread) {vars : Variables} {e : CursorError} {after : Scene}
    (h : (seekBranchWith ev c.latestLine nested passed tags).run.run { cursor := c.entered, vars } = (.error e, after))
    : c.Leaves e after.cursor := by
  induction tags generalizing nested passed vars with
  | nil =>
    cases h
    exact .unclosed
  | cons tag tags ih =>
    obtain ⟨htag, htags⟩ := List.cons_subset.1 htags
    unfold seekBranchWith at h
    split at h
    . exact ih htags h
    . exact ih htags h
    . cases h
    . cases h
    . next helsif =>
      split at h
      . next hcondition =>
        cases h
        exact .missing htag helsif hcondition
      . next condition _ =>
        rw [run_bind, run_tryCatch, run_evaluateWith] at h
        have hreport := hev condition tag.line c.entered.parameters vars
        cases hrun : (ev condition tag.line c.entered.parameters).run.run vars with
        | mk result others =>
          rw [hrun] at h hreport
          cases result with
          | error fault =>
            obtain ⟨error, rfl⟩ := hreport fault rfl
            cases h
            exact .condition (.inr ⟨tag, htag, helsif, rfl⟩) error
          | ok value =>
            dsimp only at h
            split at h
            . cases h
            . exact ih htags h
    . exact ih htags h

theorem leaves_enterIfWith (hev : ev.Reports) {condition : String} {scene after : Scene} {e : CursorError}
    (h : (enterIfWith ev condition).run.run scene = (.error e, after)) : scene.cursor.Leaves e after.cursor := by
  unfold enterIfWith at h
  rw [run_get_bind, run_bind, run_evaluateWith] at h
  have hreport := hev condition scene.cursor.latestLine scene.cursor.parameters scene.vars
  cases hrun : (ev condition scene.cursor.latestLine scene.cursor.parameters).run.run scene.vars with
  | mk result vars =>
    rw [hrun] at h hreport
    cases result with
    | error fault =>
      obtain ⟨error, rfl⟩ := hreport fault rfl
      cases h
      exact .condition (.inl rfl) error
    | ok value =>
      dsimp only at h
      unfold modifyCursor at h
      rw [run_modify_bind] at h
      split at h
      . rw [run_get_bind] at h
        apply leaves_seekBranchWith hev _ h
        exact List.Subset.refl _
      . cases h

theorem endIf_entered (c : Cursor) (vars : Variables)
    : endIf.run.run { cursor := c.entered, vars } = (.ok (), { cursor := c, vars }) :=
  rfl

/--
A conditional that cannot be entered leaves the cursor as it was if, and only if, a condition has failed. In all other cases
the cursor is in one more conditional than before, and an end of a conditional that belongs to none is then obeyed.
-/
theorem enterIf_failed (condition : String) (scene : Scene)
    : (enterIf condition).run.run scene = (enterIfWith Expr.evaluateAt condition).run.run scene ∧
        ∀ ev : Evaluator, ev.Reports → ∀ e after, (enterIfWith ev condition).run.run scene = (.error e, after) →
          scene.cursor.Leaves e after.cursor ∧
            (after.cursor = scene.cursor ↔ ∃ line error, e = .expression line error) ∧
            (after.cursor ≠ scene.cursor → endIf.run.run after = (.ok (), { after with cursor := scene.cursor })) := by
  have hfaithful : Evaluator.Faithful scene.cursor.parameters Expr.evaluateAt := fun _ _ => rfl
  refine ⟨(hfaithful.run_enterIf_eq condition).symm, ?_⟩
  intro ev hev e after h
  have hleaves := leaves_enterIfWith hev h
  have hne : scene.cursor.entered ≠ scene.cursor := fun heq => Nat.succ_ne_self _ (congrArg Cursor.ifDepth heq)
  refine ⟨hleaves, ?_⟩
  obtain ⟨cursor, vars⟩ := after
  cases hleaves with
  | condition hline error => exact ⟨⟨fun _ => ⟨_, error, rfl⟩, fun _ => rfl⟩, fun hmoved => absurd rfl hmoved⟩
  | unclosed => exact ⟨⟨fun heq => absurd heq hne, nofun⟩, fun _ => endIf_entered _ _⟩
  | missing => exact ⟨⟨fun heq => absurd heq hne, nofun⟩, fun _ => endIf_entered _ _⟩

section Sample

/--
A cursor behind the start of a conditional that has no end.
-/
def sampleUnended : Cursor :=
  let start := Tag.make "if" [("exp", .string "false")] 1
  { file := "start.pon", tags := [start, .stop 2], maxDepth := 8, point := 1, latest := some start }

theorem parse_false : Expr.parse "false" = .ok (.literal (.bool false)) := by
  have htokens : Expr.tokenize false "false".toList = .ok [⟨.name "false", false⟩] := by
    apply eq_ok_of_toOption
    decide +kernel
  rw [Expr.parse_of_tokenize htokens]
  cbv

theorem evaluateAt_false (line : Nat) (parameters : Option Fields) (vars : Variables)
    : (Expr.evaluateAt "false" line parameters).run.run vars = (.ok (.bool false), vars) := by
  unfold Expr.evaluateAt
  rw [run_get_bind, Expr.evaluate_of_parse parse_false]
  rfl

theorem enterIf_sampleUnended
    : Evaluator.Reports Expr.evaluateAt ∧
        (enterIfWith Expr.evaluateAt "false").run.run { cursor := sampleUnended, vars := {} }
          = (.error (.branch 1 (.unclosed .ifThen)), { cursor := sampleUnended.entered, vars := {} }) ∧
        (enterIf "false").run.run { cursor := sampleUnended, vars := {} }
          = (.error (.branch 1 (.unclosed .ifThen)), { cursor := sampleUnended.entered, vars := {} }) ∧
        sampleUnended.ifDepth = 0 ∧ sampleUnended.entered.ifDepth = 1 ∧
        endIf.run.run { cursor := sampleUnended.entered, vars := {} } = (.ok (), { cursor := sampleUnended, vars := {} }) := by
  have hfailed : (enterIfWith Expr.evaluateAt "false").run.run { cursor := sampleUnended, vars := {} }
      = (.error (.branch 1 (.unclosed .ifThen)), { cursor := sampleUnended.entered, vars := {} }) := by
    unfold enterIfWith
    rw [run_get_bind, run_bind, run_evaluateWith, evaluateAt_false]
    rfl
  obtain ⟨hplain, hall⟩ := enterIf_failed "false" { cursor := sampleUnended, vars := {} }
  obtain ⟨_, _, hend⟩ := hall _ reports_evaluateAt _ _ hfailed
  have hmoved : sampleUnended.entered ≠ sampleUnended := fun heq => absurd (congrArg Cursor.ifDepth heq) (by decide)
  exact ⟨reports_evaluateAt, hfailed, hplain.trans hfailed, rfl, rfl, hend hmoved⟩

end Sample

end Play
end VisualNovel
