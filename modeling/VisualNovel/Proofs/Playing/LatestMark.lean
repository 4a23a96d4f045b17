import VisualNovel.Proofs.Playing.Saves

/-!
This module contains what a conductor takes for the latest save mark: the one that has been passed last in all of its life,
whether it has been played, or entered by a jump, a call or a save. The start of a script does not take it back.
-/

namespace VisualNovel

variable {H : Type} {α β : Type}

/--
The save mark that is passed when a script is entered.
-/
def Target.passed? (target : Target) (cursor : Cursor) : Option (String × String) :=
  match target, target.find cursor with
  | .saveMark name, .ok found => some (found.file, name)
  | _, _ => none

theorem Target.passed?_of_error {cursor : Cursor} {target : Target} {e : CursorError} (h : target.find cursor = .error e)
    : target.passed? cursor = none := by
  unfold passed?
  rw [h]
  cases target <;> rfl

namespace Conductor

variable {c : Conductor H}

/--
The save mark that is passed when a tag is played. A jump to another script passes none before that script has come.
-/
def passedAt? (c : Conductor H) (tag : Tag) : Option (String × String) :=
  match tag.directive?, c.cursor with
  | some .saveMark, cursor => some ((cursor.map Cursor.file).getD "", (tag.string? "name").getD "")
  | some .jump, some cursor | some .call, some cursor =>
    match ((tag.resolve cursor.parameters).run.run c.vars).1 with
    | .ok values =>
      match Conducting.otherScript values cursor with
      | some _ => none
      | none => (Conducting.targetOf values).passed? cursor.restart
    | .error _ => none
  | _, _ => none

/--
The save mark that is passed in a turn.
-/
def passed? (c : Conductor H) : Turn H → Option (String × String)
  | .play =>
    if c.status = .running then
      match Conducting.nextTag.run.run c with
      | (.ok (some tag), d) => d.passedAt? tag
      | _ => none
    else none
  | .wake =>
    if c.status = .asleep then
      match c.pending with
      | some (.load p _ target _ _) =>
        match c.reactor.outcome? p with
        | some (.done (some cursor)) => target.passed? cursor
        | _ => none
      | _ => none
    else none
  | _ => none

/-! ### Tags -/

theorem latestMark_entered {cursor found : Cursor} {target : Target} (h : target.find cursor = .ok found) (mode : EntryMode)
    : (c.entered target mode found).latestMark = (target.passed? cursor).or c.latestMark := by
  unfold entered Target.passed?
  rw [h]
  cases target <;> rfl

end Conductor

namespace Conducting

/--
A computation that leaves the latest save mark as it is.
-/
def Unmarking (x : Conducting H α) : Prop :=
  ∀ c, (x.run.run c).2.latestMark = c.latestMark

theorem Unmarking.bind {x : Conducting H α} {f : α → Conducting H β} (h : Unmarking x) (hnext : ∀ a, Unmarking (f a))
    : Unmarking (x >>= f) := by
  intro c
  have hx := h c
  rw [run_bind]
  cases hresult : x.run.run c with
  | mk result d =>
    rw [hresult] at hx
    cases result with
    | error e => exact hx
    | ok a => exact (hnext a d).trans hx

theorem Quiet.unmarking {x : Conducting H α} (h : Quiet x) : Unmarking x := by
  intro c
  obtain ⟨vars, hvars⟩ := h c
  rw [hvars]

theorem unmarking_onScene (p : Play α) : Unmarking (onScene p : Conducting H α) := by
  intro c
  cases hcursor : c.cursor with
  | none => rw [run_onScene_none p hcursor]
  | some cursor => rw [run_onScene_some p hcursor]

theorem unmarking_invoke (cue : Cue H) : Unmarking (invoke cue) := by
  intro c
  rw [run_invoke]
  cases (cue.action.run cue.tag cue.values).run.run { host := c.host, vars := c.vars, reactor := c.reactor } with
  | mk result stage =>
    cases result with
    | error message => rfl
    | ok response =>
      cases response with
      | proceed | pause => rfl
      | wait promise =>
        dsimp only
        rw [run_respond_wait]
        dsimp only
        cases stage.reactor.outcome? promise with
        | none => rfl
        | some outcome => cases outcome <;> rfl

theorem unmarking_runAction (tag : Tag) : Unmarking (runAction tag : Conducting H Unit) := by
  rw [runAction_eq_prepare]
  exact (quiet_prepare H tag).unmarking.bind unmarking_invoke

theorem unmarking_runScript (tag : Tag) : Unmarking (runScript tag : Conducting H Unit) := by
  unfold runScript
  apply (quiet_onVariables H _).unmarking.bind
  intro value
  split
  . exact fun _ => rfl
  . exact fun _ => rfl

theorem unmarking_back (tag : Tag) : Unmarking (back tag : Conducting H Unit) := by
  intro c
  unfold back
  rw [run_get_bind]
  cases c.callers <;> rfl

variable {c : Conductor H} {tag : Tag}

theorem latestMark_jump_of_none (hcursor : c.cursor = none) (tag : Tag) (mode : EntryMode)
    : ((jump tag mode).run.run c).2.latestMark = c.latestMark := by
  unfold jump resolve
  rw [run_bind, run_onVariables]
  cases ((Tag.resolve tag (c.cursor.bind Cursor.parameters)).run.run c.vars).1 with
  | error e => rfl
  | ok values =>
    dsimp only [Except.mapError]
    rw [run_get_bind]
    simp only [hcursor]
    split
    . rw [run_awaitScript]
      rfl
    . next h => cases h
    . rfl

theorem latestMark_jump {cursor : Cursor} (hcursor : c.cursor = some cursor) (tag : Tag) (mode : EntryMode)
    : ((jump tag mode).run.run c).2.latestMark
        =
      (match ((tag.resolve cursor.parameters).run.run c.vars).1 with
        | .ok values =>
          match otherScript values cursor with
          | some _ => none
          | none => (targetOf values).passed? cursor.restart
        | .error _ => none).or c.latestMark := by
  rw [run_jump hcursor]
  cases (tag.resolve cursor.parameters).run.run c.vars with
  | mk result vars =>
    cases result with
    | error e => rfl
    | ok values =>
      dsimp only
      cases otherScript values cursor with
      | some file => rfl
      | none =>
        dsimp only
        cases hfind : (targetOf values).find cursor.restart with
        | error e =>
          rw [Target.passed?_of_error hfind]
          rfl
        | ok found => exact Conductor.latestMark_entered hfind mode

theorem latestMark_dispatch (c : Conductor H) (tag : Tag)
    : ((dispatch tag).run.run c).2.latestMark = (c.passedAt? tag).or c.latestMark := by
  have hother {x : Conducting H Unit} (h : Unmarking x) (hnone : c.passedAt? tag = none)
      : (x.run.run c).2.latestMark = (c.passedAt? tag).or c.latestMark := by
    rw [hnone]
    exact h c
  unfold dispatch
  cases hdirective : tag.directive? with
  | none => exact hother (unmarking_runAction tag) (by simp only [Conductor.passedAt?, hdirective])
  | some directive =>
    cases directive with
    | char | lineBreak => exact hother (unmarking_runAction tag) (by simp only [Conductor.passedAt?, hdirective])
    | label | endDefine | stop => exact hother (fun _ => rfl) (by simp only [Conductor.passedAt?, hdirective])
    | saveMark =>
      simp only [Conductor.passedAt?, hdirective]
      rfl
    | script => exact hother (unmarking_runScript tag) (by simp only [Conductor.passedAt?, hdirective])
    | ifThen =>
      refine hother ?_ (by simp only [Conductor.passedAt?, hdirective])
      exact (quiet_requireString H _ _ _).unmarking.bind fun _ => unmarking_onScene _
    | elsif | otherwise | endIf | endFor | breakFor =>
      exact hother (unmarking_onScene _) (by simp only [Conductor.passedAt?, hdirective])
    | forLoop =>
      refine hother ?_ (by simp only [Conductor.passedAt?, hdirective])
      apply (quiet_onVariables H _).unmarking.bind
      intro values
      exact (quiet_loopCount H tag values).unmarking.bind fun _ => unmarking_onScene _
    | define =>
      refine hother ?_ (by simp only [Conductor.passedAt?, hdirective])
      apply (quiet_onVariables H _).unmarking.bind
      intro values
      apply (quiet_requireString H tag values _).unmarking.bind
      intro name
      exact (unmarking_onScene _).bind fun _ => fun _ => rfl
    | jump | call =>
      cases hcursor : c.cursor with
      | none =>
        simp only [Conductor.passedAt?, hdirective, hcursor]
        exact latestMark_jump_of_none hcursor tag _
      | some cursor =>
        simp only [Conductor.passedAt?, hdirective, hcursor]
        exact latestMark_jump hcursor tag _
    | back => exact hother (unmarking_back tag) (by simp only [Conductor.passedAt?, hdirective])

end Conducting

namespace Conductor

variable {c : Conductor H}

/-! ### Turns -/

theorem latestMark_play (hrunning : c.status = .running) : c.play.2.latestMark = (c.passed? .play).or c.latestMark := by
  unfold passed? play Conducting.step
  rw [if_pos hrunning, Conducting.run_orStop, run_bind]
  cases hnext : (Conducting.nextTag : Conducting H (Option Tag)).run.run c with
  | mk result d =>
    obtain ⟨cursor, vars, printed, rfl⟩ := exists_of_nextTag hnext
    cases result with
    | error e => rfl
    | ok answer =>
      cases answer with
      | none => rfl
      | some tag =>
        have hdispatch := Conducting.latestMark_dispatch { c with cursor, vars, printed } tag
        dsimp only at hdispatch ⊢
        rw [← hdispatch]
        generalize (Conducting.dispatch tag).run.run { c with cursor, vars, printed } = answer
        obtain ⟨result, d⟩ := answer
        cases result <;> rfl

theorem latestMark_wake (hasleep : c.status = .asleep) : c.wake.2.latestMark = (c.passed? .wake).or c.latestMark := by
  have hwakes := wakes_wake c
  generalize c.wake = answer at hwakes ⊢
  unfold passed?
  rw [if_pos hasleep]
  cases hwakes with
  | nothing hpending => rw [hpending]; rfl
  | @unsettled pending hpending hunsettled =>
    rw [hpending]
    cases pending with
    | wait => rfl
    | load p file target mode game =>
      change c.reactor.outcome? p = none at hunsettled
      dsimp only
      rw [hunsettled]
      rfl
  | done hpending | failed hpending => rw [hpending]; rfl
  | notLoaded hpending houtcome => simp only [hpending, houtcome]; rfl
  | @noCursor _ _ _ _ game hpending houtcome =>
    simp only [hpending, houtcome]
    cases game <;> rfl
  | notFound hpending houtcome hfind =>
    simp only [hpending, houtcome, Target.passed?_of_error hfind]
    rfl
  | @found _ _ _ mode game _ _ hpending houtcome hfind =>
    have hentered := latestMark_entered (c := { c with pending := none }) hfind mode
    simp only [hpending, houtcome]
    cases game <;> exact hentered

/--
A turn that passes a save mark makes it the latest one, and no other turn changes the latest one.
-/
theorem latestMark_turn (c : Conductor H) (t : Turn H) : (c.turn t).latestMark = (c.passed? t).or c.latestMark := by
  cases t with
  | wake =>
    rw [turn_wake]
    by_cases hasleep : c.status = .asleep
    . rw [if_pos hasleep, latestMark_wake hasleep]
    . rw [if_neg hasleep, passed?, if_neg hasleep]
      rfl
  | play =>
    rw [turn_play]
    by_cases hrunning : c.status = .running
    . rw [if_pos hrunning, latestMark_play hrunning]
    . rw [if_neg hrunning, passed?, if_neg hrunning]
      rfl
  | startScript file label =>
    change (c.startScript file label).2.latestMark = _
    obtain ⟨e, heq⟩ | ⟨found, heq⟩ := startScript_cases file label c <;> rw [heq] <;> rfl
  | resume =>
    change c.resume.latestMark = _
    unfold resume
    split <;> rfl
  | restore save =>
    change (c.restore save).latestMark = _
    rw [restore_eq]
    rfl
  | stop | tick | settle | arrange => rfl

end Conductor

/-! ### Lives -/

/--
What matters to the latest save mark: a script is started, or a save mark is passed.
-/
inductive Milestone where
  | started
  | passed (mark : String × String)
  deriving DecidableEq

namespace Milestone

def mark? : Milestone → Option (String × String)
  | .started => none
  | .passed mark => some mark

/--
The save mark that is passed last.
-/
def lastMark? (ms : List Milestone) : Option (String × String) :=
  (ms.filterMap mark?).getLast?

/--
What has come after the last start.
-/
def current : List Milestone → List Milestone
  | [] => []
  | m :: ms => if .started ∈ ms then current ms else if m = .started then ms else m :: ms

theorem lastMark?_append (ms more : List Milestone) : lastMark? (ms ++ more) = (lastMark? more).or (lastMark? ms) := by
  rw [lastMark?, List.filterMap_append, List.getLast?_append]
  rfl

theorem exists_append_current (ms : List Milestone) : ∃ before, ms = before ++ current ms := by
  induction ms with
  | nil => exact ⟨[], rfl⟩
  | cons m ms ih =>
    unfold current
    split
    . obtain ⟨before, hbefore⟩ := ih
      exact ⟨m :: before, by rw [List.cons_append, ← hbefore]⟩
    . split
      . exact ⟨[m], rfl⟩
      . exact ⟨[], rfl⟩

/--
What has been passed last has been passed after the last start, unless nothing has been passed since then.
-/
theorem lastMark?_eq_current_iff (ms : List Milestone)
    : lastMark? ms = lastMark? (current ms) ↔ (lastMark? (current ms)).isSome ∨ lastMark? ms = none := by
  obtain ⟨before, hbefore⟩ := exists_append_current ms
  have happend := congrArg lastMark? hbefore
  rw [lastMark?_append] at happend
  cases hcurrent : lastMark? (current ms) with
  | none => simp
  | some mark =>
    rw [hcurrent] at happend
    simp [happend]

end Milestone

namespace Conductor

/--
Does a script start in the turn?
-/
def starts (c : Conductor H) : Turn H → Bool
  | .startScript file label => (c.startScript file label).1.toOption.isSome
  | _ => false

def milestone? (c : Conductor H) (t : Turn H) : Option Milestone :=
  if c.starts t then some .started else (c.passed? t).map .passed

def milestones (c : Conductor H) : List (Turn H) → List Milestone
  | [] => []
  | t :: ts => (c.milestone? t).toList ++ (c.turn t).milestones ts

theorem lastMark?_milestone? (c : Conductor H) (t : Turn H) : Milestone.lastMark? (c.milestone? t).toList = c.passed? t := by
  unfold milestone?
  split
  . next hstarts =>
    cases t with
    | startScript => rfl
    | _ => cases hstarts
  . cases c.passed? t <;> rfl

theorem latestMark_turns (c : Conductor H) (ts : List (Turn H))
    : (c.turns ts).latestMark = (Milestone.lastMark? (c.milestones ts)).or c.latestMark := by
  induction ts generalizing c with
  | nil => rfl
  | cons t ts ih =>
    rw [turns_cons, ih, latestMark_turn, milestones, Milestone.lastMark?_append, lastMark?_milestone?, Option.or_assoc]

/--
After any turns of a new conductor, the latest save mark and the save that is made of it are those of the save mark that has
been passed last since the conductor is new. It belongs to the script that has been started last exactly if a save mark has
been passed since then, or none ever.
-/
theorem latestMark_eq_lastMark (host : H) (actions : List (String × Action H)) (library : Library) (ts : List (Turn H))
    : let c : Conductor H := { host, actions, library }
      let d := c.turns ts
      let ms := c.milestones ts
      d.latestMark = Milestone.lastMark? ms ∧
        d.snapshot = (Milestone.lastMark? ms).map (fun (file, mark) => { file, mark, game := d.vars.game }) ∧
        (d.latestMark = Milestone.lastMark? (Milestone.current ms) ↔
          (Milestone.lastMark? (Milestone.current ms)).isSome ∨ Milestone.lastMark? ms = none) := by
  intro c d ms
  have hlatest : d.latestMark = Milestone.lastMark? ms := by
    rw [latestMark_turns, Option.or_none]
  refine ⟨hlatest, ?_, ?_⟩
  . rw [snapshot, hlatest]
  . rw [hlatest]
    exact Milestone.lastMark?_eq_current_iff ms

section Sample

/--
The script is started once more, when its save mark has been passed.
-/
theorem latestMark_restarted
    : let c := newcomer promptAction [("a", markedTags)]
      let ts : List (Turn Nat) := [.startScript "a" none, .play, .startScript "a" none]
      (c.turns ts).latestMark = some ("a", "m") ∧ Milestone.lastMark? (Milestone.current (c.milestones ts)) = none := by
  intro c ts
  have hnext : Conducting.nextTag.run.run marking
      = (.ok (some (.saveMark "m" "" "" 1)), { marking with cursor := passed.cursor }) := by
    rw [Conducting.run_nextTag_some rfl rfl, Cursor.next_of_tag rfl rfl]
    rfl
  have hrunning : marking.status = .running := rfl
  have hpassed : marking.passed? .play = some ("a", "m") := by
    rw [passed?, if_pos hrunning, hnext]
    rfl
  have hplay : marking.turn .play = passed := by
    rw [turn_play, if_pos hrunning, play_of_tag hnext]
    rfl
  have hms : c.milestones ts = [.started, .passed ("a", "m"), .started] := by
    have hfirst : c.milestone? (.startScript "a" none) = some .started := rfl
    have hsecond : marking.milestone? .play = some (.passed ("a", "m")) := by
      rw [milestone?, hpassed]
      rfl
    have hthird : passed.milestone? (.startScript "a" none) = some .started := rfl
    change (c.milestone? (.startScript "a" none)).toList ++ ((marking.milestone? .play).toList ++
      (((marking.turn .play).milestone? (.startScript "a" none)).toList ++ [])) = _
    rw [hfirst, hsecond, hplay, hthird]
    rfl
  have hlatest : (c.turns ts).latestMark = Milestone.lastMark? (c.milestones ts) :=
    (latestMark_eq_lastMark 0 c.actions c.library ts).1
  rw [hms] at hlatest ⊢
  exact ⟨hlatest, rfl⟩

end Sample

end Conductor
end VisualNovel
