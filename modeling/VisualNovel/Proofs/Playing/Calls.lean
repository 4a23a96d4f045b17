import VisualNovel.Proofs.Playing.Verdict
import VisualNovel.Proofs.Promises

/-!
This module contains the calls of actions that a conductor makes. A tag is prepared up to the call, and what the
action answers comes after it. A run of a conductor is what its host does with it, with all calls on the way.
-/

namespace VisualNovel

/--
A call of an action: the tag with its checked values, and where the conductor is then.
-/
structure Call where
  tag : Tag
  values : Fields
  vars : Variables
  cursor : Option Cursor
  callers : List Cursor
  printed : List Tag

/--
What comes of a tag: its action is called, or the conductor gives up on it.
-/
inductive Happening where
  | call (call : Call)
  | fault (e : ConductorError)

def Happening.call? : Happening → Option Call
  | .call c => some c
  | .fault _ => none

structure Cue (H : Type) where
  tag : Tag
  action : Action H
  values : Fields

def Cue.call {H : Type} (cue : Cue H) (c : Conductor H) : Call := {
  tag := cue.tag
  values := cue.values
  vars := c.vars
  cursor := c.cursor
  callers := c.callers
  printed := c.printed
}

namespace Conducting

variable {H : Type}

def prepare (tag : Tag) : Conducting H (Cue H) := do
  let some action := (← get).actions.lookup tag.name | throw (.unknownTag tag.name tag.line)
  match Parameter.validate action.parameters (← resolve tag) with
  | .error e => throw (.parameter tag.name tag.line e)
  | .ok values => return { tag, action, values }

def respond (tag : Tag) : Response → Conducting H Unit
  | .proceed => pure ()
  | .pause => modify fun c => { c with status := .stopped }
  | .wait promise => do
    match (← get).reactor.outcome? promise with
    | none =>
      modify fun c => { c with pending := some (.wait promise tag.name tag.line), status := .asleep }
    | some (.done _) => pure ()
    | some (.failed fault) => throw (.action tag.name tag.line fault.message)

def invoke (cue : Cue H) : Conducting H Unit := do
  let c ← get
  let (result, stage) := (cue.action.run cue.tag cue.values).run.run
    { host := c.host, vars := c.vars, reactor := c.reactor }
  set { c with host := stage.host, vars := stage.vars, reactor := stage.reactor }
  match result with
  | .error message => throw (.action cue.tag.name cue.tag.line message)
  | .ok response => respond cue.tag response

/--
All that is done with a tag before an action is called.
-/
def pickUp : Conducting H (Option (Cue H)) := do
  match ← decide with
  | .play tag => return some (← prepare tag)
  | v => do
    execute v
    return none

theorem ext_run {α : Type} {x y : Conducting H α} (h : ∀ c, x.run.run c = y.run.run c) : x = y :=
  funext h

theorem run_respond_wait (tag : Tag) (promise : Nat) (c : Conductor H)
    : (respond tag (.wait promise)).run.run c
        =
      match c.reactor.outcome? promise with
      | none =>
        (.ok (), { c with pending := some (.wait promise tag.name tag.line), status := .asleep })
      | some (.done _) => (.ok (), c)
      | some (.failed fault) => (.error (ConductorError.action tag.name tag.line fault.message), c) := by
  unfold respond
  rw [run_get_bind]
  cases c.reactor.outcome? promise with
  | none => rfl
  | some outcome => cases outcome <;> rfl

theorem runAction_eq_prepare (tag : Tag)
    : (runAction tag : Conducting H Unit) = prepare tag >>= invoke := by
  apply ext_run
  intro c
  unfold runAction prepare
  rw [bind_assoc, run_get_bind, run_get_bind]
  cases c.actions.lookup tag.name with
  | none => rfl
  | some action =>
    dsimp only
    rw [bind_assoc, run_bind, run_bind]
    cases (resolve tag).run.run c with
    | mk result d =>
      cases result with
      | error e => rfl
      | ok values =>
        dsimp only
        cases Parameter.validate action.parameters values with
        | error e => rfl
        | ok values =>
          dsimp only
          rw [pure_bind]
          unfold invoke
          rw [run_get_bind, run_get_bind]
          dsimp only
          generalize (action.run tag values).run.run _ = answer
          obtain ⟨result, stage⟩ := answer
          cases result with
          | error message => rfl
          | ok response =>
            cases response with
            | proceed => rfl
            | pause => rfl
            | wait promise =>
              dsimp only
              rw [run_set_bind, run_set_bind, run_respond_wait]
              cases stage.reactor.outcome? promise with
              | none => rfl
              | some outcome => cases outcome <;> rfl

end Conducting

namespace Conductor

variable {H : Type}

def happening? (c : Conductor H) : Option Happening :=
  match Conducting.pickUp.run.run c with
  | (.ok (some cue), d) => some (.call (cue.call d))
  | (.ok none, _) => none
  | (.error e, _) => some (.fault e)

def playHappenings : Nat → Conductor H → List Happening
  | 0, _ => []
  | limit + 1, c =>
    if c.status = .running then
      c.happening?.toList ++
        match (Conducting.orStop Conducting.step).run.run c with
        | (.ok _, d) => playHappenings limit d
        | (.error _, _) => []
    else
      []

def conductHappenings (limit : Nat) (c : Conductor H) : List Happening :=
  if c.status = .asleep then
    match (Conducting.orStop Conducting.wake).run.run c with
    | (.ok _, d) => d.playHappenings limit
    | (.error _, _) => []
  else
    c.playHappenings limit

/--
What a host does with a conductor in any order: it lets it play, resumes it, ticks, and settles promises, but
not the promise of a script that is being loaded, which nobody else has been given.
-/
inductive Run : Conductor H → List Happening → Conductor H → Prop where
  | nothing (c : Conductor H) : Run c [] c
  | conduct (limit : Nat) {c d : Conductor H} {happenings : List Happening}
    (later : Run (c.conduct limit).2 happenings d) : Run c (c.conductHappenings limit ++ happenings) d
  | resume {c d : Conductor H} {happenings : List Happening} (later : Run c.resume happenings d)
    : Run c happenings d
  | tick (now : Nat) {c d : Conductor H} {happenings : List Happening}
    (later : Run (c.modifyReactor fun r => (r.tick now).2) happenings d) : Run c happenings d
  | settle (promise : Nat) (outcome : Outcome Cursor) {c d : Conductor H} {happenings : List Happening}
    (hother : ∀ p file target mode game, c.pending = some (.load p file target mode game) → promise ≠ p)
    (later : Run (c.modifyReactor fun r => (r.resolve promise outcome).2) happenings d) : Run c happenings d

namespace Run

theorem trans {c d e : Conductor H} {happenings happenings' : List Happening} (h : Run c happenings d)
    (h' : Run d happenings' e) : Run c (happenings ++ happenings') e := by
  induction h with
  | nothing => exact h'
  | conduct limit _ ih =>
    rw [List.append_assoc]
    exact conduct limit (ih h')
  | resume _ ih => exact resume (ih h')
  | tick now _ ih => exact tick now (ih h')
  | settle promise outcome hother _ ih => exact settle promise outcome hother (ih h')

end Run
end Conductor
end VisualNovel
