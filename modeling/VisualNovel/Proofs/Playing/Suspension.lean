import VisualNovel.Proofs.Playing.Entering

/-!
This module contains the simulation of a conductor on any host by the course of its script. To play a tag is to
go to the next moment. All else that a host does with a conductor leaves it at its moment.
-/

namespace VisualNovel

variable {H K : Type}

namespace Conductor

/--
What holds of a conductor whenever its host has a turn: it waits only in its sleep, and its reactor refers to
promises that have been made.
-/
structure Sound (view : K → H) (deeds : String → Option (Deed H)) (c : Conductor K) : Prop where
  realizes : Realizes view deeds c.actions
  closed : c.reactor.Closed
  asleep : c.pending ≠ none → c.status = .asleep
  script : c.cursor ≠ none
  waits : ∀ p tag line, c.pending = some (.wait p tag line) → p < c.reactor.promises.length

/--
A conductor stands at a moment, or it waits for the script in which it will be at that moment.
-/
inductive At (view : K → H) (c : Conductor K) : Conductor H → Prop where
  | here (hload : ∀ p file target mode game, c.pending ≠ some (.load p file target mode game))
    : At view c (c.moment view)
  | loading {p : Nat} {file : String} {target : Target} {mode : EntryMode} {o : Outcome Cursor}
    (hpending : c.pending = some (.load p file target mode none)) (hp : p < c.reactor.promises.length)
    (hkeeps : c.reactor.Keeps p o)
    (hdue : c.reactor.outcome? p ≠ none ∨ Job.settle p o ∈ c.reactor.queue)
    : At view c ((c.moment view).arrive o target mode)

variable {view : K → H} {deeds : String → Option (Deed H)} {c d : Conductor K} {m : Conductor H}

theorem At.of_pending_none (h : c.pending = none) : At view c (c.moment view) :=
  At.here (by simp [h])

theorem At.eq_moment (h : At view c m) (hpending : c.pending = none) : m = c.moment view := by
  cases h with
  | here => rfl
  | loading hload => rw [hpending] at hload; cases hload

theorem Sound.pending_eq_none (h : Sound view deeds c) (hstatus : c.status ≠ .asleep) : c.pending = none := by
  cases hpending : c.pending with
  | none => rfl
  | some pending => exact absurd (h.asleep (by simp [hpending])) hstatus

theorem Sound.of_surroundings (h : Sound view deeds c) (hsame : d.surroundings = c.surroundings)
    (hscript : d.cursor ≠ none) : Sound view deeds d := by
  have hactions : d.actions = c.actions := congrArg Surroundings.actions hsame
  have hreactor : d.reactor = c.reactor := congrArg Surroundings.reactor hsame
  have hstatus : d.status = c.status := congrArg Surroundings.status hsame
  have hpending : d.pending = c.pending := congrArg Surroundings.pending hsame
  constructor
  . rw [hactions]
    exact h.realizes
  . rw [hreactor]
    exact h.closed
  . rw [hpending, hstatus]
    exact h.asleep
  . exact hscript
  . rw [hpending, hreactor]
    exact h.waits

theorem pending_eq_none_of_surroundings (hsame : d.surroundings = c.surroundings) (h : c.pending = none)
    : d.pending = none := by
  rw [← h]
  exact congrArg Surroundings.pending hsame

theorem Sound.with_status (h : Sound view deeds c) (hpending : c.pending = none) (status : Status)
    : Sound view deeds { c with status } :=
  { h with asleep := fun hother => absurd hpending hother }

theorem Sound.awake (h : Sound view deeds c) (status : Status)
    : Sound view deeds { c with status, pending := none } :=
  { h with asleep := fun hother => absurd rfl hother, waits := fun _ _ _ hother => by cases hother }

/-! ### A tag -/

/--
A tag has been played as the moment goes on: the same has come of it, and the conductor is at the next moment.
-/
structure Follows (view : K → H) (deeds : String → Option (Deed H)) (next : Option Happening × Conductor H)
    (happening : Option Happening) (d : Conductor K) : Prop where
  happening : happening = next.1
  sound : Sound view deeds d
  at_next : At view d next.2

theorem Sound.follows (h : Sound view deeds c) (hpending : c.pending = none) (status : Status)
    (happening : Option Happening)
    : Follows view deeds (happening, c.moment view) happening { c with status } :=
  ⟨rfl, h.with_status hpending status, At.of_pending_none hpending⟩

end Conductor

namespace Conducting

open Conductor

variable {view : K → H} {deeds : String → Option (Deed H)} {c : Conductor K}

theorem follows_awaitScript (hsound : Sound view deeds c) (file : String) (target : Target) (mode : EntryMode)
    : Follows view deeds
        (none, arrive (Library.outcomeOf (c.library.load file).1) target mode
          { c.moment view with library := (c.library.load file).2 })
        none ((orStop (awaitScript file target mode none)).run.run c).2 := by
  rw [run_orStop, run_awaitScript]
  refine ⟨rfl, ?_, ?_⟩
  . constructor
    . exact hsound.realizes
    . exact hsound.closed.job _
    . exact fun _ => rfl
    . exact hsound.script
    . intro p tag line hwait
      cases hwait
  . have hexpects := hsound.closed.expects (Library.outcomeOf (c.library.load file).1)
    exact At.loading rfl hexpects.made hexpects.keeps hexpects.due

theorem run_invoke (cue : Cue H) (c : Conductor H)
    : (invoke cue).run.run c
        =
      match (cue.action.run cue.tag cue.values).run.run
        { host := c.host, vars := c.vars, reactor := c.reactor } with
      | (.error message, stage) =>
        (.error (ConductorError.action cue.tag.name cue.tag.line message),
          { c with host := stage.host, vars := stage.vars, reactor := stage.reactor })
      | (.ok response, stage) =>
        (respond cue.tag response).run.run
          { c with host := stage.host, vars := stage.vars, reactor := stage.reactor } := by
  unfold invoke
  rw [run_get_bind]
  generalize (cue.action.run cue.tag cue.values).run.run _ = answer
  obtain ⟨result, stage⟩ := answer
  cases result <;> rfl

theorem follows_respond (hsound : Sound view deeds c) (hpending : c.pending = none) (tag : Tag)
    (response : Response) (hwait : ∀ p, response = .wait p → p < c.reactor.promises.length)
    (happening : Option Happening)
    : Follows view deeds (happening, c.moment view) happening
        ((orStop (respond tag response)).run.run c).2 := by
  rw [run_orStop]
  cases response with
  | proceed => exact hsound.follows hpending c.status happening
  | pause => exact hsound.follows hpending .stopped happening
  | wait p =>
    rw [run_respond_wait]
    cases c.reactor.outcome? p with
    | none =>
      refine ⟨rfl, ?_, At.here ?_⟩
      . refine { hsound with asleep := fun _ => rfl, waits := ?_ }
        intro q name line hq
        cases hq
        exact hwait p rfl
      . intro q file target mode game hload
        cases hload
    | some outcome =>
      cases outcome with
      | done value => exact hsound.follows hpending c.status happening
      | failed fault => exact hsound.follows hpending .stopped happening

def prepared (result : Except ConductorError (Cue K) × Conductor K) : Option Happening :=
  match result with
  | (.ok cue, d) => some (.call (cue.call d))
  | (.error e, _) => some (.fault e)

theorem decide_moment (view : K → H) (c : Conductor K)
    : (decide : Conducting H Verdict).run.run (c.moment view)
        =
      ((decide.run.run c).1, (decide.run.run c).2.moment view) :=
  detached_decide.moment detached_decide view c

theorem resolve_moment (view : K → H) (tag : Tag) (c : Conductor K)
    : (resolve tag : Conducting H Fields).run.run (c.moment view)
        =
      (((resolve tag).run.run c).1, ((resolve tag).run.run c).2.moment view) :=
  (detached_onVariables H K _).moment (detached_onVariables K K _) view c

theorem follows_invoke (hsound : Sound view deeds c) (hpending : c.pending = none) {deed : Deed H}
    {cue : Cue K} (hdoes : cue.action.Does view deed)
    : Follows view deeds
        (some (.call (cue.call c)),
          { c.moment view with
            host := (deed.run cue.tag cue.values (view c.host) c.vars).1
            vars := (deed.run cue.tag cue.values (view c.host) c.vars).2 })
        (some (.call (cue.call c))) ((orStop (invoke cue)).run.run c).2 := by
  have heffect := hdoes.effect cue.tag cue.values { host := c.host, vars := c.vars, reactor := c.reactor }
  have hclosed := hdoes.closed cue.tag cue.values { host := c.host, vars := c.vars, reactor := c.reactor }
    hsound.closed
  have hwaits := hdoes.waits cue.tag cue.values { host := c.host, vars := c.vars, reactor := c.reactor }
  -- the deed says what the action does to all that shows at the moment
  rw [run_orStop, run_invoke]
  cases hanswer : (cue.action.run cue.tag cue.values).run.run
      { host := c.host, vars := c.vars, reactor := c.reactor } with
  | mk result stage =>
    rw [hanswer] at heffect hclosed hwaits
    dsimp only at heffect hclosed hwaits
    rw [← heffect]
    have hsound' : Sound view deeds
        { c with host := stage.host, vars := stage.vars, reactor := stage.reactor } := by
      refine { hsound with closed := hclosed, waits := ?_ }
      intro p tag line hwait
      rw [show c.pending = some (.wait p tag line) from hwait] at hpending
      cases hpending
    cases result with
    | error message => exact hsound'.follows hpending .stopped _
    | ok response =>
      have h := follows_respond hsound' hpending cue.tag response (fun p hp => hwaits p (by rw [hp]))
        (some (.call (cue.call c)))
      rw [run_orStop] at h
      exact h

theorem follows_runAction (hsound : Sound view deeds c) (hpending : c.pending = none) (tag : Tag)
    : Follows view deeds ((c.moment view).nextCall deeds tag) (prepared ((prepare tag).run.run c))
        ((orStop (runAction tag)).run.run c).2 := by
  have hreal := hsound.realizes tag.name
  have hresolve := resolve_moment view tag c
  rw [runAction_eq_prepare, run_orStop, run_bind]
  unfold nextCall prepare
  rw [run_get_bind]
  cases hdeed : deeds tag.name with
  | none =>
    cases haction : c.actions.lookup tag.name with
    | none => exact hsound.follows hpending .stopped _
    | some action => simp only [hdeed, haction] at hreal
  | some deed =>
    cases haction : c.actions.lookup tag.name with
    | none => simp only [hdeed, haction] at hreal
    | some action =>
      simp only [hdeed, haction] at hreal
      rw [hresolve, run_bind]
      have hsame : ((resolve tag).run.run c).2.surroundings = c.surroundings :=
        (detached_onVariables K K _).surroundings c
      have hscript : ((resolve tag).run.run c).2.cursor ≠ none :=
        (detached_onVariables K K _).script c hsound.script
      cases hvalues : (resolve tag).run.run c with
      | mk result d =>
        rw [hvalues] at hsame hscript
        have hsound' : Sound view deeds d :=
          hsound.of_surroundings hsame hscript
        have hpending' := pending_eq_none_of_surroundings hsame hpending
        cases result with
        | error e => exact hsound'.follows hpending' .stopped _
        | ok values =>
          dsimp only
          rw [hreal.parameters]
          cases hvalid : Parameter.validate deed.parameters values with
          | error e => exact hsound'.follows hpending' .stopped _
          | ok values =>
            have hdoes : (Cue.mk tag action values).action.Does view deed := hreal
            have h := follows_invoke hsound' hpending' hdoes
            rw [run_orStop] at h
            exact h

/--
To play a tag is to go to the next moment.
-/
theorem follows_step (hsound : Sound view deeds c) (hpending : c.pending = none)
    : Follows view deeds ((c.moment view).next deeds) c.happening? ((orStop step).run.run c).2 := by
  have hdecide := decide_moment view c
  have hsame := (detached_decide (K := K) (H := K)).surroundings c
  have hscript := (detached_decide (K := K) (H := K)).script c hsound.script
  rw [step_eq_decide, run_orStop, run_bind]
  unfold next happening? pickUp
  rw [hdecide, run_bind]
  cases hv : decide.run.run c with
  | mk result d =>
    rw [hv] at hsame hscript
    have hsound' : Sound view deeds d := hsound.of_surroundings hsame hscript
    have hpending' := pending_eq_none_of_surroundings hsame hpending
    cases result with
    | error e => exact hsound'.follows hpending' .stopped _
    | ok v =>
      cases v with
      | goOn => exact hsound'.follows hpending' d.status _
      | stop => exact hsound'.follows hpending' .stopped _
      | load file target mode =>
        have h := follows_awaitScript hsound' file target mode
        rw [run_orStop] at h
        exact h
      | play tag =>
        have h := follows_runAction hsound' hpending' tag
        rw [run_orStop] at h
        dsimp only
        rw [run_bind]
        cases hprepare : (prepare tag).run.run d with
        | mk prepared e =>
          rw [hprepare] at h
          cases prepared with
          | error fault => exact h
          | ok cue => exact h

/-! ### All else -/

theorem at_wake {m : Conductor H} (hsound : Sound view deeds c) (hat : At view c m)
    : Sound view deeds ((orStop wake).run.run c).2 ∧ At view ((orStop wake).run.run c).2 m := by
  have hwakes := wakes_wake c
  change Sound view deeds c.wake.2 ∧ At view c.wake.2 m
  have hwait {p line : Nat} {tag : String} (hpending : c.pending = some (.wait p tag line)) : m = c.moment view := by
    cases hat with
    | here => rfl
    | loading hload => cases hpending.symm.trans hload
  have hload {p : Nat} {file : String} {target : Target} {mode : EntryMode} {game : Option Fields}
      {outcome : Outcome Cursor} (hpending : c.pending = some (.load p file target mode game))
      (houtcome : c.reactor.outcome? p = some outcome)
      : game = none ∧ m = (c.moment view).arrive outcome target mode := by
    cases hat with
    | here hload => exact absurd hpending (hload p file target mode game)
    | loading hload _ hkeeps =>
      cases hpending.symm.trans hload
      -- nobody else has settled this promise, so what has come is what the moment has arrived with
      rw [hkeeps.outcome outcome houtcome]
      exact ⟨rfl, rfl⟩
  generalize c.wake = answer at hwakes ⊢
  cases hwakes with
  | nothing hpending =>
    rw [hat.eq_moment hpending]
    exact ⟨hsound.with_status hpending .running, At.of_pending_none hpending⟩
  | unsettled => exact ⟨hsound, hat⟩
  | done hpending =>
    rw [hwait hpending]
    exact ⟨hsound.awake .running, At.of_pending_none rfl⟩
  | failed hpending =>
    rw [hwait hpending]
    exact ⟨hsound.awake .stopped, At.of_pending_none rfl⟩
  | notLoaded hpending houtcome =>
    rw [(hload hpending houtcome).2]
    exact ⟨hsound.awake .stopped, At.of_pending_none rfl⟩
  | noCursor hpending houtcome =>
    obtain ⟨rfl, rfl⟩ := hload hpending houtcome
    exact ⟨hsound.awake .running, At.of_pending_none rfl⟩
  | notFound hpending houtcome hfind =>
    rw [(hload hpending houtcome).2]
    unfold arrive
    dsimp only
    rw [run_enter, hfind]
    exact ⟨hsound.awake .stopped, At.of_pending_none rfl⟩
  | found hpending houtcome hfind =>
    obtain ⟨rfl, rfl⟩ := hload hpending houtcome
    unfold arrive
    dsimp only
    rw [run_enter, hfind]
    have hentered := hsound.awake .running
    exact ⟨{ hentered with script := Option.some_ne_none _ }, At.of_pending_none rfl⟩

end Conducting

namespace Conductor

variable {view : K → H} {deeds : String → Option (Deed H)} {c : Conductor K} {m : Conductor H}

theorem at_resume (hsound : Sound view deeds c) (hat : At view c m)
    : Sound view deeds c.resume ∧ At view c.resume m := by
  unfold resume
  split
  . next hresume =>
    have hstatus : c.status = .stopped := by
      simp at hresume
      exact hresume.1
    have hpending := hsound.pending_eq_none (by simp [hstatus])
    rw [hat.eq_moment hpending]
    exact ⟨hsound.with_status hpending .running, At.of_pending_none hpending⟩
  . exact ⟨hsound, hat⟩

theorem Sound.modifyReactor (hsound : Sound view deeds c) {f : Reactor Cursor → Reactor Cursor}
    (hclosed : (f c.reactor).Closed) (hextends : c.reactor.Extends (f c.reactor))
    : Sound view deeds (c.modifyReactor f) :=
  { hsound with
    closed := hclosed
    waits := fun p tag line hwait => Nat.lt_of_lt_of_le (hsound.waits p tag line hwait) hextends.length_le }

theorem at_tick (now : Nat) (hsound : Sound view deeds c) (hat : At view c m)
    : Sound view deeds (c.modifyReactor fun r => (r.tick now).2) ∧
        At view (c.modifyReactor fun r => (r.tick now).2) m := by
  have hextends := c.reactor.tick_extends now
  refine ⟨hsound.modifyReactor (hsound.closed.tick now) hextends, ?_⟩
  cases hat with
  | here hload => exact At.here hload
  | loading hload hp hkeeps hdue =>
    exact At.loading hload (Nat.lt_of_lt_of_le hp hextends.length_le) (hkeeps.tick now fun _ => hp)
      (Or.inl (Reactor.tick_settles hp hdue now))

theorem at_settle (q : Nat) (outcome : Outcome Cursor)
    (hother : ∀ p file target mode game, c.pending = some (.load p file target mode game) → q ≠ p)
    (hsound : Sound view deeds c) (hat : At view c m)
    : Sound view deeds (c.modifyReactor fun r => (r.resolve q outcome).2) ∧
        At view (c.modifyReactor fun r => (r.resolve q outcome).2) m := by
  have hextends := c.reactor.resolve_extends q outcome
  refine ⟨hsound.modifyReactor (hsound.closed.resolve q outcome) hextends, ?_⟩
  cases hat with
  | here hload => exact At.here hload
  | loading hload hp hkeeps hdue =>
    exact At.loading hload (Nat.lt_of_lt_of_le hp hextends.length_le)
      (hkeeps.resolve (hother _ _ _ _ _ hload) outcome fun _ => hp)
      (Reactor.resolve_keeps_job hp hdue q outcome)

/-! ### Runs -/

/--
Some tags have been played: what came of them is what comes of the moments up to that of the conductor.
-/
def Reaches (view : K → H) (deeds : String → Option (Deed H)) (m : Conductor H) (happenings : List Happening)
    (d : Conductor K) : Prop :=
  ∃ n, happenings = m.happenings deeds n ∧ Sound view deeds d ∧ At view d (m.after deeds n)

theorem reaches_playOn (limit : Nat) (hsound : Sound view deeds c) (hat : At view c m)
    : Reaches view deeds m (c.playHappenings limit) ((Conducting.playOn limit).run.run c).2 := by
  induction limit generalizing c m with
  | zero => exact ⟨0, rfl, hsound, hat⟩
  | succ limit ih =>
    rw [run_playOn_succ, playHappenings]
    by_cases hrunning : c.status = .running
    . rw [if_pos hrunning, if_pos hrunning]
      have hpending := hsound.pending_eq_none (by simp [hrunning])
      have hfollows := Conducting.follows_step hsound hpending
      rw [← hat.eq_moment hpending] at hfollows
      cases hstep : (Conducting.orStop Conducting.step).run.run c with
      | mk result d =>
        rw [hstep] at hfollows
        cases result with
        | error e =>
          refine ⟨1, ?_, hfollows.sound, hfollows.at_next⟩
          rw [happenings, hfollows.happening]
          rfl
        | ok =>
          obtain ⟨n, heq, hsound', hat'⟩ := ih hfollows.sound hfollows.at_next
          refine ⟨n + 1, ?_, hsound', hat'⟩
          dsimp only
          rw [happenings, hfollows.happening, heq]
    . rw [if_neg hrunning, if_neg hrunning]
      exact ⟨0, rfl, hsound, hat⟩

theorem run_conduct (limit : Nat) (c : Conductor H)
    : (c.conduct limit).2
        =
      if c.status = .asleep then
        match (Conducting.orStop Conducting.wake).run.run c with
        | (.ok _, d) => ((Conducting.playOn limit).run.run d).2
        | (.error _, d) => d
      else
        ((Conducting.playOn limit).run.run c).2 := by
  have hplay (d : Conductor H) : (d.playOn limit).2 = ((Conducting.playOn limit).run.run d).2 := by
    unfold playOn
    cases (Conducting.playOn limit).run.run d with
    | mk result d => cases result <;> rfl
  rw [conduct_eq]
  split
  . unfold wake
    cases (Conducting.orStop Conducting.wake).run.run c with
    | mk result d =>
      cases result with
      | error e => rfl
      | ok => exact hplay d
  . exact hplay c

theorem reaches_conduct (limit : Nat) (hsound : Sound view deeds c) (hat : At view c m)
    : Reaches view deeds m (c.conductHappenings limit) (c.conduct limit).2 := by
  rw [run_conduct, conductHappenings]
  by_cases hasleep : c.status = .asleep
  . rw [if_pos hasleep, if_pos hasleep]
    have hwake := Conducting.at_wake hsound hat
    cases hresult : (Conducting.orStop Conducting.wake).run.run c with
    | mk result d =>
      rw [hresult] at hwake
      cases result with
      | error e => exact ⟨0, rfl, hwake.1, hwake.2⟩
      | ok => exact reaches_playOn limit hwake.1 hwake.2
  . rw [if_neg hasleep, if_neg hasleep]
    exact reaches_playOn limit hsound hat

/--
In a run, the conductor goes from moment to moment.
-/
theorem Run.reaches {happenings : List Happening} {d : Conductor K} (h : Run c happenings d)
    (hsound : Sound view deeds c) (hat : At view c m) : Reaches view deeds m happenings d := by
  induction h generalizing m with
  | nothing c => exact ⟨0, rfl, hsound, hat⟩
  | conduct limit later ih =>
    obtain ⟨n, heq, hsound, hat⟩ := reaches_conduct limit hsound hat
    obtain ⟨n', heq', hsound, hat⟩ := ih hsound hat
    refine ⟨n + n', ?_, hsound, ?_⟩
    . rw [happenings_add, heq, heq']
    . rw [after_add]
      exact hat
  | resume later ih =>
    obtain ⟨hsound, hat⟩ := at_resume hsound hat
    exact ih hsound hat
  | tick now later ih =>
    obtain ⟨hsound, hat⟩ := at_tick now hsound hat
    exact ih hsound hat
  | settle q outcome hother later ih =>
    obtain ⟨hsound, hat⟩ := at_settle q outcome hother hsound hat
    exact ih hsound hat

end Conductor
end VisualNovel
