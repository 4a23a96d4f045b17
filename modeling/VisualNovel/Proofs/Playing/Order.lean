import VisualNovel.Proofs.Playing.Entering
import VisualNovel.Proofs.Playing.Parts
import VisualNovel.Proofs.Playing.Transparency
import VisualNovel.Proofs.Reading

/-!
This module contains what holds of a conductor whatever turns have been taken. It sleeps as long as it waits for
something, it has a script whenever there is something to play, and what ends its playing also ends its waiting.
-/

namespace VisualNovel

variable {H : Type} {α β : Type}

namespace Conducting

/--
A computation that keeps the script, if there is one, and then does not miss it.
-/
def Scripted (x : Conducting H α) : Prop :=
  ∀ c, c.cursor ≠ none → (x.run.run c).2.cursor ≠ none ∧ (x.run.run c).1 ≠ .error .noScript

theorem Scripted.bind {x : Conducting H α} {f : α → Conducting H β} (h : Scripted x) (hnext : ∀ a, Scripted (f a))
    : Scripted (x >>= f) := by
  intro c hc
  have hx := h c hc
  rw [run_bind]
  cases hresult : x.run.run c with
  | mk result d =>
    rw [hresult] at hx
    cases result with
    | ok a => exact hnext a d hx.1
    | error e =>
      refine ⟨hx.1, fun heq => hx.2 ?_⟩
      cases heq
      rfl

theorem scripted_get_bind {f : Conductor H → Conducting H α} (h : ∀ c, c.cursor ≠ none → Scripted (f c))
    : Scripted (get >>= f) := by
  intro c hc
  rw [run_get_bind]
  exact h c hc c hc

section Scripted

variable (H)

theorem scripted_pure (a : α) : Scripted (pure a : Conducting H α) :=
  fun _ h => ⟨h, nofun⟩

theorem scripted_throw {e : ConductorError} (h : e ≠ .noScript) : Scripted (throw e : Conducting H α) :=
  fun _ hc => ⟨hc, fun heq => h (Except.error.inj heq)⟩

theorem scripted_modify {f : Conductor H → Conductor H} (h : ∀ c, c.cursor ≠ none → (f c).cursor ≠ none)
    : Scripted (modify f : Conducting H Unit) :=
  fun c hc => ⟨h c hc, nofun⟩

theorem mapError_script_ne (result : Except CursorError α)
    : result.mapError ConductorError.script ≠ .error .noScript := by
  cases result <;> nofun

theorem scripted_onVariables (f : Option Fields → ExceptT CursorError (StateM Variables) α)
    : Scripted (onVariables f : Conducting H α) := by
  intro c hc
  rw [run_onVariables]
  exact ⟨hc, mapError_script_ne _⟩

theorem scripted_onScene (p : Play α) : Scripted (onScene p : Conducting H α) := by
  intro c hc
  obtain ⟨cursor, hcursor⟩ := Option.ne_none_iff_exists'.1 hc
  rw [run_onScene_some p hcursor]
  exact ⟨Option.some_ne_none _, mapError_script_ne _⟩

theorem scripted_nextTag : Scripted (nextTag : Conducting H (Option Tag)) := by
  intro c hc
  cases hprinted : c.printed with
  | cons tag printed =>
    rw [run_nextTag_printed hprinted]
    exact ⟨hc, nofun⟩
  | nil =>
    obtain ⟨cursor, hcursor⟩ := Option.ne_none_iff_exists'.1 hc
    rw [run_nextTag_some hprinted hcursor]
    exact ⟨Option.some_ne_none _, mapError_script_ne _⟩

theorem scripted_enter (cursor : Cursor) (target : Target) (mode : EntryMode)
    : Scripted (enter cursor target mode : Conducting H Unit) := by
  unfold enter
  dsimp only
  split
  . exact scripted_throw H nofun
  . exact scripted_modify H fun _ _ => Option.some_ne_none _

theorem scripted_awaitScript (file : String) (target : Target) (mode : EntryMode) (game : Option Fields)
    : Scripted (awaitScript file target mode game : Conducting H Unit) := by
  intro c hc
  rw [run_awaitScript]
  exact ⟨hc, nofun⟩

theorem scripted_jump (tag : Tag) (mode : EntryMode) : Scripted (jump tag mode : Conducting H Unit) := by
  unfold jump
  apply (scripted_onVariables H _).bind
  intro values
  apply scripted_get_bind
  intro c hc
  obtain ⟨cursor, hcursor⟩ := Option.ne_none_iff_exists'.1 hc
  dsimp only
  rw [hcursor]
  split
  . exact scripted_awaitScript H _ _ _ _
  . exact scripted_enter H _ _ _
  . next heq => cases heq

theorem scripted_back (tag : Tag) : Scripted (back tag : Conducting H Unit) := by
  unfold back
  apply scripted_get_bind
  intro c _
  split
  . exact scripted_throw H nofun
  . exact scripted_modify H fun _ _ => Option.some_ne_none _

theorem scripted_respond (tag : Tag) (response : Response)
    : Scripted (respond tag response : Conducting H Unit) := by
  cases response with
  | proceed => exact scripted_pure H _
  | pause => exact scripted_modify H fun _ h => h
  | wait promise =>
    intro c hc
    rw [run_respond_wait]
    cases c.reactor.outcome? promise with
    | none => exact ⟨hc, nofun⟩
    | some outcome => cases outcome <;> exact ⟨hc, nofun⟩

theorem scripted_prepare (tag : Tag) : Scripted (prepare tag : Conducting H (Cue H)) := by
  unfold prepare
  apply scripted_get_bind
  intro c _
  cases c.actions.lookup tag.name with
  | none => exact scripted_throw H nofun
  | some action =>
    apply (scripted_onVariables H _).bind
    intro values
    split
    . exact scripted_throw H nofun
    . exact scripted_pure H _

theorem scripted_invoke (cue : Cue H) : Scripted (invoke cue) := by
  intro c hc
  rw [run_invoke]
  cases (cue.action.run cue.tag cue.values).run.run { host := c.host, vars := c.vars, reactor := c.reactor } with
  | mk result stage =>
    cases result with
    | error message => exact ⟨hc, nofun⟩
    | ok response => exact scripted_respond H cue.tag response _ hc

theorem compositional_scripted : Compositional fun _ (x : Conducting H _) => Scripted x where
  pure := scripted_pure H
  bind h hnext := h.bind hnext
  throw := scripted_throw H
  modify _ hscript := by
    apply scripted_modify
    intro c hc
    obtain ⟨_, _, _, _, _, heq⟩ := hscript c
    rw [heq]
    exact hc
  onVariables := scripted_onVariables H
  onScene := scripted_onScene H
  jump := scripted_jump H
  runAction tag := by
    rw [runAction_eq_prepare]
    exact (scripted_prepare H tag).bind (scripted_invoke H)

theorem scripted_step : Scripted (step : Conducting H Unit) := by
  apply (scripted_nextTag H).bind
  intro tag
  cases tag with
  | none => exact scripted_modify H fun _ h => h
  | some tag => exact (compositional_scripted H).dispatch fun _ => scripted_back H tag

end Scripted
end Conducting

theorem Library.outcomeOf_ne_done_none (result : Except LibraryError Cursor) : outcomeOf result ≠ .done none := by
  cases result <;> nofun

namespace Conductor

/-! ### The invariant -/

/--
A conductor that has not come to any script. No action has been called, so nothing has happened to the promise
of a script that is being loaded, and this script will come or fail.
-/
structure Fresh (c : Conductor H) : Prop where
  rest : c.status ≠ .running
  printed : c.printed = []
  closed : c.reactor.Closed
  waits : ∀ p tag line, c.pending ≠ some (.wait p tag line)
  loads : ∀ p file target mode game, c.pending = some (.load p file target mode game) →
    ∃ o, o ≠ .done none ∧ c.reactor.Expects p o

/--
What holds of a conductor after any turns.
-/
structure Orderly (c : Conductor H) : Prop where
  asleep_iff : c.status = .asleep ↔ c.pending ≠ none
  fresh : c.cursor = none → Fresh c

/--
A conductor that waits for nothing and has a script.
-/
structure Awake (c : Conductor H) : Prop where
  awake : c.status ≠ .asleep
  pending : c.pending = none
  script : c.cursor ≠ none

variable {c d : Conductor H}

theorem Orderly.of_script (hasleep : c.status = .asleep ↔ c.pending ≠ none) (hscript : c.cursor ≠ none)
    : Orderly c :=
  ⟨hasleep, fun hnone => absurd hnone hscript⟩

theorem Orderly.pending_eq_none (h : Orderly c) (hawake : c.status ≠ .asleep) : c.pending = none := by
  cases hpending : c.pending with
  | none => rfl
  | some pending => exact absurd (h.asleep_iff.2 (by simp [hpending])) hawake

theorem Orderly.script (h : Orderly c) (hplay : c.status = .running ∨ c.printed ≠ []) : c.cursor ≠ none := by
  intro hnone
  have hfresh := h.fresh hnone
  cases hplay with
  | inl hrunning => exact hfresh.rest hrunning
  | inr hprinted => exact hprinted hfresh.printed

theorem Orderly.awake (h : Orderly c) (hrunning : c.status = .running) : Awake c where
  awake := by simp [hrunning]
  pending := h.pending_eq_none (by simp [hrunning])
  script := h.script (Or.inl hrunning)

theorem Awake.orderly (h : Awake c) : Orderly c := by
  apply Orderly.of_script _ h.script
  exact ⟨fun hasleep => absurd hasleep h.awake, fun hpending => absurd h.pending hpending⟩

theorem Awake.stopped (h : Awake c) : Awake { c with status := .stopped } :=
  { h with awake := nofun }

theorem Awake.of_surroundings (h : Awake c) (hsame : d.surroundings = c.surroundings) (hscript : d.cursor ≠ none)
    : Awake d where
  awake := by
    rw [show d.status = c.status from congrArg Surroundings.status hsame]
    exact h.awake
  pending := pending_eq_none_of_surroundings hsame h.pending
  script := hscript

/-! ### Tags -/

/--
A computation that leaves a conductor awake if it fails, and orderly if it does not.
-/
def Leaves (result : Except ConductorError α × Conductor H) : Prop :=
  match result with
  | (.ok _, d) => Orderly d
  | (.error _, d) => Awake d

theorem Orderly.awaiting (h : Orderly c) (file : String) (target : Target) (mode : EntryMode)
    (game : Option Fields) : Orderly (c.awaiting file target mode game) := by
  constructor
  . simp [Conductor.awaiting]
  . intro hnone
    have hfresh := h.fresh hnone
    refine ⟨nofun, hfresh.printed, hfresh.closed.job _, nofun, ?_⟩
    intro p file target mode game hload
    cases hload
    exact ⟨_, Library.outcomeOf_ne_done_none _, hfresh.closed.expects _⟩

namespace Awake

open Conducting

theorem leaves_respond (h : Awake c) (tag : Tag) (response : Response)
    : Leaves ((respond tag response).run.run c) := by
  cases response with
  | proceed => exact h.orderly
  | pause => exact h.stopped.orderly
  | wait promise =>
    rw [run_respond_wait]
    cases c.reactor.outcome? promise with
    | none => exact Orderly.of_script (by simp) h.script
    | some outcome =>
      cases outcome with
      | done => exact h.orderly
      | failed => exact h

theorem leaves_invoke (h : Awake c) (cue : Cue H) : Leaves ((invoke cue).run.run c) := by
  rw [run_invoke]
  cases (cue.action.run cue.tag cue.values).run.run { host := c.host, vars := c.vars, reactor := c.reactor } with
  | mk result stage =>
    have hafter : Awake { c with host := stage.host, vars := stage.vars, reactor := stage.reactor } := { h with }
    cases result with
    | error message => exact hafter
    | ok response => exact hafter.leaves_respond cue.tag response

theorem leaves_runAction (h : Awake c) (tag : Tag) : Leaves ((runAction tag).run.run c) := by
  rw [runAction_eq_prepare, run_bind]
  unfold prepare
  rw [run_get_bind]
  cases c.actions.lookup tag.name with
  | none => exact h
  | some action =>
    have hresolved : Awake ((resolve tag).run.run c).2 := by
      have hdetached := detached_onVariables H H (Tag.resolve tag)
      exact h.of_surroundings (hdetached.surroundings c) (hdetached.script c h.script)
    dsimp only
    rw [run_bind]
    cases hvalues : (resolve tag).run.run c with
    | mk result d =>
      rw [hvalues] at hresolved
      cases result with
      | error e => exact hresolved
      | ok values =>
        dsimp only
        cases Parameter.validate action.parameters values with
        | error e => exact hresolved
        | ok values => exact hresolved.leaves_invoke _

theorem leaves_step (h : Awake c) : Leaves (step.run.run c) := by
  have hdetached := detached_decide (K := H) (H := H)
  have hdecided := h.of_surroundings (hdetached.surroundings c) (hdetached.script c h.script)
  -- up to its verdict a step changes neither the status nor what is pending
  rw [step_eq_decide, run_bind]
  cases hv : decide.run.run c with
  | mk result d =>
    rw [hv] at hdecided
    cases result with
    | error e => exact hdecided
    | ok v =>
      cases v with
      | goOn => exact hdecided.orderly
      | stop => exact hdecided.stopped.orderly
      | load file target mode =>
        unfold execute
        dsimp only
        rw [run_awaitScript]
        exact hdecided.orderly.awaiting file target mode none
      | play tag => exact hdecided.leaves_runAction tag

end Awake

/-! ### Turns -/

theorem Orderly.play (h : Orderly c) (hrunning : c.status = .running)
    : Orderly c.play.2 ∧ c.play.1 ≠ .error .noScript := by
  have hawake := h.awake hrunning
  have hleaves := hawake.leaves_step
  have hscripted := Conducting.scripted_step H c hawake.script
  unfold Conductor.play
  rw [Conducting.run_orStop]
  cases hstep : Conducting.step.run.run c with
  | mk result d =>
    rw [hstep] at hleaves hscripted
    cases result with
    | ok => exact ⟨hleaves, nofun⟩
    | error e =>
      refine ⟨(Awake.stopped (c := d) hleaves).orderly, fun heq => hscripted.2 ?_⟩
      cases heq
      rfl

theorem Orderly.stop (h : Orderly c) : Orderly c.stop where
  asleep_iff := ⟨nofun, fun hpending => absurd rfl hpending⟩
  fresh hnone := { h.fresh hnone with rest := nofun, waits := nofun, loads := nofun }

theorem Orderly.wake (h : Orderly c) (hasleep : c.status = .asleep)
    : Orderly c.wake.2 ∧ c.wake.1 ≠ .error .noScript := by
  have hwakes := wakes_wake c
  generalize c.wake = answer at hwakes
  cases hwakes with
  | nothing hpending => exact absurd hpending (h.asleep_iff.1 hasleep)
  | unsettled => exact ⟨h, nofun⟩
  | failed | notLoaded | notFound => exact ⟨h.stop, nofun⟩
  | @done p line tag _ hpending =>
    have hscript : c.cursor ≠ none := fun hnone => (h.fresh hnone).waits p tag line hpending
    exact ⟨Orderly.of_script (by simp) hscript, nofun⟩
  | @noCursor p file target mode game hpending houtcome =>
    -- without a script nobody but the library settles the promise, and it never settles it with nothing
    have hscript : c.cursor ≠ none := by
      intro hnone
      obtain ⟨o, ho, hexpects⟩ := (h.fresh hnone).loads p file target mode game hpending
      exact ho (hexpects.keeps.outcome _ houtcome).symm
    refine ⟨Orderly.of_script ?_ ?_, nofun⟩
    . cases game <;> simp [withGame]
    . cases game <;> exact hscript
  | @found _ _ _ _ game _ found =>
    refine ⟨Orderly.of_script ?_ ?_, nofun⟩
    . cases game <;> simp [withGame, entered]
    . cases game <;> exact Option.some_ne_none found

theorem Orderly.startScript (h : Orderly c) (file : String) (label : Option String)
    : Orderly (c.startScript file label).2 := by
  obtain ⟨e, heq⟩ | ⟨found, heq⟩ := startScript_cases file label c
  . rw [heq]
    exact ⟨h.asleep_iff, fun hnone => { h.fresh hnone with }⟩
  . rw [heq]
    exact Orderly.of_script (by simp) (Option.some_ne_none found)

theorem Orderly.resume (h : Orderly c) : Orderly c.resume := by
  unfold Conductor.resume
  split
  . next hresume =>
    simp only [Bool.and_eq_true, decide_eq_true_eq, Option.isSome_iff_ne_none] at hresume
    have hpending := h.pending_eq_none (by simp [hresume.1])
    exact Orderly.of_script (by simp [hpending]) hresume.2
  . exact h

theorem Orderly.modifyReactor (h : Orderly c) {f : Reactor Cursor → Reactor Cursor}
    (hclosed : c.reactor.Closed → (f c.reactor).Closed)
    (hloads : ∀ p file target mode game o, c.pending = some (.load p file target mode game) →
      c.reactor.Expects p o → (f c.reactor).Expects p o)
    : Orderly (c.modifyReactor f) := by
  refine ⟨h.asleep_iff, fun hnone => ?_⟩
  have hfresh := h.fresh hnone
  refine { hfresh with closed := hclosed hfresh.closed, loads := ?_ }
  intro p file target mode game hload
  obtain ⟨o, hcursor, hexpects⟩ := hfresh.loads p file target mode game hload
  exact ⟨o, hcursor, hloads p file target mode game o hload hexpects⟩

theorem Orderly.turn (h : Orderly c) (t : Turn H) (hfair : t.Fair c) : Orderly (c.turn t) := by
  cases t with
  | wake =>
    rw [turn_wake]
    split
    . next hasleep => exact (h.wake hasleep).1
    . exact h
  | play =>
    rw [turn_play]
    split
    . next hrunning => exact (h.play hrunning).1
    . exact h
  | startScript file label => exact h.startScript file label
  | resume => exact h.resume
  | stop => exact h.stop
  | restore save =>
    change Orderly (c.restore save)
    rw [restore_eq]
    exact h.awaiting save.file (.saveMark save.mark) .jump (some save.game)
  | tick now =>
    apply h.modifyReactor (f := fun r => (r.tick now).2) fun hclosed => hclosed.tick now
    intro p file target mode game o _ hexpects
    exact hexpects.tick now
  | settle promise outcome =>
    apply h.modifyReactor (f := fun r => (r.resolve promise outcome).2) fun hclosed => hclosed.resolve promise outcome
    intro p file target mode game o hload hexpects
    exact hexpects.resolve (hfair p file target mode game hload) outcome
  | arrange host vars library => exact ⟨h.asleep_iff, fun hnone => { h.fresh hnone with }⟩

theorem Reachable.orderly {kind : Action H → Prop} (h : Reachable kind c) : Orderly c := by
  induction h with
  | new =>
    refine ⟨by simp, fun _ => ?_⟩
    exact ⟨nofun, rfl, Reactor.closed_empty, nofun, nofun⟩
  | turn h t hfair ih => exact ih.turn t hfair

/-! ### Conducting -/

/--
What conducting may come to, with the conductor after it.
-/
def Ends (d : Conductor H) : Except ConductorError Status → Prop
  | .ok status => status ≠ .running ∧ d.status = status
  | .error e => e ≠ .noScript ∧ d.status = .stopped ∧ d.pending = none

theorem Orderly.ends_error {x : Conducting H Unit} {e : ConductorError} (h : Orderly d)
    (hfault : (Conducting.orStop x).run.run c = (.error e, d)) (hscript : e ≠ .noScript) : Ends d (.error e) := by
  have hstopped : d.status = .stopped := by
    rw [Conducting.run_orStop] at hfault
    cases hx : x.run.run c with
    | mk result d' =>
      rw [hx] at hfault
      cases result <;> cases hfault
      rfl
  exact ⟨hscript, hstopped, h.pending_eq_none (by simp [hstopped])⟩

theorem Plays.ends {result : Except ConductorError Status} (h : Plays c result d) (horderly : Orderly c)
    : Ends d result := by
  induction h with
  | rest hrest => exact ⟨hrest, rfl⟩
  | fault hrunning hplay =>
    obtain ⟨hafter, hscript⟩ := horderly.play hrunning
    rw [hplay] at hafter hscript
    exact hafter.ends_error hplay fun heq => hscript (congrArg Except.error heq)
  | tag hrunning hplay _ ih =>
    have hafter := (horderly.play hrunning).1
    rw [hplay] at hafter
    exact ih hafter

theorem Conducts.ends {result : Except ConductorError Status} (h : Conducts c result d) (horderly : Orderly c)
    : Ends d result := by
  cases h with
  | awake _ later => exact later.ends horderly
  | fault hasleep hwake =>
    obtain ⟨hafter, hscript⟩ := horderly.wake hasleep
    rw [hwake] at hafter hscript
    exact hafter.ends_error hwake fun heq => hscript (congrArg Except.error heq)
  | woken hasleep hwake later =>
    have hafter := (horderly.wake hasleep).1
    rw [hwake] at hafter
    exact later.ends hafter

theorem conduct_of_unsettled {pending : Pending} (hasleep : c.status = .asleep) (hpending : c.pending = some pending)
    (hunsettled : c.reactor.outcome? pending.promise = none) (limit : Nat)
    : c.conduct limit = (.ok .asleep, c) ∧ c.conductHappenings limit = [] := by
  have hwake := (Wakes.unsettled hpending hunsettled).wake_eq
  have hawake : c.status ≠ .running := by simp [hasleep]
  constructor
  . rw [conduct_eq, if_pos hasleep, hwake, ← hasleep]
    exact playOn_of_rest hawake limit
  . unfold wake at hwake
    rw [conductHappenings, if_pos hasleep, hwake]
    cases limit with
    | zero => rfl
    | succ limit => exact if_neg hawake

/--
Whatever turns have been taken, a conductor is asleep if and only if it waits for something, and it has a script
if it runs or has something to print. To conduct it does not end while it is running, and an error, which is
never the lack of a script, leaves it stopped with nothing to wait for. As long as what it waits for has not come,
to conduct it changes nothing and calls no action.
-/
theorem conduct_orderly {kind : Action H → Prop} (h : Reachable kind c)
    : (c.status = .asleep ↔ c.pending ≠ none) ∧
      (c.status = .running ∨ c.printed ≠ [] → c.cursor ≠ none) ∧
      (∀ result d, Conducts c result d → Ends d result) ∧
      ∀ pending, c.pending = some pending → c.reactor.outcome? pending.promise = none →
        ∀ limit, c.conduct limit = (.ok .asleep, c) ∧ c.conductHappenings limit = [] := by
  have horderly := h.orderly
  refine ⟨horderly.asleep_iff, horderly.script, fun _ _ hconducts => hconducts.ends horderly, ?_⟩
  intro pending hpending hunsettled
  apply conduct_of_unsettled _ hpending hunsettled
  apply horderly.asleep_iff.2
  simp [hpending]

def slowScript : Cursor :=
  { file := "a", tags := [.ofChar 'o' 1, .ofChar 'n' 1], maxDepth := 64 }

def startedSample : Conductor Nat :=
  (newcomer slowAction [("a", slowScript.tags)]).turn (.startScript "a" none)

def slowSample : Conductor Nat :=
  startedSample.turn .play

theorem conduct_slowSample
    : Reachable (fun _ => True) slowSample ∧ slowSample.status = .asleep ∧ slowSample.cursor ≠ none ∧
        (∀ result d, Conducts (slowSample.turn (.settle 0 (.done none))) result d → Ends d result) ∧
        (∀ limit result d, (slowSample.turn (.settle 0 (.done none))).conduct limit = (result, d) →
          result ≠ .ok .running → Ends d result) ∧
        ∀ limit, slowSample.conduct limit = (.ok .asleep, slowSample) ∧ slowSample.conductHappenings limit = [] := by
  have hreachable : Reachable (fun _ => True) slowSample := by
    apply Reachable.turn _ .play trivial
    exact (reachable_newcomer trivial _).turn (.startScript "a" none) trivial
  have hnext : Conducting.nextTag.run.run startedSample
      = (.ok (some (.ofChar 'o' 1)), { startedSample with
          cursor := some { slowScript with point := 1, latest := some (.ofChar 'o' 1) } }) := by
    rw [Conducting.run_nextTag_some rfl rfl, Cursor.next_of_tag rfl rfl]
    rfl
  have hslow : slowSample = _ := congrArg Prod.snd (play_of_tag hnext)
  have hpending : slowSample.pending = some (.wait 0 "ch" 1) := by
    rw [hslow]
    rfl
  have hunsettled : slowSample.reactor.outcome? 0 = none := by
    rw [hslow]
    rfl
  have hscript : slowSample.cursor.isSome := by
    rw [hslow]
    rfl
  have hsettled : Reachable (fun _ => True) (slowSample.turn (.settle 0 (.done none))) := by
    apply hreachable.turn
    intro p file target mode game hload
    rw [hpending] at hload
    cases hload
  obtain ⟨hasleep, _, _, hwaits⟩ := conduct_orderly hreachable
  obtain ⟨_, _, hends, _⟩ := conduct_orderly hsettled
  have hstatus : slowSample.status = .asleep := hasleep.2 (by simp [hpending])
  refine ⟨hreachable, hstatus, Option.isSome_iff_ne_none.1 hscript, hends, ?_, hwaits _ hpending hunsettled⟩
  exact fun limit result d hconduct hrest => hends result d (conducts_iff.2 ⟨limit, hconduct, hrest⟩)

end Conductor
end VisualNovel
