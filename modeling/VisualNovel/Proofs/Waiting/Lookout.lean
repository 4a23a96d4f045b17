import VisualNovel.Proofs.Playing.Order
import VisualNovel.Proofs.Waiting.Unheard
import VisualNovel.Terminal

/-!
This module contains what a conductor on a terminal waits for. There is always exactly one thing that will settle the
promise it waits for: a job, a timer, or the reader.
-/

namespace VisualNovel

/-! ### The actions of the terminal -/

namespace Terminal

/--
All that an action of the terminal does: it writes, and then goes on, waits for the reader or waits for a time.
-/
inductive Does (stage : Stage Terminal) : Except String Response × Stage Terminal → Prop where
  | proceed (text : String) : Does stage (.ok .proceed, { stage with host := stage.host.write text })
  | reader (text : String)
    : Does stage
        (.ok (.wait stage.reactor.promises.length),
          { stage with
            host := { stage.host.write text with awaiting := some stage.reactor.promises.length }
            reactor := stage.reactor.create.2 })
  | time (due : Nat)
    : Does stage (.ok (.wait stage.reactor.promises.length), { stage with reactor := (stage.reactor.sleep due).2 })

theorem does_of_lookup {name : String} {action : Action Terminal} (h : actions.lookup name = some action) (tag : Tag)
    (values : Fields) (stage : Stage Terminal) : Does stage ((action.run tag values).run.run stage) := by
  unfold actions at h
  simp only [List.lookup_cons, List.lookup_nil] at h
  repeat' split at h
  all_goals cases h
  . exact .proceed _
  . exact .proceed "\n"
  . exact .reader _
  . exact .reader _
  . exact .time _

end Terminal

namespace Conductor

/-! ### The invariant -/

/--
All that may settle a promise from now on: the jobs, the timers and the reader.
-/
structure Sources (c : Conductor Terminal) (queue : List (Job Cursor)) (timers : List (Timer Cursor))
    (awaiting : Option Nat) : Prop where
  queue : c.reactor.queue = queue
  timers : c.reactor.timers = timers
  awaiting : c.host.awaiting = awaiting

/--
A conductor on a terminal that sleeps as long as it waits for something. Nobody else waits for anything.
-/
structure OnTerminal (c : Conductor Terminal) : Prop where
  actions : c.actions = Terminal.actions
  asleep_iff : c.status = .asleep ↔ c.pending ≠ none
  unheard : c.reactor.Unheard

/--
The conductor waits for nothing, or there is one thing that will settle the promise it waits for: a script is settled by
a job, a time by a timer, and the wait for the reader by the reader.
-/
inductive Lookout (c : Conductor Terminal) : Prop where
  | nothing (hpending : c.pending = none) (hsources : c.Sources [] [] none)
  | script {p : Nat} {file : String} {target : Target} {mode : EntryMode} {game : Option Fields} {o : Outcome Cursor}
    (hpending : c.pending = some (.load p file target mode game)) (hopen : c.reactor.Unsettled p)
    (hsources : c.Sources [.settle p o] [] none)
  | time {p line due : Nat} {tag : String} (hpending : c.pending = some (.wait p tag line))
    (hopen : c.reactor.Unsettled p)
    (hsources : c.Sources [] [{ due, job := .settle p (.done none) }] none)
  | reader {p line : Nat} {tag : String} (hpending : c.pending = some (.wait p tag line))
    (hopen : c.reactor.Unsettled p) (hsources : c.Sources [] [] (some p))

/--
The promise that the conductor waits for is settled, and nothing else is going on.
-/
structure Answered (c : Conductor Terminal) : Prop where
  settled : ∃ pending, c.pending = some pending ∧ c.reactor.outcome? pending.promise ≠ none
  sources : c.Sources [] [] none

structure Expectant (c : Conductor Terminal) : Prop extends OnTerminal c where
  lookout : Lookout c

variable {c d : Conductor Terminal}

theorem OnTerminal.of_surroundings (h : OnTerminal c) (hsame : d.surroundings = c.surroundings) : OnTerminal d where
  actions := (congrArg Surroundings.actions hsame).trans h.actions
  asleep_iff := by
    rw [show d.status = c.status from congrArg Surroundings.status hsame,
      show d.pending = c.pending from congrArg Surroundings.pending hsame]
    exact h.asleep_iff
  unheard := by
    rw [show d.reactor = c.reactor from congrArg Surroundings.reactor hsame]
    exact h.unheard

theorem Sources.of_eq {queue : List (Job Cursor)} {timers : List (Timer Cursor)} {awaiting : Option Nat}
    (h : c.Sources queue timers awaiting) (hreactor : d.reactor = c.reactor) (hhost : d.host.awaiting = c.host.awaiting)
    : d.Sources queue timers awaiting :=
  ⟨hreactor ▸ h.queue, hreactor ▸ h.timers, hhost.trans h.awaiting⟩

theorem OnTerminal.pending_eq_none (h : OnTerminal c) (hawake : c.status ≠ .asleep) : c.pending = none := by
  cases hpending : c.pending with
  | none => rfl
  | some pending => exact absurd (h.asleep_iff.2 (by simp [hpending])) hawake

theorem Lookout.sources (h : Lookout c) (hpending : c.pending = none) : c.Sources [] [] none := by
  cases h with
  | nothing _ hsources => exact hsources
  | script hother | time hother | reader hother =>
    rw [hpending] at hother
    cases hother

/--
A conductor that waits for nothing, and has nothing to wait for.
-/
structure Carefree (c : Conductor Terminal) : Prop extends OnTerminal c where
  pending : c.pending = none
  sources : c.Sources [] [] none

theorem Carefree.expectant (h : Carefree c) : Expectant c :=
  { h with lookout := .nothing h.pending h.sources }

theorem Carefree.of_surroundings (h : Carefree c) (hsame : d.surroundings = c.surroundings) : Carefree d where
  toOnTerminal := h.toOnTerminal.of_surroundings hsame
  pending := (congrArg Surroundings.pending hsame).trans h.pending
  sources := h.sources.of_eq (congrArg Surroundings.reactor hsame)
    (congrArg (fun s => s.host.awaiting) hsame)

/-! ### Tags -/

namespace Carefree

open Conducting

theorem stopped (h : Carefree c) : Carefree { c with status := .stopped } where
  actions := h.actions
  asleep_iff := ⟨nofun, fun hpending => absurd h.pending hpending⟩
  unheard := h.unheard
  pending := h.pending
  sources := h.sources.of_eq rfl rfl

theorem awaiting (h : Carefree c) (file : String) (target : Target) (mode : EntryMode) (game : Option Fields)
    : Expectant (c.awaiting file target mode game) where
  actions := h.actions
  asleep_iff := by simp [Conductor.awaiting]
  unheard := h.unheard.create
  lookout := by
    have hopen := c.reactor.unsettled_create
    have hqueue : (c.awaiting file target mode game).reactor.queue
        = [.settle c.reactor.promises.length (Library.outcomeOf (c.library.load file).1)] := by
      simp [Conductor.awaiting, Reactor.enqueue, Reactor.create, h.sources.queue]
    exact .script rfl ⟨hopen.made, hopen.outcome⟩ ⟨hqueue, h.sources.timers, h.sources.awaiting⟩

theorem invoke (h : Carefree c) {cue : Cue Terminal} {name : String}
    (hcue : Terminal.actions.lookup name = some cue.action) (hinvoke : (invoke cue).run.run c = (.ok (), d))
    : Expectant d := by
  have hdoes := Terminal.does_of_lookup hcue cue.tag cue.values { host := c.host, vars := c.vars, reactor := c.reactor }
  have hopen := c.reactor.unsettled_create
  rw [run_invoke] at hinvoke
  generalize (cue.action.run cue.tag cue.values).run.run _ = answer at hdoes hinvoke
  cases hdoes with
  | proceed text =>
    cases hinvoke
    exact {
      actions := h.actions
      asleep_iff := h.asleep_iff
      unheard := h.unheard
      lookout := .nothing h.pending (h.sources.of_eq rfl rfl)
    }
  | reader text =>
    dsimp only at hinvoke
    rw [run_respond_wait, hopen.outcome] at hinvoke
    cases hinvoke
    exact {
      actions := h.actions
      asleep_iff := by simp
      unheard := h.unheard.create
      lookout := .reader rfl hopen ⟨h.sources.queue, h.sources.timers, rfl⟩
    }
  | time due =>
    have hsleep : (c.reactor.sleep due).2.Unsettled c.reactor.promises.length := ⟨hopen.made, hopen.outcome⟩
    have htimers : (c.reactor.sleep due).2.timers
        = [{ due, job := .settle c.reactor.promises.length (.done none) }] := by
      simp [Reactor.sleep, Reactor.addTimer, Reactor.create, h.sources.timers]
    dsimp only at hinvoke
    rw [run_respond_wait, hsleep.outcome] at hinvoke
    cases hinvoke
    exact {
      actions := h.actions
      asleep_iff := by simp
      unheard := h.unheard.create
      lookout := .time rfl hsleep ⟨h.sources.queue, htimers, h.sources.awaiting⟩
    }

theorem runAction (h : Carefree c) {tag : Tag} (hrun : (runAction tag).run.run c = (.ok (), d)) : Expectant d := by
  rw [runAction_eq_prepare, run_bind] at hrun
  unfold prepare at hrun
  rw [run_get_bind, h.actions] at hrun
  cases haction : Terminal.actions.lookup tag.name with
  | none =>
    rw [haction] at hrun
    cases hrun
  | some action =>
    have hresolved := (detached_onVariables Terminal Terminal (Tag.resolve tag)).surroundings c
    rw [haction] at hrun
    dsimp only at hrun
    rw [run_bind] at hrun
    change ((resolve tag).run.run c).2.surroundings = _ at hresolved
    cases hvalues : (resolve tag).run.run c with
    | mk result e =>
      rw [hvalues] at hrun hresolved
      cases result with
      | error fault => cases hrun
      | ok values =>
        dsimp only at hrun
        cases hvalid : Parameter.validate action.parameters values with
        | error fault =>
          rw [hvalid] at hrun
          cases hrun
        | ok values =>
          rw [hvalid] at hrun
          exact (h.of_surroundings hresolved).invoke haction hrun

theorem step (h : Carefree c) (hstep : step.run.run c = (.ok (), d)) : Expectant d := by
  have hdecided := h.of_surroundings (detached_decide.surroundings c)
  rw [step_eq_decide, run_bind] at hstep
  cases hv : decide.run.run c with
  | mk result e =>
    rw [hv] at hstep hdecided
    cases result with
    | error fault => cases hstep
    | ok v =>
      cases v with
      | goOn =>
        cases hstep
        exact hdecided.expectant
      | stop =>
        cases hstep
        exact hdecided.stopped.expectant
      | load file target mode =>
        unfold execute at hstep
        dsimp only at hstep
        rw [run_awaitScript] at hstep
        cases hstep
        exact hdecided.awaiting file target mode none
      | play tag => exact hdecided.runAction hstep

theorem play (h : Carefree c) (hplay : c.play = (.ok (), d)) : Expectant d := by
  unfold Conductor.play at hplay
  rw [run_orStop] at hplay
  cases hstep : Conducting.step.run.run c with
  | mk result e =>
    rw [hstep] at hplay
    cases result with
    | error fault => cases hplay
    | ok =>
      cases hplay
      exact h.step hstep

end Carefree

/-! ### Conducting -/

/--
A conductor on a terminal that is conducted from time to time.
-/
structure Attended (c : Conductor Terminal) : Prop extends OnTerminal c where
  state : Lookout c ∨ Answered c

theorem Expectant.attended (h : Expectant c) : Attended c :=
  { h with state := .inl h.lookout }

theorem Attended.carefree (h : Attended c) (hawake : c.status ≠ .asleep) : Carefree c := by
  have hpending := h.pending_eq_none hawake
  refine { h with pending := hpending, sources := ?_ }
  obtain hlookout | hanswered := h.state
  . exact hlookout.sources hpending
  . exact hanswered.sources

theorem Expectant.playOn (h : Expectant c) {limit : Nat} {status : Status}
    (hplay : c.playOn limit = (.ok status, d)) : Expectant d ∧ d.status = status := by
  induction limit generalizing c with
  | zero =>
    rw [playOn_zero] at hplay
    cases hplay
    exact ⟨h, rfl⟩
  | succ limit ih =>
    rw [playOn_succ] at hplay
    split at hplay
    . next hrunning =>
      cases hstep : c.play with
      | mk result e =>
        rw [hstep] at hplay
        cases result with
        | error fault => cases hplay
        | ok =>
          have hcarefree := h.attended.carefree (by simp [hrunning])
          exact ih (hcarefree.play hstep) hplay
    . cases hplay
      exact ⟨h, rfl⟩

theorem Lookout.outcome?_eq_none (h : Lookout c) {pending : Pending} (hpending : c.pending = some pending)
    : c.reactor.outcome? pending.promise = none := by
  cases h with
  | nothing hnone =>
    rw [hpending] at hnone
    cases hnone
  | script hother hopen | time hother hopen | reader hother hopen =>
    rw [hpending] at hother
    cases hother
    exact hopen.outcome

theorem Attended.sources_of_settled (h : Attended c) {pending : Pending} (hpending : c.pending = some pending)
    (hsettled : c.reactor.outcome? pending.promise ≠ none) : c.Sources [] [] none := by
  obtain hlookout | hanswered := h.state
  . exact absurd (hlookout.outcome?_eq_none hpending) hsettled
  . exact hanswered.sources

theorem Attended.lookout_of_unsettled (h : Attended c) {pending : Pending} (hpending : c.pending = some pending)
    (hunsettled : c.reactor.outcome? pending.promise = none) : Lookout c := by
  obtain hlookout | hanswered := h.state
  . exact hlookout
  . obtain ⟨other, hother, hsettled⟩ := hanswered.settled
    rw [hpending] at hother
    cases hother
    exact absurd hunsettled hsettled

theorem Attended.awoken (h : Attended c) {pending : Pending} (hpending : c.pending = some pending)
    (hsettled : c.reactor.outcome? pending.promise ≠ none)
    (hsame : d.surroundings = { c.surroundings with status := .running, pending := none }) : Expectant d := by
  have hreactor : d.reactor = c.reactor := congrArg Surroundings.reactor hsame
  have hhost : d.host = c.host := congrArg Surroundings.host hsame
  have hstatus : d.status = .running := congrArg Surroundings.status hsame
  have hnone : d.pending = none := congrArg Surroundings.pending hsame
  have hsources := h.sources_of_settled hpending hsettled
  exact {
    actions := (congrArg Surroundings.actions hsame).trans h.actions
    asleep_iff := by simp [hstatus, hnone]
    unheard := hreactor ▸ h.unheard
    lookout := .nothing hnone (hsources.of_eq hreactor (by rw [hhost]))
  }

/--
To wake up is to find that there is still something to wait for, or that there is nothing any more.
-/
theorem Attended.wake (h : Attended c) (hasleep : c.status = .asleep) (hwake : c.wake = (.ok (), d)) : Expectant d := by
  have hwakes := wakes_wake c
  rw [hwake] at hwakes
  have hsettled {pending : Pending} {o : Outcome Cursor} (houtcome : c.reactor.outcome? pending.promise = some o)
      : c.reactor.outcome? pending.promise ≠ none := by
    rw [houtcome]
    exact Option.some_ne_none o
  cases hwakes with
  | nothing hpending => exact absurd hpending (h.asleep_iff.1 hasleep)
  | unsettled hpending hunsettled => exact { h with lookout := h.lookout_of_unsettled hpending hunsettled }
  | done hpending houtcome => exact h.awoken hpending (hsettled houtcome) rfl
  | @noCursor _ _ _ _ game hpending houtcome | @found _ _ _ _ game _ _ hpending houtcome =>
    apply h.awoken hpending (hsettled houtcome)
    cases game <;> rfl

/--
As long as nothing fails, there is something to wait for whenever the conductor sleeps.
-/
theorem Attended.conduct (h : Attended c) {limit : Nat} {status : Status}
    (hconduct : c.conduct limit = (.ok status, d)) : Expectant d ∧ d.status = status := by
  rw [conduct_eq] at hconduct
  split at hconduct
  . next hasleep =>
    cases hwake : c.wake with
    | mk result e =>
      rw [hwake] at hconduct
      cases result with
      | error fault => cases hconduct
      | ok => exact (h.wake hasleep hwake).playOn hconduct
  . next hawake => exact (h.carefree hawake).expectant.playOn hconduct

end Conductor
end VisualNovel
