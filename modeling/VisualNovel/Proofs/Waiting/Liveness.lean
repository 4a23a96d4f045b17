import VisualNovel.Command.Run
import VisualNovel.Proofs.Waiting.Lookout

/-!
This module contains that sessions do not stall. Whatever happens to a session, what it waits for when it sleeps will be
settled by a job, by a timer or by the reader, and a line of the reader settles one wait and nothing else.
-/

namespace VisualNovel
namespace Conductor

/-! ### What comes of what there is -/

/--
There is something that will settle the promise: a job with any tick, a timer with any tick from its time on, or the
reader with a line.
-/
inductive Comes (c : Conductor Terminal) (p : Nat) : Prop where
  | job {o : Outcome Cursor} (hjob : .settle p o ∈ c.reactor.queue)
    (hsettles : ∀ now, (c.reactor.tick now).2.outcome? p = some o)
  | timer {due : Nat} {o : Outcome Cursor} (htimer : { due, job := .settle p o } ∈ c.reactor.timers)
    (hsettles : ∀ now, due ≤ now → (c.reactor.tick now).2.outcome? p = some o)
  | reader (hawaiting : c.host.awaiting = some p) (hsettles : c.press.2.reactor.outcome? p = some (.done none))

/--
The conductor after a tick of its reactor.
-/
def ticked (c : Conductor Terminal) (now : Nat) : Conductor Terminal :=
  { c with host := { c.host with now }, reactor := (c.reactor.tick now).2 }

variable {c d : Conductor Terminal} {p : Nat}

theorem OnTerminal.press_eq (h : OnTerminal c) (hawaiting : c.host.awaiting = some p) (hopen : c.reactor.Unsettled p)
    : c.press
        =
      (true, { c with
        host := { c.host with awaiting := none }
        reactor := (c.reactor.settle p (.done none)).reactor }) := by
  obtain ⟨promise, hpromise⟩ := hopen.pending?
  unfold press
  rw [hawaiting]
  dsimp only
  rw [h.unheard.resolve_eq, hpromise]
  rfl

theorem Expectant.comes (h : Expectant c) (hasleep : c.status = .asleep)
    : ∃ pending, c.pending = some pending ∧ c.reactor.outcome? pending.promise = none ∧ c.Comes pending.promise := by
  cases h.lookout with
  | nothing hnone => exact absurd hnone (h.asleep_iff.1 hasleep)
  | @script p _ _ _ _ o hpending hopen hsources =>
    have hjob : .settle p o ∈ c.reactor.queue := by simp [hsources.queue]
    refine ⟨_, hpending, hopen.outcome, .job hjob ?_⟩
    intro now
    rw [h.unheard.tick_queued hsources.queue hsources.timers]
    exact hopen.emptied.outcome?_settle o
  | @time p _ due _ hpending hopen hsources =>
    have htimer : { due, job := .settle p (.done none) } ∈ c.reactor.timers := by simp [hsources.timers]
    refine ⟨_, hpending, hopen.outcome, .timer htimer ?_⟩
    intro now hdue
    rw [h.unheard.tick_due hsources.queue hsources.timers hdue]
    exact hopen.emptied.outcome?_settle _
  | reader hpending hopen hsources =>
    refine ⟨_, hpending, hopen.outcome, .reader hsources.awaiting ?_⟩
    rw [Pending.promise, h.press_eq hsources.awaiting hopen]
    exact hopen.outcome?_settle _

/-! ### Ticks and lines -/

theorem Sources.tick_of_rest {timers : List (Timer Cursor)} {awaiting : Option Nat} {now : Nat}
    (h : c.Sources [] timers awaiting) (hlater : ∀ timer ∈ timers, now < timer.due) : (c.reactor.tick now).2 = c.reactor :=
  Reactor.tick_of_rest h.queue (h.timers ▸ hlater)

theorem answered_of_settle {r : Reactor Cursor} (pending : Pending) {o : Outcome Cursor}
    (hopen : r.Unsettled pending.promise) (hqueue : r.queue = []) (htimers : r.timers = [])
    (hpending : d.pending = some pending) (hreactor : d.reactor = (r.settle pending.promise o).reactor)
    (hawaiting : d.host.awaiting = none) : Answered d where
  settled := by
    refine ⟨pending, hpending, ?_⟩
    rw [hreactor, hopen.outcome?_settle]
    exact Option.some_ne_none o
  sources := by
    constructor
    . rw [hreactor, Reactor.queue_settle, hqueue]
    . rw [hreactor, Reactor.timers_settle, htimers]
    . exact hawaiting

theorem Attended.of_eq (h : Attended c) (hreactor : d.reactor = c.reactor)
    (hawaiting : d.host.awaiting = c.host.awaiting) (hpending : d.pending = c.pending) (hstatus : d.status = c.status)
    (hactions : d.actions = c.actions) : Attended d where
  actions := hactions.trans h.actions
  asleep_iff := by
    rw [hstatus, hpending]
    exact h.asleep_iff
  unheard := hreactor ▸ h.unheard
  state := by
    obtain hlookout | hanswered := h.state
    . left
      cases hlookout with
      | nothing hnone hsources => exact .nothing (hpending.trans hnone) (hsources.of_eq hreactor hawaiting)
      | script hsome hopen hsources =>
        exact .script (hpending.trans hsome) (hreactor ▸ hopen) (hsources.of_eq hreactor hawaiting)
      | time hsome hopen hsources =>
        exact .time (hpending.trans hsome) (hreactor ▸ hopen) (hsources.of_eq hreactor hawaiting)
      | reader hsome hopen hsources =>
        exact .reader (hpending.trans hsome) (hreactor ▸ hopen) (hsources.of_eq hreactor hawaiting)
    . right
      exact {
        settled := by
          rw [hpending, hreactor]
          exact hanswered.settled
        sources := hanswered.sources.of_eq hreactor hawaiting
      }

theorem Attended.ticked (h : Attended c) (now : Nat) : Attended (c.ticked now) := by
  have hrest (hsame : (c.reactor.tick now).2 = c.reactor) : Attended (c.ticked now) :=
    h.of_eq hsame rfl rfl rfl rfl
  have hsettled {pending : Pending} {o : Outcome Cursor} (hpending : c.pending = some pending)
      (hopen : c.reactor.Unsettled pending.promise) (hawaiting : c.host.awaiting = none)
      (hsame : (c.reactor.tick now).2 = (c.reactor.emptied.settle pending.promise o).reactor)
      : Attended (c.ticked now) := {
    actions := h.actions
    asleep_iff := h.asleep_iff
    unheard := by
      rw [Conductor.ticked, hsame]
      exact h.unheard.emptied.settle _ o
    state := .inr (answered_of_settle pending hopen.emptied rfl rfl hpending hsame hawaiting)
  }
  obtain hlookout | hanswered := h.state
  . cases hlookout with
    | nothing hnone hsources => exact hrest (hsources.tick_of_rest nofun)
    | script hpending hopen hsources =>
      exact hsettled hpending hopen hsources.awaiting (h.unheard.tick_queued hsources.queue hsources.timers now)
    | @time _ _ due _ hpending hopen hsources =>
      by_cases hdue : due ≤ now
      . exact hsettled hpending hopen hsources.awaiting (h.unheard.tick_due hsources.queue hsources.timers hdue)
      . apply hrest
        apply hsources.tick_of_rest
        simpa using hdue
    | reader hpending hopen hsources => exact hrest (hsources.tick_of_rest nofun)
  . exact hrest (hanswered.sources.tick_of_rest nofun)

theorem Attended.exists_reader (h : Attended c) (hawaiting : c.host.awaiting.isSome)
    : ∃ p tag line, c.pending = some (.wait p tag line) ∧ c.reactor.Unsettled p ∧ c.Sources [] [] (some p) := by
  have hsources {queue : List (Job Cursor)} {timers : List (Timer Cursor)} : ¬c.Sources queue timers none := by
    intro hsources
    rw [hsources.awaiting] at hawaiting
    cases hawaiting
  obtain hlookout | hanswered := h.state
  . cases hlookout with
    | nothing _ hnone | script _ _ hnone | time _ _ hnone => exact absurd hnone hsources
    | reader hpending hopen hreader => exact ⟨_, _, _, hpending, hopen, hreader⟩
  . exact absurd hanswered.sources hsources

/--
Where the reader is waited for, a line settles the wait and nothing else, and nothing is left to be done.
-/
theorem Attended.press (h : Attended c) (hawaiting : c.host.awaiting.isSome)
    : Attended c.press.2 ∧ c.press.2.Sources [] [] none ∧
        ∃ p tag line, c.pending = some (.wait p tag line) ∧ c.reactor.outcome? p = none ∧ c.press.1 = true ∧
          c.press.2.reactor.outcome? p = some (.done none) ∧
          ∀ q, q ≠ p → c.press.2.reactor.outcome? q = c.reactor.outcome? q := by
  obtain ⟨p, tag, line, hpending, hopen, hsources⟩ := h.exists_reader hawaiting
  rw [h.press_eq hsources.awaiting hopen]
  dsimp only
  have hanswered : Answered { c with
      host := { c.host with awaiting := none }
      reactor := (c.reactor.settle p (.done none)).reactor } :=
    answered_of_settle (.wait p tag line) hopen hsources.queue hsources.timers hpending rfl rfl
  refine ⟨?_, hanswered.sources, p, tag, line, hpending, hopen.outcome, rfl, hopen.outcome?_settle _, ?_⟩
  . exact {
      actions := h.actions
      asleep_iff := h.asleep_iff
      unheard := h.unheard.settle p (.done none)
      state := .inr hanswered
    }
  . intro q hq
    exact Reactor.outcome?_settle_of_ne (Ne.symm hq) _

end Conductor

/-! ### Sessions -/

namespace Session

open Conductor

/--
All that becomes of a session on a terminal, from its opening on, as long as it does not end: it advances, the reader
enters a line that is waited for, time passes with and without a tick, what has been written is shown, and files change.
-/
inductive Reachable : Session → Prop where
  | opened (library : Library) (vars : Variables) (systemFile file : String) (label : Option String)
    {conductor : Conductor Terminal}
    (hstart : Conductor.startScript file label { Conductor.onTerminal library with vars } = (.ok (), conductor))
    : Reachable { conductor, systemFile }
  | advanced {s t : Session} (h : Reachable s) {limit : Nat} {demand : Demand}
    (hadvance : s.advance limit = (.ok demand, t)) : Reachable t
  | pressed {s : Session} (h : Reachable s) (hawaiting : s.conductor.host.awaiting.isSome) : Reachable s.press
  | ticked {s : Session} (h : Reachable s) {now : Nat} (hnow : s.conductor.host.now ≤ now) : Reachable (s.tickAt now)
  | elapsed {s : Session} (h : Reachable s) {now : Nat} (hnow : s.conductor.host.now ≤ now)
    : Reachable { s with conductor := { s.conductor with host := { s.conductor.host with now } } }
  | shown {s : Session} (h : Reachable s) (written : String)
    : Reachable { s with conductor := { s.conductor with host := { s.conductor.host with written } } }
  | edited {s : Session} (h : Reachable s) (library : Library)
    : Reachable { s with conductor := { s.conductor with library } }

variable {s t : Session}

theorem attended_start {library : Library} {vars : Variables} {file : String} {label : Option String}
    {c : Conductor Terminal}
    (h : Conductor.startScript file label { Conductor.onTerminal library with vars } = (.ok (), c)) : Attended c := by
  obtain ⟨e, heq⟩ | ⟨found, heq⟩ := startScript_cases file label { Conductor.onTerminal library with vars }
  . rw [heq] at h
    cases h
  . rw [heq] at h
    cases h
    exact {
      actions := rfl
      asleep_iff := by simp
      unheard := Reactor.unheard_empty
      state := .inl (.nothing rfl ⟨rfl, rfl, rfl⟩)
    }

/--
The program opens only sessions of this kind.
-/
theorem reachable_openSession {words : List String} {console after : Console} {session : Session}
    (h : console.perform (Command.openSession words) = (.ok session, after)) : Reachable session := by
  unfold Console.perform Command.openSession at h
  obtain ⟨arguments, _, _, h⟩ := run_bind_ok h
  obtain ⟨file, _, _, h⟩ := run_bind_ok h
  obtain ⟨project, _, _, h⟩ := run_bind_ok h
  rw [run_get_bind] at h
  obtain ⟨vars, _, _, h⟩ := run_bind_ok h
  dsimp only at h
  generalize hstart : Conductor.startScript _ _ _ = answer at h
  obtain ⟨result, conductor⟩ := answer
  rw [run_set_bind] at h
  cases result with
  | error e =>
    obtain ⟨_, _, hfault, _⟩ := run_bind_ok h
    cases hfault
  | ok =>
    cases h
    exact .opened _ _ _ _ _ hstart

/--
What advancing a session may come to: it asks for a line only if it waits for one, and it never stalls.
-/
def Goes : Except Ending Demand × Session → Prop
  | (.ok demand, t) => Attended t.conductor ∧ (demand = .line → t.conductor.host.awaiting.isSome)
  | (.error ending, _) => ending ≠ .stalled

theorem goes_advance (h : Attended s.conductor) (limit : Nat) : Goes (s.advance limit) := by
  unfold advance
  cases hconduct : s.conductor.conduct limit with
  | mk result d =>
    cases result with
    | error e => exact nofun
    | ok status =>
      obtain ⟨hexpectant, hstatus⟩ := h.conduct hconduct
      cases status with
      | stopped => exact nofun
      | running => exact ⟨hexpectant.attended, nofun⟩
      | asleep =>
        dsimp only
        split
        . exact ⟨hexpectant.attended.ticked _, nofun⟩
        . next hqueue =>
          split
          . next hawaiting => exact ⟨hexpectant.attended, fun _ => hawaiting⟩
          . next hawaiting =>
            split
            . exact ⟨hexpectant.attended, nofun⟩
            . next hdeadline =>
              -- a conductor that sleeps waits for something, and each of the three has been looked for
              obtain ⟨pending, _, _, hcomes⟩ := hexpectant.comes hstatus
              cases hcomes with
              | job hjob =>
                rw [Reactor.hasQueuedJobs, List.isEmpty_eq_false_iff.2 (List.ne_nil_of_mem hjob)] at hqueue
                exact absurd rfl hqueue
              | timer htimer =>
                rw [Reactor.nextDeadline?, List.min?_eq_none_iff, List.map_eq_nil_iff] at hdeadline
                rw [hdeadline] at htimer
                cases htimer
              | reader hreader =>
                rw [hreader] at hawaiting
                exact absurd rfl hawaiting

theorem Reachable.attended (h : Reachable s) : Attended s.conductor := by
  induction h with
  | opened library vars systemFile file label hstart => exact attended_start hstart
  | @advanced s t _ limit _ hadvance ih =>
    have hgoes := goes_advance ih limit
    rw [hadvance] at hgoes
    exact hgoes.1
  | pressed _ hawaiting ih => exact (ih.press hawaiting).1.ticked _
  | ticked _ _ ih => exact ih.ticked _
  | elapsed _ _ ih | shown _ _ ih | edited _ _ ih => exact ih.of_eq rfl rfl rfl rfl rfl

theorem Reachable.play_ne_stalled (h : Reachable s) (limit turns : Nat) (lines : List String)
    : (s.play limit turns lines).1 ≠ some .stalled := by
  induction turns generalizing s lines with
  | zero => exact nofun
  | succ turns ih =>
    have hgoes := goes_advance h.attended limit
    unfold play
    cases hadvance : s.advance limit with
    | mk result t =>
      rw [hadvance] at hgoes
      cases result with
      | error ending => exact fun heq => hgoes (Option.some.inj heq)
      | ok demand =>
        have hafter := h.advanced hadvance
        cases demand with
        | nothing => exact ih hafter lines
        | time due => exact ih (hafter.ticked (Nat.le_max_left _ due)) lines
        | line =>
          cases lines with
          | nil => exact nofun
          | cons line lines => exact ih (hafter.pressed (hgoes.2 rfl)) lines

/--
A session does not stall. Whenever its conductor sleeps, the promise that this one waits for is not settled, but there is
something that will settle it, so to advance the session never finds that there is nothing to wait for. A line is asked
for only where it is waited for, and there it settles one wait, and nothing else.
-/
theorem never_stalls (h : Reachable s)
    : (∀ limit c, s.conductor.conduct limit = (.ok .asleep, c) →
        ∃ pending, c.pending = some pending ∧ c.reactor.outcome? pending.promise = none ∧ c.Comes pending.promise) ∧
      (∀ limit, (s.advance limit).1 ≠ .error .stalled) ∧
      (∀ limit turns lines, (s.play limit turns lines).1 ≠ some .stalled) ∧
      (∀ limit t, s.advance limit = (.ok .line, t) → t.conductor.host.awaiting.isSome) ∧
      (s.conductor.host.awaiting.isSome →
        ∃ p tag line, s.conductor.pending = some (.wait p tag line) ∧ s.conductor.reactor.outcome? p = none ∧
          s.conductor.press.1 = true ∧ s.press.conductor.reactor.outcome? p = some (.done none) ∧
          ∀ q, q ≠ p → s.press.conductor.reactor.outcome? q = s.conductor.reactor.outcome? q) := by
  have hattended := h.attended
  refine ⟨?_, ?_, h.play_ne_stalled, ?_, ?_⟩
  . intro limit c hconduct
    obtain ⟨hexpectant, hstatus⟩ := hattended.conduct hconduct
    exact hexpectant.comes hstatus
  . intro limit hstalled
    have hgoes := goes_advance hattended limit
    cases hadvance : s.advance limit with
    | mk result t =>
      rw [hadvance] at hgoes hstalled
      cases hstalled
      exact hgoes rfl
  . intro limit t hadvance
    have hgoes := goes_advance hattended limit
    rw [hadvance] at hgoes
    exact hgoes.2 rfl
  . intro hawaiting
    obtain ⟨_, hsources, p, tag, line, hpending, hopen, hpressed, hsettled, hothers⟩ := hattended.press hawaiting
    have hrest : s.press.conductor.reactor = s.conductor.press.2.reactor := hsources.tick_of_rest nofun
    exact ⟨p, tag, line, hpending, hopen, hpressed, hrest ▸ hsettled, hrest ▸ hothers⟩

def promptLibrary : Library where
  directory := ""
  grammar := .line
  maxDepth := 64
  cache := none
  disk := {}
  scripts := [("a", [.make "l" [] 1])]

/--
A session with a script that waits for the reader.
-/
def promptSession : Session where
  conductor := (Conductor.startScript "a" none (Conductor.onTerminal promptLibrary)).2
  systemFile := ""

def promptedSession : Session :=
  (promptSession.advance 2).2

theorem promptSession_never_stalls
    : Reachable promptSession ∧ Reachable promptedSession ∧ promptedSession.conductor.host.awaiting.isSome ∧
        (∃ pending, (promptSession.conductor.conduct 2).2.pending = some pending ∧
          (promptSession.conductor.conduct 2).2.Comes pending.promise) ∧
        (∀ turns lines, (promptSession.play 2 turns lines).1 ≠ some .stalled) ∧
        promptedSession.conductor.press.1 = true ∧
        ∃ p, promptedSession.conductor.reactor.outcome? p = none ∧
          promptedSession.press.conductor.reactor.outcome? p = some (.done none) := by
  have hstarted : (Conductor.startScript "a" none (Conductor.onTerminal promptLibrary)).1 = .ok () := by
    apply eq_ok_of_toOption
    decide +kernel
  have hprompt : Reachable promptSession := .opened promptLibrary {} "" "a" none (Prod.ext hstarted rfl)
  have hline : (promptSession.advance 2).1 = .ok .line := by
    apply eq_ok_of_toOption
    decide +kernel
  have hsleeps : (promptSession.conductor.conduct 2).1 = .ok .asleep := by
    apply eq_ok_of_toOption
    decide +kernel
  have hprompted : Reachable promptedSession := hprompt.advanced (Prod.ext hline rfl)
  obtain ⟨hcomes, _, hplay, hawaiting, _⟩ := never_stalls hprompt
  have hawaits := hawaiting 2 promptedSession (Prod.ext hline rfl)
  obtain ⟨pending, hpending, _, hcome⟩ := hcomes 2 _ (Prod.ext hsleeps rfl)
  obtain ⟨_, _, _, _, hpress⟩ := never_stalls hprompted
  obtain ⟨p, _, _, _, hopen, hpressed, hsettled, _⟩ := hpress hawaits
  exact ⟨hprompt, hprompted, hawaits, ⟨pending, hpending, hcome⟩, hplay 2, hpressed, p, hopen, hsettled⟩

end Session
end VisualNovel
