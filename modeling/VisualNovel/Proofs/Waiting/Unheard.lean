import VisualNovel.Proofs.Promises
import VisualNovel.Proofs.Reacting.Course

/-!
This module contains reactors whose promises nobody listens to. To settle a promise then sets off nothing, so a tick
with a single job is the settling of a single promise.
-/

namespace VisualNovel

variable {α : Type}

def Promise.Unheard (promise : Promise α) : Prop :=
  ∀ outcome, promise.waiting outcome = []

namespace Reactor

/--
Nobody listens to a promise of the reactor.
-/
def Unheard (r : Reactor α) : Prop :=
  ∀ promise ∈ r.promises, promise.Unheard

variable {r : Reactor α} {p : Nat} {o : Outcome α}

theorem unheard_empty : ({} : Reactor α).Unheard :=
  nofun

theorem Unheard.create (h : r.Unheard) : r.create.2.Unheard := by
  intro promise hpromise
  obtain hpromise | rfl := by simpa [Reactor.create] using hpromise
  . exact h promise hpromise
  . intro outcome
    cases outcome <;> rfl

theorem Unheard.work_settle (h : r.Unheard) (p : Nat) (o : Outcome α) : (r.settle p o).work = [] := by
  unfold settle
  split
  . next promise hpending => exact h promise (mem_of_pending hpending) o
  . rfl

theorem Unheard.settle (h : r.Unheard) (p : Nat) (o : Outcome α) : (r.settle p o).reactor.Unheard := by
  unfold Reactor.settle
  split
  . intro promise hpromise
    obtain hpromise | rfl := List.mem_or_eq_of_mem_set hpromise
    . exact h promise hpromise
    . intro outcome
      cases outcome <;> rfl
  . exact h

theorem timers_settle (r : Reactor α) (p : Nat) (o : Outcome α) : (r.settle p o).reactor.timers = r.timers := by
  unfold settle
  split <;> rfl

/--
A promise that has been made and is not settled.
-/
structure Unsettled (r : Reactor α) (p : Nat) : Prop where
  made : p < r.promises.length
  outcome : r.outcome? p = none

theorem Unsettled.pending? (h : r.Unsettled p) : ∃ promise, r.pending? p = some promise := by
  obtain ⟨promise, hget⟩ : ∃ promise, r.promises[p]? = some promise := ⟨_, List.getElem?_eq_getElem h.made⟩
  have hopen := h.outcome
  rw [outcome?, hget, Option.bind_some] at hopen
  refine ⟨promise, ?_⟩
  rw [Reactor.pending?, hget, Option.filter_some, hopen]
  rfl

theorem unsettled_create (r : Reactor α) : r.create.2.Unsettled r.promises.length where
  made := by simp [create]
  outcome := by simp [outcome?, create]

theorem Unsettled.outcome?_settle (h : r.Unsettled p) (o : Outcome α) : (r.settle p o).reactor.outcome? p = some o := by
  rw [outcome?_settle_self h.made, h.outcome, Option.getD_none]

/-! ### Resolving and ticking -/

theorem Unheard.resolve_eq (h : r.Unheard) (p : Nat) (o : Outcome α)
    : r.resolve p o = ((r.pending? p).isSome, (r.settle p o).reactor) := by
  unfold resolve
  dsimp only
  rw [h.work_settle, run_nil]

theorem Unheard.run_job (h : r.Unheard) (timed : Bool) (p : Nat) (o : Outcome α)
    : (r.run [.job timed (.settle p o)]).2 = (r.settle p o).reactor := by
  have hwork : (r.step (.job timed (.settle p o))).work = [] := h.work_settle p o
  rw [run]
  dsimp only
  rw [hwork, List.nil_append, run_nil]
  rfl

/--
Nothing is queued, and no timer is due.
-/
theorem tick_of_rest {now : Nat} (hqueue : r.queue = []) (htimers : ∀ timer ∈ r.timers, now < timer.due)
    : (r.tick now).2 = r := by
  have hdue : r.timers.filter (·.due ≤ now) = [] := by
    rw [List.filter_eq_nil_iff]
    intro timer htimer
    simpa using htimers timer htimer
  have hlater : r.timers.filter (now < ·.due) = r.timers := by
    rw [List.filter_eq_self]
    intro timer htimer
    simpa using htimers timer htimer
  unfold tick takeJobs
  dsimp only
  rw [hdue, hlater, hqueue, List.mergeSort_nil, List.map_nil, List.map_nil, List.append_nil, run_nil, ← hqueue]

/--
The reactor once all its jobs and timers have been taken.
-/
def emptied (r : Reactor α) : Reactor α :=
  { r with queue := [], timers := [] }

theorem Unheard.emptied (h : r.Unheard) : r.emptied.Unheard :=
  h

theorem Unsettled.emptied (h : r.Unsettled p) : r.emptied.Unsettled p :=
  ⟨h.made, h.outcome⟩

theorem Unheard.tick_eq (h : r.Unheard) {now : Nat} {timed : Bool}
    (htake : r.takeJobs now = { work := [.job timed (.settle p o)], reactor := r.emptied })
    : (r.tick now).2 = (r.emptied.settle p o).reactor := by
  unfold tick
  rw [htake]
  exact h.emptied.run_job timed p o

theorem Unheard.tick_queued (h : r.Unheard) (hqueue : r.queue = [.settle p o]) (htimers : r.timers = []) (now : Nat)
    : (r.tick now).2 = (r.emptied.settle p o).reactor := by
  have htake : r.takeJobs now = { work := [.job false (.settle p o)], reactor := r.emptied } := by
    simp [takeJobs, Reactor.emptied, hqueue, htimers]
  exact h.tick_eq htake

theorem Unheard.tick_due (h : r.Unheard) {now due : Nat} (hqueue : r.queue = [])
    (htimers : r.timers = [{ due, job := .settle p o }]) (hdue : due ≤ now)
    : (r.tick now).2 = (r.emptied.settle p o).reactor := by
  have htake : r.takeJobs now = { work := [.job true (.settle p o)], reactor := r.emptied } := by
    simp [takeJobs, Reactor.emptied, hqueue, htimers, hdue]
  exact h.tick_eq htake

end Reactor
end VisualNovel
