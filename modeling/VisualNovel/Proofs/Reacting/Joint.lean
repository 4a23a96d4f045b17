import VisualNovel.Proofs.Reacting.Apart
import VisualNovel.Proofs.Reacting.Tally

/-!
This module contains the joint outcome of promises that are settled by jobs in a row. Each of them is passed on to a part of
a task, which is done if all parts are, and the first part that fails decides otherwise, whatever else the reactor does.
-/

namespace VisualNovel

variable {α : Type}

def Outcome.fault? : Outcome α → Option Fault
  | .done _ => none
  | .failed fault => some fault

/--
The outcome of a task whose parts have these outcomes, in the order in which they come.
-/
def Outcome.joint (outcomes : List (Outcome α)) : Outcome α :=
  match outcomes.findSome? Outcome.fault? with
  | none => .done none
  | some fault => .failed fault

theorem Outcome.joint_eq_done_iff {outcomes : List (Outcome α)}
    : Outcome.joint outcomes = .done none ↔ ∀ outcome ∈ outcomes, outcome.fault? = none := by
  rw [← List.findSome?_eq_none_iff, Outcome.joint]
  cases outcomes.findSome? Outcome.fault? <;> simp

theorem Outcome.joint_append_failed {before : List (Outcome α)} (h : ∀ outcome ∈ before, outcome.fault? = none)
    (fault : Fault) (after : List (Outcome α)) : Outcome.joint (before ++ .failed fault :: after) = .failed fault := by
  rw [Outcome.joint, List.findSome?_append, List.findSome?_eq_none_iff.2 h]
  rfl

/-! ### Promises in a row -/

/--
A promise that only passes its outcome on.
-/
def Promise.forwardingTo (target : Nat) : Promise α :=
  { done := [.forward target], fail := [.forward target] }

/--
A promise that only waits as a part of a task.
-/
def Promise.partOf (t : Nat) : Promise α :=
  { done := [.partDone t], fail := [.partFailed t] }

/--
Jobs that settle promises in a row. Behind each of these there is that of a part.
-/
def settling (first : Nat) : List (Outcome α) → List (Job α)
  | [] => []
  | outcome :: outcomes => .settle first outcome :: settling (first + 2) outcomes

/--
The parts that follow the promises in the row.
-/
def bridges (first : Nat) : Nat → List (Part α)
  | 0 => []
  | count + 1 => .bridge first (first + 1) :: bridges (first + 2) count

/--
The promises in the row and those of the parts, as long as all of them are pending.
-/
def bridged (first t : Nat) : Nat → List (Promise α)
  | 0 => []
  | count + 1 => .forwardingTo (first + 1) :: .partOf t :: bridged (first + 2) t count

/--
The jobs that lead to the joint outcome. Without any parts there is one that ends the task.
-/
def joining (first t : Nat) (outcomes : List (Outcome α)) : List (Job α) :=
  if outcomes.isEmpty then [.finish t] else settling first outcomes

/--
What belongs to a task for promises in a row: its own promise, for which others may wait, and behind it the row.
-/
def Reserved.row (p t total : Nat) : Reserved where
  own q := p < q ∧ q ≤ p + 2 * total
  held := p
  task := t

theorem length_bridges (first count : Nat) : (bridges first count : List (Part α)).length = count := by
  induction count generalizing first with
  | zero => rfl
  | succ count ih => exact congrArg (· + 1) (ih _)

theorem length_bridged (first t count : Nat) : (bridged first t count : List (Promise α)).length = 2 * count := by
  induction count generalizing first with
  | zero => rfl
  | succ count ih => exact congrArg (· + 2) (ih _)

theorem getElem?_bridged (first t : Nat) {count i : Nat} (h : i < count)
    : (bridged first t count : List (Promise α))[2 * i]? = some (.forwardingTo (first + 2 * i + 1)) ∧
        (bridged first t count : List (Promise α))[2 * i + 1]? = some (.partOf t) := by
  induction count generalizing first i with
  | zero => cases h
  | succ count ih =>
    cases i with
    | zero => exact ⟨rfl, rfl⟩
    | succ i =>
      have hlater := ih (first + 2) (Nat.lt_of_succ_lt_succ h)
      have htarget : first + 2 * (i + 1) + 1 = first + 2 + 2 * i + 1 := by omega
      rw [htarget]
      exact hlater

theorem eq_of_mem_bridged {first t count : Nat} {promise : Promise α} (h : promise ∈ bridged first t count)
    : promise = .partOf t ∨ ∃ target, target < first + 2 * count ∧ promise = .forwardingTo target := by
  induction count generalizing first with
  | zero => cases h
  | succ count ih =>
    obtain rfl | rfl | hmem := (List.mem_cons.1 h).imp_right List.mem_cons.1
    . exact .inr ⟨first + 1, by omega, rfl⟩
    . exact .inl rfl
    . exact (ih hmem).imp_right fun ⟨target, hlt, heq⟩ => ⟨target, by omega, heq⟩

namespace Reactor

variable {r r' : Reactor α} {p t total completed : Nat} {outcomes : List (Outcome α)} {jobs : List (Job α)}

/--
Of the parts of a running task some have been settled and some have been noted as done. The others are awaited.
-/
structure Joins (p t total settled completed : Nat) (r : Reactor α) : Prop where
  task : r.tasks[t]? = some { promise := p, status := .running, total, completed }
  made : p < r.promises.length
  pending : r.outcome? p = none
  row : ∀ i, settled ≤ i → i < total → r.promises[p + 1 + 2 * i]? = some (.forwardingTo (p + 2 + 2 * i))
  parts : ∀ i, settled ≤ i → i < total → r.promises[p + 2 + 2 * i]? = some (.partOf t)

theorem Joins.of_untouched {settled : Nat} (h : r.Joins p t total settled completed) (hextends : Extends r r')
    (hr : r.Untouched (.row p t total) jobs r') : r'.Joins p t total settled completed where
  task := hr.task.trans h.task
  made := Nat.lt_of_lt_of_le h.made hextends.length_le
  pending := hr.held.trans h.pending
  row i hi hlt := (hr.promises _ (by simp only [Reserved.row]; omega)).trans (h.row i hi hlt)
  parts i hi hlt := (hr.promises _ (by simp only [Reserved.row]; omega)).trans (h.parts i hi hlt)

/--
All that is made from now on is something else.
-/
theorem Joins.noneNew (h : r.Joins p t total 0 0) (r' : Reactor α) : r.NoneNew (.row p t total) r' := by
  refine ⟨fun q hq _ => ?_, fun _ => (List.getElem?_eq_some_iff.1 h.task).1⟩
  obtain ⟨hfirst, hlast⟩ | rfl := hq
  . -- there is at least one part, and the promise of the last one has been made
    have hmade := (List.getElem?_eq_some_iff.1 (h.parts (total - 1) (Nat.zero_le _) (by omega))).1
    omega
  . exact h.made

/-! ### The end of a task -/

/--
A task that ends settles its promise.
-/
theorem outcome?_endTask {task : Task α} (htask : r.tasks[t]? = some task) (hrunning : task.status = .running)
    (hmade : task.promise < r.promises.length) (hpending : r.outcome? task.promise = none) (status : TaskStatus)
    (outcome : Outcome α) : (r.endTask t status outcome).reactor.outcome? task.promise = some outcome := by
  have hsettled : ((r.setTask t { task with status }).settle task.promise outcome).reactor.outcome? task.promise
      = some ((r.outcome? task.promise).getD outcome) :=
    outcome?_settle_self (r := r.setTask t { task with status }) hmade outcome
  unfold endTask
  rw [htask]
  dsimp only
  rw [if_pos hrunning, hsettled, hpending]
  rfl

/--
An outcome lasts, whatever comes behind.
-/
theorem outcome?_run {p : Nat} {outcome : Outcome α} (h : r.outcome? p = some outcome) (work : List (Work α))
    : (r.run work).2.outcome? p = some outcome :=
  (run_extends r work).settled p outcome h

/-! ### One part -/

/--
The outcome of a promise in the row is passed on to the part behind it, and the task is told of it next.
-/
theorem run_settle_forwarding {q target : Nat} (hpromise : r.promises[q]? = some (.forwardingTo target))
    (hpart : r.promises[target]? = some (.partOf t)) (hne : q ≠ target) (timed : Bool) (outcome : Outcome α)
    (rest : List (Work α))
    : (r.run (.job timed (.settle q outcome) :: rest)).2
        =
      (((r.setPromise q { outcome := some outcome }).setPromise target { outcome := some outcome.bare }).run
        (.react (match outcome with | .done _ => .partDone t | .failed _ => .partFailed t) outcome.bare :: rest)).2 := by
  have hpending : r.pending? q = some (.forwardingTo target) := Option.filter_eq_some_iff.2 ⟨hpromise, rfl⟩
  have hnext : (r.setPromise q { outcome := some outcome }).pending? target = some (.partOf t) := by
    rw [pending?_setPromise, if_neg fun h => hne h.1]
    exact Option.filter_eq_some_iff.2 ⟨hpart, rfl⟩
  have hforward : (r.run (.job timed (.settle q outcome) :: rest)).2
      = ((r.setPromise q { outcome := some outcome }).run (.react (.forward target) outcome :: rest)).2 := by
    rw [run_cons, step, settle, hpending]
    cases outcome <;> rfl
  rw [hforward, run_cons, step, settle, hnext]
  cases outcome <;> rfl

theorem Joins.run_settle (h : r.Joins p t total completed completed) (hlt : completed < total) (timed : Bool)
    (outcome : Outcome α) (rest : List (Work α))
    : ∃ r' : Reactor α, r'.Joins p t total (completed + 1) completed ∧
        (r.run (.job timed (.settle (p + 1 + 2 * completed) outcome) :: rest)).2
          =
        (r'.run
          (.react (match outcome with | .done _ => .partDone t | .failed _ => .partFailed t) outcome.bare :: rest)).2 := by
  refine ⟨_, ?_, run_settle_forwarding (h.row completed (Nat.le_refl _) hlt) (h.parts completed (Nat.le_refl _) hlt)
    (by omega) timed outcome rest⟩
  have hother {q : Nat} (hfirst : p + 1 + 2 * completed ≠ q) (hsecond : p + 2 + 2 * completed ≠ q)
      (first second : Promise α)
      : ((r.setPromise (p + 1 + 2 * completed) first).setPromise (p + 2 + 2 * completed) second).promises[q]?
          = r.promises[q]? := by
    rw [setPromise, List.getElem?_set_ne hsecond, setPromise, List.getElem?_set_ne hfirst]
  constructor
  . exact h.task
  . simpa [setPromise] using h.made
  . rw [outcome?, hother (by omega) (by omega)]
    exact h.pending
  . exact fun i hi hlt => (hother (by omega) (by omega) ..).trans (h.row i (Nat.le_of_succ_le hi) hlt)
  . exact fun i hi hlt => (hother (by omega) (by omega) ..).trans (h.parts i (Nat.le_of_succ_le hi) hlt)

theorem Joins.run_partFailed {settled : Nat} (h : r.Joins p t total settled completed) (fault : Fault)
    (rest : List (Work α))
    : (r.run (.react (.partFailed t) (.failed fault) :: rest)).2.outcome? p = some (.failed fault) := by
  rw [run_cons, step]
  exact outcome?_run (outcome?_endTask h.task rfl h.made h.pending ..) _

/--
The task takes note of a part that is done. With the last one it ends.
-/
theorem Joins.run_partDone {settled : Nat} (h : r.Joins p t total settled completed) (outcome : Outcome α)
    (rest : List (Work α))
    : (r.run (.react (.partDone t) outcome :: rest)).2.outcome? p = some (.done none) ∧ completed + 1 = total ∨
        ∃ r' : Reactor α, r'.Joins p t total settled (completed + 1) ∧ completed + 1 ≠ total ∧
          (r.run (.react (.partDone t) outcome :: rest)).2 = (r'.run rest).2 := by
  let noted : Task α := { promise := p, status := .running, total, completed := completed + 1 }
  have hnoted : (r.setTask t noted).tasks[t]? = some noted :=
    List.getElem?_set_self (List.getElem?_eq_some_iff.1 h.task).1
  rw [run_cons, step, partDone, h.task]
  dsimp only
  split
  . next hlast => exact .inl ⟨outcome?_run (outcome?_endTask hnoted rfl h.made h.pending ..) _, hlast⟩
  . next hnot => exact .inr ⟨_, ⟨hnoted, h.made, h.pending, h.row, h.parts⟩, hnot, rfl⟩

/-! ### All parts -/

/--
The jobs of the promises come in a row, so the first one that fails decides.
-/
theorem Joins.run_settling (h : r.Joins p t total completed completed) (hne : outcomes ≠ [])
    (htotal : completed + outcomes.length = total) (after : List (Work α))
    : (r.run ((settling (p + 1 + 2 * completed) outcomes).map (.job false) ++ after)).2.outcome? p
        = some (Outcome.joint outcomes) := by
  induction outcomes generalizing completed r with
  | nil => exact (hne rfl).elim
  | cons outcome outcomes ih =>
    rw [List.length_cons] at htotal
    obtain ⟨s, hs, hrun⟩ := h.run_settle (by omega) false outcome
      ((settling (p + 1 + 2 * (completed + 1)) outcomes).map (.job false) ++ after)
    have hsettling : (settling (p + 1 + 2 * completed) (outcome :: outcomes)).map (.job false) ++ after
        = .job false (.settle (p + 1 + 2 * completed) outcome)
          :: ((settling (p + 1 + 2 * (completed + 1)) outcomes).map (.job false) ++ after) := rfl
    rw [hsettling, hrun]
    cases outcome with
    | failed fault => exact hs.run_partFailed fault _
    | done value =>
      obtain ⟨hdone, hlast⟩ | ⟨s', hs', hnot, hrun⟩ := hs.run_partDone (Outcome.done value).bare
        ((settling (p + 1 + 2 * (completed + 1)) outcomes).map (.job false) ++ after)
      . obtain rfl : outcomes = [] := List.eq_nil_of_length_eq_zero (by omega)
        exact hdone
      . rw [hrun]
        refine ih hs' ?_ (by omega)
        rintro rfl
        exact hnot htotal

theorem Joins.run_finish (h : r.Joins p t 0 0 0) (after : List (Work α))
    : (r.run (.job false (.finish t) :: after)).2.outcome? p = some (.done none) := by
  rw [run_cons, step]
  exact outcome?_run (outcome?_endTask h.task rfl h.made h.pending ..) _

theorem Joins.run_joining (h : r.Joins p t outcomes.length 0 0) (after : List (Work α))
    : (r.run ((joining (p + 1) t outcomes).map (.job false) ++ after)).2.outcome? p
        = some (Outcome.joint outcomes) := by
  cases outcomes with
  | nil => exact h.run_finish after
  | cons outcome outcomes => exact h.run_settling (List.cons_ne_nil _ _) (Nat.zero_add _) after

/-! ### Among other work -/

/--
Other work before the jobs of the promises makes no difference.
-/
theorem Joins.run_before (h : r.Joins p t outcomes.length 0 0) (hapart : r.Apart (.row p t outcomes.length) [])
    {before : List (Work α)} (hbefore : ∀ w ∈ before, w.Apart (.row p t outcomes.length)) (after : List (Work α))
    : (r.run (before ++ (joining (p + 1) t outcomes).map (.job false) ++ after)).2.outcome? p
        = some (Outcome.joint outcomes) := by
  rw [List.append_assoc, run_append]
  exact (h.of_untouched (run_extends r before) (hapart.run hbefore (h.noneNew _))).run_joining after

/--
The jobs of the promises wait in the queue, and nothing else has to do with the task.
-/
structure Awaits (p t : Nat) (outcomes : List (Outcome α)) (r : Reactor α) : Prop where
  joins : r.Joins p t outcomes.length 0 0
  apart : r.Apart (.row p t outcomes.length) (joining (p + 1) t outcomes)

theorem Awaits.run_takeJobs (h : r.Awaits p t outcomes) (now : Nat) (after : List (Work α))
    : ((r.takeJobs now).reactor.run ((r.takeJobs now).work ++ after)).2.outcome? p
        = some (Outcome.joint outcomes) := by
  obtain ⟨before, behind, hwork, happart, htaken⟩ := h.apart.takeJobs now
  rw [hwork, List.append_assoc]
  have hjoins : (r.takeJobs now).reactor.Joins p t outcomes.length 0 0 :=
    h.joins.of_untouched (Extends.of_promises_eq rfl) htaken
  exact hjoins.run_before htaken.apart (List.forall_mem_append.1 happart).1 _

/--
Other work leaves the jobs of the promises in the queue, or there is the joint outcome: a tick has come.
-/
theorem Awaits.run (h : r.Awaits p t outcomes) {work : List (Work α)}
    (hwork : ∀ w ∈ work, w.Apart (.row p t outcomes.length))
    : (r.run work).2.Awaits p t outcomes ∨ (r.run work).2.outcome? p = some (Outcome.joint outcomes) := by
  fun_induction Reactor.run r work with
  | case1 r => exact .inl h
  | case2 r w rest effect later last hrun ih =>
    obtain ⟨hw, hrest⟩ := List.forall_mem_cons.1 hwork
    by_cases htick : ∃ now, w = .op (.tick now)
    . obtain ⟨now, rfl⟩ := htick
      right
      have hdone := h.run_takeJobs now ([.answer (.tick now) (.count (r.takeJobs now).work.length)] ++ rest)
      rw [← List.append_assoc] at hdone
      have heffect : effect.reactor.run (effect.work ++ rest) = (later, last) := hrun
      rw [← show (effect.reactor.run (effect.work ++ rest)).2 = last from congrArg Prod.snd heffect]
      exact hdone
    . rw [hrun] at ih
      have hstep := h.apart.step hw (fun now hop => htick ⟨now, hop⟩) (h.joins.noneNew _)
      have hjoins := h.joins.of_untouched (step_extends r w) hstep.reactor
      exact ih ⟨hjoins, hstep.reactor.apart⟩ (List.forall_mem_append.2 ⟨hstep.work, hrest⟩)

/--
The next tick brings the joint outcome, whatever is done before it and by it.
-/
theorem Awaits.tick (h : r.Awaits p t outcomes) {between : List (Op α)}
    (hbetween : Op.AllApart (.row p t outcomes.length) between) (now : Nat)
    : ((r.exec between).2.tick now).2.outcome? p = some (Outcome.joint outcomes) := by
  obtain hwaits | hdone := h.run (apart_of_allApart hbetween)
  . have hrun := hwaits.run_takeJobs now []
    rw [List.append_nil] at hrun
    exact hrun
  . exact ((r.exec between).2.tick_extends now).settled _ _ hdone

/-! ### Making a task -/

/--
A part that follows a promise makes that promise pass its outcome on, and the task wait for the part.
-/
theorem run_start_bridge {q own : Nat} (hpromise : r.pending? q = some {}) (hown : r.pending? own = some {})
    (hne : q ≠ own) (t i : Nat) (parameters : Fields) (rest : List (Work α))
    : (r.run (.start t i (.bridge q own) parameters :: rest)).2
        =
      (((r.setPromise q (.forwardingTo own)).setPromise own (.partOf t)).run rest).2 := by
  have hlt : q < r.promises.length := (List.getElem?_eq_some_iff.1 (pending?_eq_some.1 hpromise).1).1
  have hnext : (r.setPromise q { done := [.forward own] }).pending? q = some { done := [.forward own] } := by
    rw [pending?_setPromise, if_pos ⟨rfl, hlt⟩]
    rfl
  have hset : (r.setPromise q { done := [.forward own] }).setPromise q (.forwardingTo own)
      = r.setPromise q (.forwardingTo own) := by
    simp [setPromise]
  have hpart : (r.setPromise q (.forwardingTo own)).pending? own = some {} := by
    rw [pending?_setPromise, if_neg fun h => hne h.1]
    exact hown
  have hstart : (r.run (.start t i (.bridge q own) parameters :: rest)).2
      = (r.run (.forward .done q own :: .forward .fail q own :: .join t own :: rest)).2 := by
    rw [run_cons, step]
    rfl
  rw [hstart, run_cons, step, listen_of_pending hpromise, List.nil_append]
  dsimp only [Promise.addListener, List.nil_append]
  rw [run_cons, step, listen_of_pending hnext, List.nil_append]
  dsimp only [Promise.addListener, List.nil_append]
  rw [run_cons, ← Promise.forwardingTo, hset, step_join_of_pending hpart]
  rfl

theorem run_starts (before : List (Promise α)) (count t : Nat) (parameters : Fields) (index : Nat → Nat)
    (rest : List (Work α)) (hpromises : r.promises = before ++ List.replicate (2 * count) ({} : Promise α))
    : (r.run ((bridges before.length count).mapIdx (fun i part => .start t (index i) part parameters) ++ rest)).2
        =
      (({ r with promises := before ++ bridged before.length t count } : Reactor α).run rest).2 := by
  induction count generalizing before r index with
  | zero =>
    have hsame : ({ r with promises := before ++ bridged before.length t 0 } : Reactor α) = r := by
      cases r
      dsimp only at hpromises ⊢
      rw [hpromises]
      rfl
    rw [hsame]
    rfl
  | succ count ih =>
    have hshape : r.promises = before ++ (({} : Promise α) :: {} :: List.replicate (2 * count) ({} : Promise α)) :=
      hpromises
    have hpromise : r.pending? before.length = some {} :=
      pending?_eq_some.2 ⟨by simp [hshape], rfl⟩
    have hown : r.pending? (before.length + 1) = some {} :=
      pending?_eq_some.2 ⟨by simp [hshape], rfl⟩
    let made := before ++ [Promise.forwardingTo (before.length + 1), .partOf t]
    have hset : ((r.setPromise before.length (.forwardingTo (before.length + 1))).setPromise (before.length + 1)
        (.partOf t)).promises = made ++ List.replicate (2 * count) ({} : Promise α) := by
      simp [setPromise, hshape, made]
    have hlength : made.length = before.length + 2 := List.length_append
    have hlater := ih made (index ∘ Nat.succ) hset
    rw [hlength] at hlater
    have hbridged : made ++ bridged (before.length + 2) t count = before ++ bridged before.length t (count + 1) := by
      simp [made, bridged]
    rw [hbridged] at hlater
    rw [bridges, List.mapIdx_cons, List.cons_append, run_start_bridge hpromise hown (Nat.ne_of_lt (Nat.lt_succ_self _))]
    exact hlater

theorem startTask_last (tasks : List (Task α)) (task : Task α) (htasks : r.tasks = tasks ++ [task]) (parameters : Fields)
    : r.startTask tasks.length task parameters
        =
      { work := task.parts.mapIdx fun i part => .start tasks.length i part parameters
        reactor := { r with
          tasks := tasks ++ [{ task with status := .running, parts := [], total := task.parts.length }]
          queue := r.queue ++ if task.parts.isEmpty then [.finish tasks.length] else [] } } := by
  have hset (other : Task α) : r.setTask tasks.length other = { r with tasks := tasks ++ [other] } := by
    simp [setTask, htasks]
  unfold startTask
  rw [hset]
  cases hparts : task.parts with
  | nil => rfl
  | cons part parts => simp

theorem exec_runTask {task : Task α} (htask : r.tasks[t]? = some task) (hnew : task.status = .new) (parameters : Fields)
    : (r.exec [.runTask (.number t) parameters]).2
        =
      ((r.startTask t task parameters).reactor.run ((r.startTask t task parameters).work
        ++ [.answerOutcome (.runTask (.number t) parameters) task.promise])).2 := by
  have hfind : r.findTask? (.number t) = some (t, task) := by
    rw [findTask?, task?, if_pos (List.getElem?_eq_some_iff.1 htask).1, Option.bind_some, htask]
    rfl
  unfold exec
  rw [List.map_singleton, run_cons, step, perform, hfind]
  dsimp only
  rw [if_pos hnew, List.append_nil]

/--
The reactor with some more promises, which jobs settle in a row, and promises for parts that follow them.
-/
def promising (r : Reactor α) (outcomes : List (Outcome α)) : Reactor α :=
  { r with
    promises := r.promises ++ List.replicate (2 * outcomes.length) {}
    queue := r.queue ++ settling r.promises.length outcomes }

theorem promising_cons (r : Reactor α) (outcome : Outcome α) (outcomes : List (Outcome α))
    : (r.create.2.enqueue (.settle r.promises.length outcome)).create.2.promising outcomes
        = r.promising (outcome :: outcomes) := by
  simp [promising, create, enqueue, settling, Nat.mul_succ, List.replicate_succ]

/--
The reactor with a promise, and with a task that has been started for it.
-/
def joined (r : Reactor α) (outcomes : List (Outcome α)) : Reactor α :=
  let p := r.promises.length
  let t := r.tasks.length
  { r with
    promises := r.promises ++ {} :: bridged (p + 1) t outcomes.length
    tasks := r.tasks ++ [{ promise := p, status := .running, total := outcomes.length }]
    queue := r.queue ++ joining (p + 1) t outcomes }

theorem join_promising (r : Reactor α) (outcomes : List (Outcome α))
    : (r.create.2.promising outcomes).join r.promises.length (bridges (r.promises.length + 1) outcomes.length)
        = r.joined outcomes := by
  let parts : List (Part α) := bridges (r.promises.length + 1) outcomes.length
  let task : Task α := { promise := r.promises.length, parts }
  let made : Reactor α := { r.create.2.promising outcomes with tasks := r.tasks ++ [task] }
  let start : Op α := .runTask (.number r.tasks.length) []
  have hcount : parts.length = outcomes.length := length_bridges ..
  have htask : made.tasks[r.tasks.length]? = some task := List.getElem?_concat_length
  have hstarted : made.startTask r.tasks.length task [] = _ := startTask_last r.tasks task rfl []
  have hpromises : (made.startTask r.tasks.length task []).reactor.promises
      = (r.promises ++ [({} : Promise α)]) ++ List.replicate (2 * outcomes.length) ({} : Promise α) := by
    rw [hstarted]
    rfl
  have hrun := run_starts _ outcomes.length r.tasks.length [] id [.answerOutcome start task.promise] hpromises
  rw [hstarted, List.length_append] at hrun
  have hjoin : (r.create.2.promising outcomes).join r.promises.length parts = (made.exec [start]).2 := rfl
  rw [hjoin, exec_runTask htask rfl, hstarted]
  refine hrun.trans ?_
  rw [run_cons, step, List.nil_append, run_nil]
  have hqueue : made.queue ++ (if parts.isEmpty then [.finish r.tasks.length] else [])
      = r.queue ++ joining (r.promises.length + 1) r.tasks.length outcomes := by
    cases outcomes <;> simp [made, parts, promising, create, joining, settling, bridges]
  dsimp only [task]
  rw [hqueue, hcount, List.append_assoc]
  rfl

theorem getElem?_joined (r : Reactor α) (outcomes : List (Outcome α)) (i : Nat)
    : (r.joined outcomes).promises[r.promises.length + 1 + i]?
        = (bridged (r.promises.length + 1) r.tasks.length outcomes.length)[i]? := by
  have hshift : r.promises.length + 1 + i - r.promises.length = i + 1 := by omega
  change (_ ++ _)[_]? = _
  rw [List.getElem?_append_right (by omega), hshift, List.getElem?_cons_succ]

theorem joins_joined (r : Reactor α) (outcomes : List (Outcome α))
    : (r.joined outcomes).Joins r.promises.length r.tasks.length outcomes.length 0 0 where
  task := List.getElem?_concat_length
  made := by simp [joined]
  pending := by simp [joined, outcome?]
  row i _ hi := by
    have htarget : r.promises.length + 2 + 2 * i = r.promises.length + 1 + 2 * i + 1 := by omega
    rw [getElem?_joined, (getElem?_bridged _ _ hi).1, htarget]
  parts i _ hi := by
    have hindex : r.promises.length + 2 + 2 * i = r.promises.length + 1 + (2 * i + 1) := by omega
    rw [hindex, getElem?_joined, (getElem?_bridged _ _ hi).2]

theorem length_joined (r : Reactor α) (outcomes : List (Outcome α))
    : (r.joined outcomes).promises.length = r.promises.length + 1 + 2 * outcomes.length := by
  simp only [joined, List.length_append, List.length_cons, length_bridged]
  omega

theorem pending?_joined (r : Reactor α) (outcomes : List (Outcome α))
    : (r.joined outcomes).pending? r.promises.length = some {} :=
  pending?_eq_some.2 ⟨by simp [joined], rfl⟩

/--
A promise of the reactor is one from before, the new one, or one of the row.
-/
theorem mem_joined {outcomes : List (Outcome α)} {q : Nat} {promise : Promise α}
    (h : (r.joined outcomes).promises[q]? = some promise)
    : r.promises[q]? = some promise ∨ q = r.promises.length ∧ promise = {} ∨
        r.promises.length < q ∧ promise ∈ bridged (r.promises.length + 1) r.tasks.length outcomes.length := by
  change (_ ++ _)[_]? = _ at h
  rw [List.getElem?_append] at h
  split at h
  . exact .inl h
  . next hle =>
    right
    cases hq : q - r.promises.length with
    | zero =>
      rw [hq, List.getElem?_cons_zero] at h
      exact .inl ⟨by omega, (Option.some.inj h).symm⟩
    | succ i =>
      rw [hq, List.getElem?_cons_succ] at h
      exact .inr ⟨by omega, List.mem_of_getElem? h⟩

/--
Nothing that has been made before refers to the row or to the task.
-/
theorem SelfContained.awaits_joined (h : r.SelfContained) (outcomes : List (Outcome α))
    : (r.joined outcomes).Awaits r.promises.length r.tasks.length outcomes where
  joins := r.joins_joined outcomes
  apart := by
    have hahead : r.Ahead (.row r.promises.length r.tasks.length outcomes.length) := by
      refine ⟨?_, Nat.le_refl _⟩
      rintro q (⟨hlt, _⟩ | rfl)
      . exact Nat.le_of_lt hlt
      . exact Nat.le_refl _
    have hapart := h _ hahead
    obtain ⟨before, after, hqueue, hjobs⟩ := hapart.queue
    refine { hapart with promises := fun q promise hq hpromise => ?_, tasks := fun s task hs htask => ?_, queue := ?_ }
    . have hlength : q < (r.joined outcomes).promises.length := (List.getElem?_eq_some_iff.1 hpromise).1
      obtain hpromise | ⟨_, rfl⟩ | ⟨hlt, _⟩ := mem_joined hpromise
      . exact hapart.promises q promise hq hpromise
      . exact Promise.apart_new
      . rw [length_joined] at hlength
        exact (hq ⟨hlt, by omega⟩).elim
    . obtain ⟨hlength, _⟩ := List.getElem?_eq_some_iff.1 htask
      have hbefore : s < r.tasks.length := by
        have hne : s ≠ r.tasks.length := hs
        simp only [joined, List.length_append, List.length_singleton] at hlength
        omega
      change (_ ++ _)[_]? = _ at htask
      rw [List.getElem?_append_left hbefore] at htask
      exact hapart.tasks s task hs htask
    . refine ⟨before ++ after, [], ?_, by rwa [List.append_nil]⟩
      rw [List.append_nil] at hqueue ⊢
      rw [joined, hqueue]

theorem apart_joining {x : Reserved} {first : Nat} (h : ∀ q, x.Bars q → first + 2 * outcomes.length ≤ q)
    (hne : t ≠ x.task) : ∀ job ∈ joining first t outcomes, job.Apart x := by
  have hsettling : ∀ job ∈ settling first outcomes, job.Apart x := by
    clear hne
    induction outcomes generalizing first with
    | nil => exact nofun
    | cons outcome outcomes ih =>
      rw [List.length_cons] at h
      refine List.forall_mem_cons.2 ⟨fun hfirst => ?_, ih fun q hq => ?_⟩
      . have hle := h first hfirst
        omega
      . have hle := h q hq
        omega
  unfold joining
  split
  . exact List.forall_mem_singleton.2 hne
  . exact hsettling

/--
The task refers to nothing but to what has been made with it.
-/
theorem SelfContained.joined (h : r.SelfContained) (outcomes : List (Outcome α)) : (r.joined outcomes).SelfContained := by
  intro x hx
  have htasks : (r.joined outcomes).tasks.length = r.tasks.length + 1 := List.length_append
  have hbars (q : Nat) (hq : x.Bars q) : r.promises.length + 1 + 2 * outcomes.length ≤ q := by
    rw [← length_joined]
    exact hx.promises q hq
  have hlt := hx.task
  rw [htasks] at hlt
  have hne : r.tasks.length ≠ x.task := Nat.ne_of_lt hlt
  have hlast : ¬x.Bars r.promises.length := fun hlast => by
    have hle := hbars _ hlast
    omega
  have hapart := h x (hx.of_le (by rw [length_joined]; omega) (by omega))
  obtain ⟨before, after, hqueue, hjobs⟩ := hapart.queue
  refine { hapart with promises := fun q promise hq hpromise => ?_, tasks := fun s task hs htask => ?_, queue := ?_ }
  . obtain hpromise | ⟨_, rfl⟩ | ⟨_, hmem⟩ := mem_joined hpromise
    . exact hapart.promises q promise hq hpromise
    . exact Promise.apart_new
    . obtain rfl | ⟨target, hlt, rfl⟩ := eq_of_mem_bridged hmem
      . exact ⟨List.forall_mem_singleton.2 hne, List.forall_mem_singleton.2 hne, nofun⟩
      . have htarget : ¬x.Bars target := fun hbar => Nat.not_lt.2 (hbars target hbar) hlt
        exact ⟨List.forall_mem_singleton.2 htarget, List.forall_mem_singleton.2 htarget, nofun⟩
  . obtain rfl | htask := eq_or_of_getElem?_concat htask
    . exact ⟨hlast, nofun⟩
    . exact hapart.tasks s task hs htask
  . refine ⟨before ++ after, joining (r.promises.length + 1) r.tasks.length outcomes, ?_, ?_⟩
    . rw [List.append_nil] at hqueue ⊢
      rw [Reactor.joined, hqueue]
    . exact List.forall_mem_append.2 ⟨hjobs, apart_joining hbars hne⟩

end Reactor
end VisualNovel
