import VisualNovel.Proofs.Promises
import VisualNovel.Proofs.Reacting.Notice

/-!
This module contains what a reactor does apart from some promises and a task that nobody has been given, and apart from a
promise that nobody else settles: whatever is done, to any depth, they stay as they are.
-/

namespace VisualNovel

variable {α : Type}

/-! ### Work apart from what is reserved -/

/--
Promises and a task that nobody has been given, and a promise that may be waited for, but not be settled.
-/
structure Reserved where
  own : Nat → Prop
  held : Nat
  task : Nat

/--
The promises that are not to be settled.
-/
def Reserved.Bars (x : Reserved) (p : Nat) : Prop :=
  x.own p ∨ p = x.held

theorem Reserved.not_own {x : Reserved} {p : Nat} (h : ¬x.Bars p) : ¬x.own p :=
  fun hown => h (.inl hown)

def Ref.Apart (own : Nat → Prop) : Ref → Prop
  | .number n => ¬own n
  | .name _ => True

mutual

/--
Neither an operation nor what it puts off refers to the promises or the task by their numbers, or settles the other promise
by its number.
-/
def Op.Apart (x : Reserved) : Op α → Prop
  | .listen _ p _ body => p.Apart x.own ∧ Op.AllApart x body
  | .settle p _ => p.Apart x.Bars
  | .poll p _ => p.Apart x.own
  | .defer _ body | .schedule _ _ body => Op.AllApart x body
  | .addPart s p _ body => s.Apart (· = x.task) ∧ p.Apart x.own ∧ Op.AllApart x body
  | .runTask s _ | .abortTask s => s.Apart (· = x.task)
  | _ => True

def Op.AllApart (x : Reserved) : List (Op α) → Prop
  | [] => True
  | op :: ops => op.Apart x ∧ Op.AllApart x ops

end

def Reaction.Apart (x : Reserved) : Reaction α → Prop
  | .listener _ _ body => Op.AllApart x body
  | .forward p => ¬x.Bars p
  | .partDone s | .partFailed s => s ≠ x.task

def Job.Apart (x : Reserved) : Job α → Prop
  | .ops _ body => Op.AllApart x body
  | .settle p _ => ¬x.Bars p
  | .finish s => s ≠ x.task

structure Part.Apart (x : Reserved) (part : Part α) : Prop where
  promise : ¬x.own part.promise
  body : Op.AllApart x part.body
  follows : ∀ p, part.follows = some p → ¬x.own p ∧ ¬x.Bars part.promise

structure Task.Apart (x : Reserved) (task : Task α) : Prop where
  promise : ¬x.Bars task.promise
  parts : ∀ part ∈ task.parts, part.Apart x

structure Promise.Apart (x : Reserved) (promise : Promise α) : Prop where
  done : ∀ reaction ∈ promise.done, reaction.Apart x
  fail : ∀ reaction ∈ promise.fail, reaction.Apart x
  always : ∀ reaction ∈ promise.always, reaction.Apart x

def Work.Apart (x : Reserved) : Work α → Prop
  | .op operation => operation.Apart x
  | .react reaction _ => reaction.Apart x
  | .job _ j => j.Apart x
  | .start s _ part _ => s ≠ x.task ∧ part.Apart x
  | .forward _ p target => ¬x.own p ∧ ¬x.Bars target
  | .join s p => s ≠ x.task ∧ ¬x.own p
  | .answer .. | .answerOutcome .. | .wake _ => True

namespace Reactor

/--
All that is in a reactor is apart from what is reserved, but for this itself and some jobs in a row.
-/
structure Apart (x : Reserved) (jobs : List (Job α)) (r : Reactor α) : Prop where
  promises : ∀ p promise, ¬x.own p → r.promises[p]? = some promise → promise.Apart x
  tasks : ∀ s task, s ≠ x.task → r.tasks[s]? = some task → task.Apart x
  promiseNames : ∀ entry ∈ r.promiseNames, ¬x.Bars entry.2
  taskNames : ∀ entry ∈ r.taskNames, entry.2 ≠ x.task
  queue : ∃ before after, r.queue = before ++ jobs ++ after ∧ ∀ job ∈ before ++ after, job.Apart x
  timers : ∀ timer ∈ r.timers, timer.job.Apart x

/--
What is reserved is in the later reactor as it is in the earlier one. Somebody may wait for the other promise by now.
-/
structure Untouched (x : Reserved) (jobs : List (Job α)) (r r' : Reactor α) : Prop where
  apart : r'.Apart x jobs
  promises : ∀ p, x.own p → r'.promises[p]? = r.promises[p]?
  held : r'.outcome? x.held = r.outcome? x.held
  task : r'.tasks[x.task]? = r.tasks[x.task]?

end Reactor

structure Effect.Untouched (x : Reserved) (jobs : List (Job α)) (r : Reactor α) (e : Effect α) : Prop where
  work : ∀ w ∈ e.work, w.Apart x
  reactor : r.Untouched x jobs e.reactor

section Apart

variable {x : Reserved} {jobs : List (Job α)} {r r' r'' : Reactor α}

theorem apart_of_allApart {body : List (Op α)} (h : Op.AllApart x body) : ∀ w ∈ body.map Work.op, w.Apart x := by
  induction body with
  | nil => exact nofun
  | cons op body ih => exact List.forall_mem_cons.2 ⟨h.1, ih h.2⟩

theorem Promise.apart_new : ({} : Promise α).Apart x :=
  ⟨nofun, nofun, nofun⟩

theorem Promise.Apart.waiting {promise : Promise α} (h : promise.Apart x) (outcome : Outcome α)
    : ∀ w ∈ promise.waiting outcome, w.Apart x := by
  have hreact {reactions : List (Reaction α)} (hr : ∀ reaction ∈ reactions, reaction.Apart x)
      : ∀ w ∈ reactions.map (Work.react · outcome), w.Apart x :=
    List.forall_mem_map.2 hr
  unfold Promise.waiting
  refine List.forall_mem_append.2 ⟨?_, List.forall_mem_append.2 ⟨hreact h.always, ?_⟩⟩
  . cases outcome with
    | done => exact hreact h.done
    | failed => exact hreact h.fail
  . exact List.forall_mem_map.2 fun _ _ => trivial

theorem Promise.Apart.addListener {promise : Promise α} (h : promise.Apart x) (channel : Channel)
    {reaction : Reaction α} (hreaction : reaction.Apart x) : (promise.addListener channel reaction).Apart x := by
  have hadd {reactions : List (Reaction α)} (hr : ∀ other ∈ reactions, other.Apart x)
      : ∀ other ∈ reactions ++ [reaction], other.Apart x :=
    List.forall_mem_append.2 ⟨hr, List.forall_mem_singleton.2 hreaction⟩
  cases channel with
  | done => exact { h with done := hadd h.done }
  | fail => exact { h with fail := hadd h.fail }
  | always => exact { h with always := hadd h.always }

namespace Reactor

theorem Apart.untouched (h : r.Apart x jobs) : r.Untouched x jobs r :=
  ⟨h, fun _ _ => rfl, rfl, rfl⟩

theorem Untouched.trans (h : r.Untouched x jobs r') (h' : r'.Untouched x jobs r'') : r.Untouched x jobs r'' :=
  ⟨h'.apart, fun p hp => (h'.promises p hp).trans (h.promises p hp), h'.held.trans h.held, h'.task.trans h.task⟩

theorem Untouched.idle (h : r.Untouched x jobs r') : (Effect.mk [] r').Untouched x jobs r :=
  ⟨nofun, h⟩

theorem Apart.idle (h : r.Apart x jobs) : (Effect.mk [] r).Untouched x jobs r :=
  h.untouched.idle

theorem Untouched.then {e : Effect α} (h : r.Untouched x jobs r') (he : e.Untouched x jobs r')
    : e.Untouched x jobs r :=
  ⟨he.work, h.trans he.reactor⟩

end Reactor

theorem Effect.Untouched.append {e : Effect α} (h : e.Untouched x jobs r) {last : Work α} (hlast : last.Apart x)
    : ({ e with work := e.work ++ [last] } : Effect α).Untouched x jobs r :=
  ⟨List.forall_mem_append.2 ⟨h.work, List.forall_mem_singleton.2 hlast⟩, h.reactor⟩

namespace Reactor

/-! ### Changes of a reactor -/

theorem eq_or_of_getElem?_set {β : Type} {xs : List β} {i j : Nat} {x y : β} (h : (xs.set i x)[j]? = some y)
    : y = x ∨ xs[j]? = some y := by
  rw [List.getElem?_set] at h
  split at h
  . split at h
    . exact .inl (Option.some.inj h).symm
    . cases h
  . exact .inr h

theorem getElem?_concat_of_ne {β : Type} (xs : List β) (x : β) {i : Nat} (h : i ≠ xs.length)
    : (xs ++ [x])[i]? = xs[i]? := by
  rw [List.getElem?_append]
  split
  . rfl
  . next hlt =>
    rw [List.getElem?_eq_none (Nat.not_lt.1 hlt), List.getElem?_eq_none]
    rw [List.length_singleton]
    omega

theorem eq_or_of_getElem?_concat {β : Type} {xs : List β} {i : Nat} {x y : β} (h : (xs ++ [x])[i]? = some y)
    : y = x ∨ xs[i]? = some y := by
  by_cases hi : i = xs.length
  . rw [hi, List.getElem?_concat_length] at h
    exact .inl (Option.some.inj h).symm
  . rw [getElem?_concat_of_ne xs x hi] at h
    exact .inr h

theorem Apart.setPromise (h : r.Apart x jobs) {p : Nat} (hp : ¬x.own p) {promise : Promise α}
    (hpromise : promise.Apart x) (hheld : p = x.held → promise.outcome = r.outcome? x.held)
    : r.Untouched x jobs (r.setPromise p promise) := by
  refine ⟨{ h with promises := fun q other hq hother => ?_ }, fun q hq => ?_, ?_, rfl⟩
  . obtain rfl | hother := eq_or_of_getElem?_set hother
    . exact hpromise
    . exact h.promises q other hq hother
  . have hne : p ≠ q := fun heq => hp (heq ▸ hq)
    rw [Reactor.setPromise, List.getElem?_set_ne hne]
  . rw [outcome?_setPromise]
    split
    . next heq => exact hheld heq.1
    . rfl

theorem Apart.setTask (h : r.Apart x jobs) {s : Nat} (hs : s ≠ x.task) {task : Task α} (htask : task.Apart x)
    : r.Untouched x jobs (r.setTask s task) := by
  refine ⟨{ h with tasks := fun s' other hs' hother => ?_ }, fun _ _ => rfl, rfl, List.getElem?_set_ne hs⟩
  obtain rfl | hother := eq_or_of_getElem?_set hother
  . exact htask
  . exact h.tasks s' other hs' hother

theorem Apart.enqueue (h : r.Apart x jobs) {job : Job α} (hjob : job.Apart x)
    : r.Untouched x jobs (r.enqueue job) := by
  obtain ⟨before, after, hqueue, happart⟩ := h.queue
  refine ⟨{ h with queue := ⟨before, after ++ [job], ?_, ?_⟩ }, fun _ _ => rfl, rfl, rfl⟩
  . rw [Reactor.enqueue, hqueue, List.append_assoc _ after]
  . rw [← List.append_assoc]
    exact List.forall_mem_append.2 ⟨happart, List.forall_mem_singleton.2 hjob⟩

theorem Apart.addTimer (h : r.Apart x jobs) (due : Nat) {job : Job α} (hjob : job.Apart x)
    : r.Untouched x jobs (r.addTimer due job) :=
  ⟨{ h with timers := List.forall_mem_append.2 ⟨h.timers, List.forall_mem_singleton.2 hjob⟩ }, fun _ _ => rfl, rfl, rfl⟩

theorem Apart.create (h : r.Apart x jobs) (hnew : ¬x.own r.promises.length) : r.Untouched x jobs r.create.2 := by
  refine ⟨{ h with promises := fun q promise hq hpromise => ?_ }, fun q hq => getElem?_concat_of_ne _ _ ?_,
    r.outcome?_create, rfl⟩
  . obtain rfl | hpromise := eq_or_of_getElem?_concat hpromise
    . exact Promise.apart_new
    . exact h.promises q promise hq hpromise
  . rintro rfl
    exact hnew hq

theorem Apart.name (h : r.Apart x jobs) (name : String) {p : Nat} (hp : ¬x.Bars p)
    : r.Untouched x jobs { r with promiseNames := (name, p) :: r.promiseNames } :=
  ⟨{ h with promiseNames := List.forall_mem_cons.2 ⟨hp, h.promiseNames⟩ }, fun _ _ => rfl, rfl, rfl⟩

theorem Apart.addTask (h : r.Apart x jobs) (name : String) {task : Task α} (htask : task.Apart x)
    (hnew : r.tasks.length ≠ x.task)
    : r.Untouched x jobs
        { r with tasks := r.tasks ++ [task], taskNames := (name, r.tasks.length) :: r.taskNames } := by
  refine ⟨{ h with tasks := fun s other hs hother => ?_, taskNames := List.forall_mem_cons.2 ⟨hnew, h.taskNames⟩ },
    fun _ _ => rfl, rfl, getElem?_concat_of_ne _ _ (Ne.symm hnew)⟩
  obtain rfl | hother := eq_or_of_getElem?_concat hother
  . exact htask
  . exact h.tasks s other hs hother

/-! ### What is found by reference -/

/--
Neither the number nor the name of a promise leads to one that is reserved.
-/
theorem Apart.promise? (h : r.Apart x jobs) {own : Nat → Prop} (hown : ∀ p, own p → x.Bars p) {ref : Ref}
    (href : ref.Apart own) {p : Nat} (hp : r.promise? ref = some p) : ¬own p := by
  cases ref with
  | number n =>
    unfold Reactor.promise? at hp
    dsimp only at hp
    split at hp
    . cases hp
      exact href
    . cases hp
  | name s =>
    obtain ⟨before, after, hnames, _⟩ := List.lookup_eq_some_iff.1 hp
    intro hreserved
    apply h.promiseNames (s, p) _ (hown p hreserved)
    rw [hnames]
    exact List.mem_append_right _ List.mem_cons_self

theorem Apart.task? (h : r.Apart x jobs) {ref : Ref} (href : ref.Apart (· = x.task)) {s : Nat}
    (hs : r.task? ref = some s) : s ≠ x.task := by
  cases ref with
  | number n =>
    unfold Reactor.task? at hs
    dsimp only at hs
    split at hs
    . cases hs
      exact href
    . cases hs
  | name name =>
    obtain ⟨before, after, hnames, _⟩ := List.lookup_eq_some_iff.1 hs
    apply h.taskNames (name, s)
    rw [hnames]
    exact List.mem_append_right _ List.mem_cons_self

theorem Apart.findPromise? (h : r.Apart x jobs) {ref : Ref} (href : ref.Apart x.own) {p : Nat} {promise : Promise α}
    (hfind : r.findPromise? ref = some (p, promise)) : ¬x.own p ∧ promise.Apart x := by
  obtain ⟨q, hq, hget⟩ := Option.bind_eq_some_iff.1 hfind
  obtain ⟨_, hget, heq⟩ := Option.map_eq_some_iff.1 hget
  cases heq
  have hp := h.promise? (fun _ => .inl) href hq
  exact ⟨hp, h.promises p promise hp hget⟩

theorem Apart.findTask? (h : r.Apart x jobs) {ref : Ref} (href : ref.Apart (· = x.task)) {s : Nat} {task : Task α}
    (hfind : r.findTask? ref = some (s, task)) : s ≠ x.task ∧ task.Apart x := by
  obtain ⟨q, hq, hget⟩ := Option.bind_eq_some_iff.1 hfind
  obtain ⟨_, hget, heq⟩ := Option.map_eq_some_iff.1 hget
  cases heq
  have hs := h.task? href hq
  exact ⟨hs, h.tasks s task hs hget⟩

/-! ### Pieces of work -/

theorem Apart.settle (h : r.Apart x jobs) {p : Nat} (hp : ¬x.Bars p) (outcome : Outcome α)
    : (r.settle p outcome).Untouched x jobs r := by
  have hown := Reserved.not_own hp
  unfold Reactor.settle
  split
  . next promise hpending =>
    have hget := (Option.filter_eq_some_iff.1 hpending).1
    refine ⟨(h.promises p promise hown hget).waiting outcome, h.setPromise hown ⟨nofun, nofun, nofun⟩ ?_⟩
    exact fun heq => (hp (.inr heq)).elim
  . exact h.idle

theorem Apart.listen (h : r.Apart x jobs) (channel : Channel) {p : Nat} (hp : ¬x.own p) {reaction : Reaction α}
    (hreaction : reaction.Apart x) : (r.listen channel p reaction).Untouched x jobs r := by
  unfold Reactor.listen
  split
  . exact h.idle
  . next promise hget =>
    split
    . have hheld (heq : p = x.held) : (promise.addListener channel reaction).outcome = r.outcome? x.held := by
        rw [outcome?, ← heq, hget]
        cases channel <;> rfl
      exact (h.setPromise hp ((h.promises p promise hp hget).addListener channel hreaction) hheld).idle
    . refine ⟨?_, h.untouched⟩
      dsimp only
      split
      . exact List.forall_mem_singleton.2 hreaction
      . exact List.forall_mem_nil _

theorem Apart.endTask (h : r.Apart x jobs) {s : Nat} (hs : s ≠ x.task) (status : TaskStatus) (outcome : Outcome α)
    : (r.endTask s status outcome).Untouched x jobs r := by
  unfold Reactor.endTask
  split
  . next task hget =>
    have htask := h.tasks s task hs hget
    have hset : r.Untouched x jobs (r.setTask s { task with status }) := h.setTask hs ⟨htask.promise, htask.parts⟩
    split
    . exact hset.then (hset.apart.settle htask.promise outcome)
    . exact h.idle
  . exact h.idle

theorem Apart.partDone (h : r.Apart x jobs) {s : Nat} (hs : s ≠ x.task) : (r.partDone s).Untouched x jobs r := by
  unfold Reactor.partDone
  split
  . next task hget =>
    have htask := h.tasks s task hs hget
    have hset : r.Untouched x jobs (r.setTask s { task with completed := task.completed + 1 }) :=
      h.setTask hs ⟨htask.promise, htask.parts⟩
    dsimp only
    split
    . exact hset.then (hset.apart.endTask hs .done (.done none))
    . exact hset.idle
  . exact h.idle

theorem Apart.startTask (h : r.Apart x jobs) {s : Nat} (hs : s ≠ x.task) {task : Task α} (htask : task.Apart x)
    (parameters : Fields) : (r.startTask s task parameters).Untouched x jobs r := by
  have hset : r.Untouched x jobs
      (r.setTask s { task with status := .running, parts := [], total := task.parts.length }) :=
    h.setTask hs ⟨htask.promise, nofun⟩
  unfold Reactor.startTask
  dsimp only
  split
  . have hfinish : Job.Apart x (.finish s : Job α) := hs
    exact (hset.trans (hset.apart.enqueue hfinish)).idle
  . refine ⟨?_, hset⟩
    intro w hw
    obtain ⟨i, hi, rfl⟩ := List.mem_mapIdx.1 hw
    exact ⟨hs, htask.parts _ (List.getElem_mem hi)⟩

theorem Apart.abortTask (h : r.Apart x jobs) {s : Nat} (hs : s ≠ x.task) {task : Task α} (htask : task.Apart x)
    : (r.abortTask s task).Untouched x jobs r := by
  have hset : r.Untouched x jobs (r.setTask s { task with status := .aborted, parts := [] }) :=
    h.setTask hs ⟨htask.promise, nofun⟩
  unfold Reactor.abortTask
  split
  . exact hset.then (hset.apart.settle htask.promise _)
  . exact h.idle

/--
The jobs of a tick, in their order. The timers come last.
-/
theorem Apart.takeJobs (h : r.Apart x jobs) (now : Nat)
    : ∃ before after, (r.takeJobs now).work = before ++ jobs.map (.job false) ++ after ∧
        (∀ w ∈ before ++ after, w.Apart x) ∧ r.Untouched x [] (r.takeJobs now).reactor := by
  obtain ⟨before, after, hqueue, happart⟩ := h.queue
  obtain ⟨hbefore, hafter⟩ := List.forall_mem_append.1 happart
  let due := (r.timers.filter (·.due ≤ now)).mergeSort (fun a b => a.due ≤ b.due)
  have hdue : ∀ w ∈ due.map fun timer => Work.job true timer.job, w.Apart x := by
    intro w hw
    obtain ⟨timer, htimer, rfl⟩ := List.mem_map.1 hw
    exact h.timers timer (List.mem_filter.1 (List.mem_mergeSort.1 htimer)).1
  have hleft : ∀ timer ∈ r.timers.filter (now < ·.due), timer.job.Apart x :=
    fun timer htimer => h.timers timer (List.mem_filter.1 htimer).1
  refine ⟨before.map (.job false), after.map (.job false) ++ due.map fun timer => .job true timer.job, ?_, ?_,
    ⟨{ h with queue := ⟨[], [], rfl, nofun⟩, timers := hleft }, fun _ _ => rfl, rfl, rfl⟩⟩
  . unfold Reactor.takeJobs
    rw [hqueue, List.map_append, List.map_append]
    exact List.append_assoc ..
  . refine List.forall_mem_append.2 ⟨List.forall_mem_map.2 hbefore, List.forall_mem_append.2 ⟨?_, hdue⟩⟩
    exact List.forall_mem_map.2 hafter

/--
Nothing that is reserved is made on the way from a reactor to a later one.
-/
structure NoneNew (x : Reserved) (r r' : Reactor α) : Prop where
  promises : ∀ p, x.Bars p → p < r'.promises.length → p < r.promises.length
  task : x.task < r'.tasks.length → x.task < r.tasks.length

theorem Apart.performs (h : r.Apart x jobs) {op : Op α} {e : Effect α} {answer : Work α} (hop : op.Apart x)
    (hperforms : r.Performs op e answer) (htick : ∀ now, op ≠ .tick now) (hnew : r.NoneNew x e.reactor)
    : e.Untouched x jobs r := by
  have hcreate (hlt : r.promises.length < e.reactor.promises.length) : ¬x.Bars r.promises.length :=
    fun hbars => Nat.lt_irrefl _ (hnew.promises _ hbars hlt)
  cases hperforms with
  | tick now => exact (htick now rfl).elim
  | idles => exact h.idle
  | create name =>
    have hbars := hcreate (by simp [Reactor.create])
    have hmade := h.create (Reserved.not_own hbars)
    exact (hmade.trans (hmade.apart.name name hbars)).idle
  | listen hp channel => exact h.listen channel (h.promise? (fun _ => .inl) hop.1 hp) hop.2
  | settle hp outcome => exact h.settle (h.promise? (fun _ => id) hop hp) outcome
  | poll hfind =>
    obtain ⟨hp, hpromise⟩ := h.findPromise? hop hfind
    apply Untouched.idle
    refine h.setPromise hp ⟨hpromise.done, hpromise.fail, hpromise.always⟩ ?_
    rintro rfl
    rw [outcome?, r.findPromise?_eq_some hfind]
    rfl
  | defer label body =>
    have hjob : Job.Apart x (.ops label body) := hop
    exact (h.enqueue hjob).idle
  | schedule due label body =>
    have hjob : Job.Apart x (.ops label body) := hop
    exact (h.addTimer due hjob).idle
  | sleep name due =>
    have hbars := hcreate (by simp [Reactor.sleep, Reactor.create, Reactor.addTimer])
    have hjob : Job.Apart x (.settle r.promises.length (.done none) : Job α) := hbars
    have hmade := h.create (Reserved.not_own hbars)
    have hadded := hmade.trans (hmade.apart.addTimer due hjob)
    exact (hadded.trans (hadded.apart.name name hbars)).idle
  | createTask name =>
    have hbars := hcreate (by simp [Reactor.create])
    have htask : r.tasks.length ≠ x.task := by
      intro heq
      have hlt := hnew.task (by simp [← heq])
      exact Nat.lt_irrefl _ (heq ▸ hlt)
    have hnewTask : Task.Apart x ({ promise := r.promises.length } : Task α) := ⟨hbars, List.forall_mem_nil _⟩
    have hmade := h.create (Reserved.not_own hbars)
    have hadded := hmade.trans (hmade.apart.addTask name hnewTask htask)
    exact (hadded.trans (hadded.apart.name name hbars)).idle
  | @addPart _ _ s promise task hfind hp label body =>
    obtain ⟨hs, htask⟩ := h.findTask? hop.1 hfind
    have hpart : Part.Apart x { label, body, promise } := ⟨h.promise? (fun _ => .inl) hop.2.1 hp, hop.2.2, by simp⟩
    apply Untouched.idle
    apply h.setTask hs
    exact ⟨htask.promise, List.forall_mem_append.2 ⟨htask.parts, List.forall_mem_singleton.2 hpart⟩⟩
  | runTask hfind _ parameters =>
    obtain ⟨hs, htask⟩ := h.findTask? hop hfind
    exact h.startTask hs htask parameters
  | abortTask hfind =>
    obtain ⟨hs, htask⟩ := h.findTask? hop hfind
    exact h.abortTask hs htask

theorem Apart.perform (h : r.Apart x jobs) {op : Op α} (hop : op.Apart x) (htick : ∀ now, op ≠ .tick now)
    (hnew : r.NoneNew x (r.perform op).reactor) : (r.perform op).Untouched x jobs r := by
  obtain ⟨e, answer, hperforms, heq⟩ := r.exists_performs op
  rw [heq] at hnew ⊢
  apply (h.performs hop hperforms htick hnew).append
  cases hperforms.answers <;> trivial

theorem Apart.step (h : r.Apart x jobs) {w : Work α} (hw : w.Apart x) (htick : ∀ now, w ≠ .op (.tick now))
    (hnew : r.NoneNew x (r.step w).reactor) : (r.step w).Untouched x jobs r := by
  cases w with
  | op op => exact h.perform hw (fun now hop => htick now (congrArg Work.op hop)) hnew
  | answer | answerOutcome | wake => exact h.idle
  | react reaction outcome =>
    cases reaction with
    | listener channel label body => exact ⟨apart_of_allApart hw, h.untouched⟩
    | forward p => exact h.settle hw outcome.bare
    | partDone s => exact h.partDone hw
    | partFailed s => exact h.endTask hw .failed outcome
  | job timed job =>
    cases job with
    | ops label body => exact ⟨apart_of_allApart hw, h.untouched⟩
    | settle p outcome => exact h.settle hw outcome
    | finish s => exact h.endTask hw .done (.done none)
  | start s index part parameters =>
    refine ⟨List.forall_mem_append.2 ⟨apart_of_allApart hw.2.body, List.forall_mem_append.2 ⟨?_, ?_⟩⟩, h.untouched⟩
    . intro w hforward
      obtain ⟨_, p, hfollows, rfl⟩ := Part.exists_of_mem_forwards hforward
      exact hw.2.follows p hfollows
    . exact List.forall_mem_singleton.2 ⟨hw.1, hw.2.promise⟩
  | forward channel p target => exact h.listen channel hw.1 hw.2
  | join s p =>
    have hdone : Reaction.Apart x (.partDone s : Reaction α) := hw.1
    have hfailed : Reaction.Apart x (.partFailed s : Reaction α) := hw.1
    have hfirst := h.listen .done hw.2 hdone
    have hsecond := hfirst.reactor.apart.listen .fail hw.2 hfailed
    exact ⟨List.forall_mem_append.2 ⟨hfirst.work, hsecond.work⟩, hfirst.reactor.trans hsecond.reactor⟩

/--
A tick is apart from the promises and the task if no jobs are left that are not.
-/
theorem Apart.step_tick (h : r.Apart x []) (now : Nat) : (r.step (.op (.tick now))).Untouched x [] r := by
  obtain ⟨before, after, hwork, happart, htaken⟩ := h.takeJobs now
  rw [List.map_nil, List.append_nil] at hwork
  have htake : (r.takeJobs now).Untouched x [] r := by
    refine ⟨?_, htaken⟩
    rw [hwork]
    exact happart
  exact htake.append trivial

/-! ### Runs -/

theorem tasks_length_le_step (r : Reactor α) (w : Work α) : r.tasks.length ≤ (r.step w).reactor.tasks.length := by
  apply Nat.le_of_not_lt
  intro hlt
  have hget := List.getElem?_eq_getElem hlt
  have hlater := Stroke.task_effect { work := w, reactor := r } hget
  exact Nat.lt_irrefl _ (List.getElem?_eq_some_iff.1 hlater).1

theorem tasks_length_le_run (r : Reactor α) (work : List (Work α)) : r.tasks.length ≤ (r.run work).2.tasks.length := by
  fun_induction Reactor.run r work with
  | case1 r => exact Nat.le_refl _
  | case2 r w rest effect later last hrun ih =>
    rw [hrun] at ih
    exact Nat.le_trans (tasks_length_le_step r w) ih

theorem NoneNew.of_le (h : r.NoneNew x r'') (hpromises : r'.promises.length ≤ r''.promises.length)
    (htasks : r'.tasks.length ≤ r''.tasks.length) : r.NoneNew x r' :=
  ⟨fun p hp hlt => h.promises p hp (Nat.lt_of_lt_of_le hlt hpromises), fun ht => h.task (Nat.lt_of_lt_of_le ht htasks)⟩

theorem NoneNew.of_ge (h : r.NoneNew x r'') (hpromises : r.promises.length ≤ r'.promises.length)
    (htasks : r.tasks.length ≤ r'.tasks.length) : r'.NoneNew x r'' :=
  ⟨fun p hp hlt => Nat.lt_of_lt_of_le (h.promises p hp hlt) hpromises, fun ht => Nat.lt_of_lt_of_le (h.task ht) htasks⟩

/--
Whatever is done apart from the promises and the task, they stay as they are.
-/
theorem Apart.run (h : r.Apart x []) {work : List (Work α)} (hwork : ∀ w ∈ work, w.Apart x)
    (hnew : r.NoneNew x (r.run work).2) : r.Untouched x [] (r.run work).2 := by
  fun_induction Reactor.run r work with
  | case1 r => exact h.untouched
  | case2 r w rest effect later last hrun ih =>
    rw [hrun] at ih
    obtain ⟨hw, hrest⟩ := List.forall_mem_cons.1 hwork
    have hpromises := (run_extends effect.reactor (effect.work ++ rest)).length_le
    have htasks := tasks_length_le_run effect.reactor (effect.work ++ rest)
    rw [hrun] at hpromises htasks
    have hstep : effect.Untouched x [] r := by
      by_cases htick : ∃ now, w = .op (.tick now)
      . obtain ⟨now, rfl⟩ := htick
        exact h.step_tick now
      . exact h.step hw (fun now hop => htick ⟨now, hop⟩) (hnew.of_le hpromises htasks)
    have hlater := hnew.of_ge (step_extends r w).length_le (tasks_length_le_step r w)
    exact hstep.reactor.trans (ih hstep.reactor.apart (List.forall_mem_append.2 ⟨hstep.work, hrest⟩) hlater)

/-! ### Reactors that refer to nothing outside -/

/--
What is reserved is yet to be made.
-/
structure Ahead (x : Reserved) (r : Reactor α) : Prop where
  promises : ∀ p, x.Bars p → r.promises.length ≤ p
  task : r.tasks.length ≤ x.task

theorem Ahead.noneNew (h : r'.Ahead x) (r : Reactor α) : r.NoneNew x r' :=
  ⟨fun p hp hlt => (Nat.not_lt.2 (h.promises p hp) hlt).elim, fun hlt => (Nat.not_lt.2 h.task hlt).elim⟩

theorem Ahead.of_le (h : r'.Ahead x) (hpromises : r.promises.length ≤ r'.promises.length)
    (htasks : r.tasks.length ≤ r'.tasks.length) : r.Ahead x :=
  ⟨fun p hp => Nat.le_trans hpromises (h.promises p hp), Nat.le_trans htasks h.task⟩

/--
A reactor in which nothing refers to promises or tasks that have not been made.
-/
def SelfContained (r : Reactor α) : Prop :=
  ∀ x, r.Ahead x → r.Apart x []

theorem selfContained_empty : ({} : Reactor α).SelfContained :=
  fun _ _ => ⟨nofun, nofun, nofun, nofun, ⟨[], [], rfl, nofun⟩, nofun⟩

/--
It stays like this whatever is done, as long as it is done with what has been made.
-/
theorem SelfContained.exec (h : r.SelfContained) {ops : List (Op α)} (hops : ∀ x, r.Ahead x → Op.AllApart x ops)
    : (r.exec ops).2.SelfContained := by
  intro x hx
  have hbefore := hx.of_le (run_extends r (ops.map .op)).length_le (tasks_length_le_run r (ops.map .op))
  exact ((h x hbefore).run (apart_of_allApart (hops x hbefore)) (hx.noneNew r)).apart

end Reactor

end Apart

end VisualNovel
