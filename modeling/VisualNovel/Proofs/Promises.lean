import VisualNovel.Reactor.Run

/-!
This module contains what may settle a promise. Whoever has not been given a promise cannot settle it, so a
promise that only one job settles has the outcome of that job or none, whatever else the reactor does.
-/

namespace VisualNovel

variable {α : Type}

/-! ### Work that leaves a promise alone -/

mutual

/--
Neither an operation nor what it puts off settles the promise by its number.
-/
def Op.Spares (p : Nat) : Op α → Prop
  | .settle (.number q) _ => q ≠ p
  | .listen _ _ _ body | .defer _ body | .schedule _ _ body | .addPart _ _ _ body => Op.AllSpare p body
  | _ => True

def Op.AllSpare (p : Nat) : List (Op α) → Prop
  | [] => True
  | op :: ops => op.Spares p ∧ Op.AllSpare p ops

end

theorem Op.AllSpare.mem {p : Nat} {ops : List (Op α)} (h : Op.AllSpare p ops) {op : Op α} (hop : op ∈ ops)
    : op.Spares p := by
  induction ops with
  | nil => cases hop
  | cons first rest ih =>
    cases hop with
    | head => exact h.1
    | tail _ hop => exact ih h.2 hop

def Reaction.Spares (p : Nat) : Reaction α → Prop
  | .listener _ _ body => Op.AllSpare p body
  | .forward q => q ≠ p
  | .partDone _ | .partFailed _ => True

/--
A job that settles the promise does so with the given outcome.
-/
def Job.Keeps (p : Nat) (o : Outcome α) : Job α → Prop
  | .ops _ body => Op.AllSpare p body
  | .settle q outcome => q = p → outcome = o
  | .finish _ => True

def Part.Spares (p : Nat) (part : Part α) : Prop :=
  Op.AllSpare p part.body ∧ (part.follows.isSome → part.promise ≠ p)

def Task.Spares (p : Nat) (task : Task α) : Prop :=
  task.promise ≠ p ∧ ∀ part ∈ task.parts, part.Spares p

def Work.Keeps (p : Nat) (o : Outcome α) : Work α → Prop
  | .op operation => operation.Spares p
  | .react reaction _ => reaction.Spares p
  | .job _ j => j.Keeps p o
  | .start _ _ part _ => part.Spares p
  | .forward _ _ q => q ≠ p
  | .answer .. | .answerOutcome .. | .wake _ | .join .. => True

structure Promise.Spares (p : Nat) (promise : Promise α) : Prop where
  done : ∀ reaction ∈ promise.done, reaction.Spares p
  fail : ∀ reaction ∈ promise.fail, reaction.Spares p
  always : ∀ reaction ∈ promise.always, reaction.Spares p

/--
Whatever settles the promise settles it with the given outcome, and the promise has no other one.
-/
structure Reactor.Keeps (p : Nat) (o : Outcome α) (r : Reactor α) : Prop where
  promises : ∀ promise ∈ r.promises, promise.Spares p
  tasks : ∀ task ∈ r.tasks, task.Spares p
  names : ∀ entry ∈ r.promiseNames, entry.2 ≠ p
  queue : ∀ job ∈ r.queue, job.Keeps p o
  timers : ∀ timer ∈ r.timers, timer.job.Keeps p o
  outcome : ∀ outcome, r.outcome? p = some outcome → outcome = o

structure Effect.Keeps (p : Nat) (o : Outcome α) (e : Effect α) : Prop where
  work : ∀ w ∈ e.work, w.Keeps p o
  reactor : e.reactor.Keeps p o

/--
A reactor in which nothing refers to a promise that has not been made.
-/
def Reactor.Closed (r : Reactor α) : Prop :=
  ∀ p, r.promises.length ≤ p → ∀ o, r.Keeps p o

theorem keeps_op_of_allSpare {p : Nat} {o : Outcome α} {body : List (Op α)} (h : Op.AllSpare p body)
    : ∀ w ∈ body.map Work.op, w.Keeps p o := by
  intro w hw
  obtain ⟨op, hop, rfl⟩ := List.mem_map.1 hw
  exact h.mem hop

theorem Part.Spares.forwards {p : Nat} {part : Part α} (h : part.Spares p) (o : Outcome α)
    : ∀ w ∈ part.forwards, w.Keeps p o := by
  intro w hw
  obtain ⟨channel, q, hfollows, rfl⟩ := Part.exists_of_mem_forwards hw
  exact h.2 (by simp [hfollows])

theorem Promise.Spares.waiting {p : Nat} {promise : Promise α} (h : promise.Spares p) (o outcome : Outcome α)
    : ∀ w ∈ promise.waiting outcome, w.Keeps p o := by
  have hmatching (reactions : List (Reaction α)) (hr : ∀ reaction ∈ reactions, reaction.Spares p)
      (w : Work α) (hw : w ∈ reactions.map (Work.react · outcome)) : w.Keeps p o := by
    obtain ⟨reaction, hreaction, rfl⟩ := List.mem_map.1 hw
    exact hr reaction hreaction
  intro w hw
  unfold Promise.waiting at hw
  rw [List.mem_append, List.mem_append] at hw
  obtain hw | hw | hw := hw
  . cases outcome with
    | done => exact hmatching _ h.done w hw
    | failed => exact hmatching _ h.fail w hw
  . exact hmatching _ h.always w hw
  . obtain ⟨waker, _, rfl⟩ := List.mem_map.1 hw
    trivial

theorem Promise.Spares.addListener {p : Nat} {promise : Promise α} (h : promise.Spares p) (channel : Channel)
    {reaction : Reaction α} (hreaction : reaction.Spares p) : (promise.addListener channel reaction).Spares p := by
  have happend (reactions : List (Reaction α)) (hr : ∀ other ∈ reactions, other.Spares p)
      (other : Reaction α) (hother : other ∈ reactions ++ [reaction]) : other.Spares p := by
    rw [List.mem_append, List.mem_singleton] at hother
    obtain hother | rfl := hother
    . exact hr other hother
    . exact hreaction
  cases channel with
  | done => exact { h with done := happend _ h.done }
  | fail => exact { h with fail := happend _ h.fail }
  | always => exact { h with always := happend _ h.always }

theorem Effect.Keeps.append {p : Nat} {o : Outcome α} {e : Effect α} (h : e.Keeps p o) {last : Work α}
    (hlast : last.Keeps p o) : ({ e with work := e.work ++ [last] } : Effect α).Keeps p o := by
  refine ⟨?_, h.reactor⟩
  intro w hw
  rw [List.mem_append, List.mem_singleton] at hw
  obtain hw | rfl := hw
  . exact h.work w hw
  . exact hlast

namespace Reactor

section Keeps

variable {p : Nat} {o : Outcome α} {r : Reactor α}

theorem outcome?_setPromise (r : Reactor α) (q : Nat) (promise : Promise α)
    : (r.setPromise q promise).outcome? p
        =
      if q = p ∧ q < r.promises.length then promise.outcome else r.outcome? p := by
  unfold outcome? setPromise
  rw [List.getElem?_set]
  by_cases hq : q = p
  . subst hq
    by_cases hlt : q < r.promises.length
    . simp [hlt]
    . simp [hlt]
  . simp [hq]

theorem outcome?_of_pending {promise : Promise α} (h : r.pending? p = some promise) : r.outcome? p = none := by
  unfold pending? at h
  rw [Option.filter_eq_some_iff] at h
  unfold outcome?
  rw [h.1]
  simpa using h.2

theorem mem_of_pending {promise : Promise α} (h : r.pending? p = some promise) : promise ∈ r.promises := by
  unfold pending? at h
  rw [Option.filter_eq_some_iff] at h
  exact List.mem_of_getElem? h.1

theorem Keeps.setPromise (h : r.Keeps p o) (q : Nat) {promise : Promise α} (hpromise : promise.Spares p)
    (houtcome : q = p → ∀ outcome, promise.outcome = some outcome → outcome = o)
    : (r.setPromise q promise).Keeps p o := by
  refine { h with promises := ?_, outcome := ?_ }
  . intro other hother
    obtain hother | rfl := List.mem_or_eq_of_mem_set hother
    . exact h.promises other hother
    . exact hpromise
  . intro outcome hout
    rw [outcome?_setPromise] at hout
    split at hout
    . next hq => exact houtcome hq.1 outcome hout
    . exact h.outcome outcome hout

theorem Keeps.setTask (h : r.Keeps p o) (t : Nat) {task : Task α} (htask : task.Spares p)
    : (r.setTask t task).Keeps p o := by
  refine { h with tasks := ?_ }
  intro other hother
  obtain hother | rfl := List.mem_or_eq_of_mem_set hother
  . exact h.tasks other hother
  . exact htask

theorem Keeps.enqueue (h : r.Keeps p o) {job : Job α} (hjob : job.Keeps p o) : (r.enqueue job).Keeps p o := by
  refine { h with queue := ?_ }
  intro other hother
  obtain hother | rfl := by simpa [Reactor.enqueue] using hother
  . exact h.queue other hother
  . exact hjob

theorem Keeps.addTimer (h : r.Keeps p o) (due : Nat) {job : Job α} (hjob : job.Keeps p o)
    : (r.addTimer due job).Keeps p o := by
  refine { h with timers := ?_ }
  intro other hother
  obtain hother | rfl := by simpa [Reactor.addTimer] using hother
  . exact h.timers other hother
  . exact hjob

theorem outcome?_create (r : Reactor α) : r.create.2.outcome? p = r.outcome? p := by
  unfold create outcome?
  dsimp only
  rw [List.getElem?_append]
  split
  . rfl
  . next hlt =>
    rw [List.getElem?_eq_none (Nat.not_lt.1 hlt)]
    cases (p - r.promises.length) <;> rfl

theorem Keeps.create (h : r.Keeps p o) : r.create.2.Keeps p o := by
  refine { h with promises := ?_, outcome := ?_ }
  . intro promise hpromise
    obtain hpromise | rfl := by simpa [Reactor.create] using hpromise
    . exact h.promises promise hpromise
    . exact ⟨by simp, by simp, by simp⟩
  . intro outcome hout
    rw [outcome?_create] at hout
    exact h.outcome outcome hout

theorem Keeps.name (h : r.Keeps p o) (name : String) {q : Nat} (hq : q ≠ p)
    : ({ r with promiseNames := (name, q) :: r.promiseNames } : Reactor α).Keeps p o := by
  refine { h with names := ?_ }
  intro entry hentry
  cases hentry with
  | head => exact hq
  | tail _ hentry => exact h.names entry hentry

theorem Keeps.idle (h : r.Keeps p o) : (Effect.mk [] r).Keeps p o :=
  ⟨by simp, h⟩

theorem Keeps.settle (h : r.Keeps p o) {q : Nat} {outcome : Outcome α} (hq : q = p → outcome = o)
    : (r.settle q outcome).Keeps p o := by
  unfold Reactor.settle
  split
  . next promise hpending =>
    constructor
    . exact (h.promises promise (mem_of_pending hpending)).waiting o outcome
    . apply h.setPromise q ⟨by simp, by simp, by simp⟩
      intro hqp other hother
      cases hother
      exact hq hqp
  . exact h.idle

theorem Keeps.listen (h : r.Keeps p o) (channel : Channel) (q : Nat) {reaction : Reaction α}
    (hreaction : reaction.Spares p) : (r.listen channel q reaction).Keeps p o := by
  unfold Reactor.listen
  split
  . exact h.idle
  . next promise hpromise =>
    have hspares := h.promises promise (List.mem_of_getElem? hpromise)
    split
    . next hpending =>
      refine ⟨by simp, h.setPromise q (hspares.addListener channel hreaction) ?_⟩
      intro _ outcome hout
      cases channel <;> simp [Promise.addListener, hpending] at hout
    . refine ⟨?_, h⟩
      intro w hw
      dsimp only at hw
      split at hw
      . rw [List.mem_singleton] at hw
        subst hw
        exact hreaction
      . cases hw

theorem Keeps.endTask (h : r.Keeps p o) (t : Nat) (status : TaskStatus) (outcome : Outcome α)
    : (r.endTask t status outcome).Keeps p o := by
  unfold Reactor.endTask
  split
  . next task htask =>
    have hspares := h.tasks task (List.mem_of_getElem? htask)
    have hset : (r.setTask t { task with status }).Keeps p o := h.setTask t ⟨hspares.1, hspares.2⟩
    split
    . exact hset.settle (fun hp => absurd hp hspares.1)
    . exact h.idle
  . exact h.idle

theorem Keeps.partDone (h : r.Keeps p o) (t : Nat) : (r.partDone t).Keeps p o := by
  unfold Reactor.partDone
  split
  . next task htask =>
    have hspares := h.tasks task (List.mem_of_getElem? htask)
    have hset : (r.setTask t { task with completed := task.completed + 1 }).Keeps p o :=
      h.setTask t ⟨hspares.1, hspares.2⟩
    dsimp only
    split
    . exact hset.endTask t .done (.done none)
    . exact hset.idle
  . exact h.idle

theorem Keeps.startTask (h : r.Keeps p o) (t : Nat) {task : Task α} (htask : task.Spares p)
    (parameters : Fields) : (r.startTask t task parameters).Keeps p o := by
  have hset : (r.setTask t
      { task with status := .running, parts := [], total := task.parts.length }).Keeps p o :=
    h.setTask t ⟨htask.1, by simp⟩
  unfold Reactor.startTask
  dsimp only
  split
  . have hfinish : Job.Keeps p o (.finish t) := trivial
    exact (hset.enqueue hfinish).idle
  . refine ⟨?_, hset⟩
    intro w hw
    obtain ⟨i, part, hpart, rfl⟩ := by simpa [List.mem_mapIdx] using hw
    exact htask.2 _ (List.getElem_mem _)

theorem Keeps.abortTask (h : r.Keeps p o) (t : Nat) {task : Task α} (htask : task.Spares p)
    : (r.abortTask t task).Keeps p o := by
  have hset : (r.setTask t { task with status := .aborted, parts := [] }).Keeps p o :=
    h.setTask t ⟨htask.1, by simp⟩
  unfold Reactor.abortTask
  split
  . exact hset.settle (fun hp => absurd hp htask.1)
  . exact h.idle

theorem Keeps.takeJobs (h : r.Keeps p o) (now : Nat) : (r.takeJobs now).Keeps p o := by
  unfold Reactor.takeJobs
  constructor
  . intro w hw
    rw [List.mem_append] at hw
    obtain hw | hw := hw
    . obtain ⟨job, hjob, rfl⟩ := List.mem_map.1 hw
      exact h.queue job hjob
    . obtain ⟨timer, htimer, rfl⟩ := List.mem_map.1 hw
      rw [List.mem_mergeSort, List.mem_filter] at htimer
      exact h.timers timer htimer.1
  . refine { h with queue := by simp, timers := ?_ }
    intro timer htimer
    rw [List.mem_filter] at htimer
    exact h.timers timer htimer.1

theorem Keeps.promise? (h : r.Keeps p o) {ref : Ref} {q : Nat} (href : ∀ n, ref = .number n → n ≠ p)
    (hq : r.promise? ref = some q) : q ≠ p := by
  cases ref with
  | number n =>
    simp only [Reactor.promise?] at hq
    split at hq
    . cases hq
      exact href _ rfl
    . cases hq
  | name s =>
    unfold Reactor.promise? at hq
    obtain ⟨before, after, heq, _⟩ := List.lookup_eq_some_iff.1 hq
    apply h.names (s, q)
    simp [heq]

end Keeps

/-! ### Promises are made, and settled once -/

structure Extends (r r' : Reactor α) : Prop where
  length_le : r.promises.length ≤ r'.promises.length
  settled : ∀ q outcome, r.outcome? q = some outcome → r'.outcome? q = some outcome

namespace Extends

variable {r r' r'' : Reactor α}

theorem refl (r : Reactor α) : Extends r r :=
  ⟨Nat.le_refl _, fun _ _ h => h⟩

theorem trans (h : Extends r r') (h' : Extends r' r'') : Extends r r'' :=
  ⟨Nat.le_trans h.length_le h'.length_le, fun q outcome hq => h'.settled q outcome (h.settled q outcome hq)⟩

theorem of_promises_eq (h : r'.promises = r.promises) : Extends r r' := by
  constructor
  . simp [h]
  . intro q outcome hq
    unfold outcome? at *
    rw [h]
    exact hq

theorem create (r : Reactor α) : Extends r r.create.2 := by
  constructor
  . simp [Reactor.create]
  . intro q outcome hq
    rw [outcome?_create]
    exact hq

theorem setPromise {q : Nat} {promise : Promise α} (h : r.outcome? q = none)
    : Extends r (r.setPromise q promise) := by
  constructor
  . simp [Reactor.setPromise]
  . intro q' outcome hq'
    rw [outcome?_setPromise]
    split
    . next heq =>
      rw [← heq.1, h] at hq'
      cases hq'
    . exact hq'

end Extends

section Extending

variable (r : Reactor α)

theorem settle_extends (q : Nat) (outcome : Outcome α) : Extends r (r.settle q outcome).reactor := by
  unfold settle
  split
  . next hpending => exact Extends.setPromise (outcome?_of_pending hpending)
  . exact Extends.refl r

theorem listen_extends (channel : Channel) (q : Nat) (reaction : Reaction α)
    : Extends r (r.listen channel q reaction).reactor := by
  unfold listen
  split
  . exact Extends.refl r
  . next promise hpromise =>
    split
    . next hpending =>
      apply Extends.setPromise
      unfold outcome?
      rw [hpromise]
      exact hpending
    . exact Extends.refl r

theorem endTask_extends (t : Nat) (status : TaskStatus) (outcome : Outcome α)
    : Extends r (r.endTask t status outcome).reactor := by
  unfold endTask
  split
  . next task _ =>
    split
    . have hset : Extends r (r.setTask t { task with status }) := Extends.of_promises_eq rfl
      exact hset.trans (settle_extends _ _ _)
    . exact Extends.refl r
  . exact Extends.refl r

theorem partDone_extends (t : Nat) : Extends r (r.partDone t).reactor := by
  unfold partDone
  split
  . next task _ =>
    have hset : Extends r (r.setTask t { task with completed := task.completed + 1 }) :=
      Extends.of_promises_eq rfl
    dsimp only
    split
    . exact hset.trans (endTask_extends _ _ _ _)
    . exact hset
  . exact Extends.refl r

theorem startTask_extends (t : Nat) (task : Task α) (parameters : Fields)
    : Extends r (r.startTask t task parameters).reactor := by
  unfold startTask
  dsimp only
  split <;> exact Extends.of_promises_eq rfl

theorem abortTask_extends (t : Nat) (task : Task α) : Extends r (r.abortTask t task).reactor := by
  unfold abortTask
  split
  . have hset : Extends r (r.setTask t { task with status := .aborted, parts := [] }) :=
      Extends.of_promises_eq rfl
    exact hset.trans (settle_extends _ _ _)
  . exact Extends.refl r

theorem Performs.extends {op : Op α} {e : Effect α} {answer : Work α} (h : r.Performs op e answer)
    : Extends r e.reactor := by
  cases h with
  | idles | defer | schedule | tick | addPart => exact Extends.of_promises_eq rfl
  | create | sleep | createTask => exact (Extends.create r).trans (Extends.of_promises_eq rfl)
  | listen => exact listen_extends r _ _ _
  | settle => exact settle_extends r _ _
  | poll hfind hpending =>
    apply Extends.setPromise
    unfold outcome?
    rw [r.findPromise?_eq_some hfind]
    exact hpending
  | runTask => exact startTask_extends r _ _ _
  | abortTask => exact abortTask_extends r _ _

theorem perform_extends (op : Op α) : Extends r (r.perform op).reactor := by
  obtain ⟨e, answer, hperforms, heq⟩ := r.exists_performs op
  rw [heq]
  exact hperforms.extends

theorem step_extends (w : Work α) : Extends r (r.step w).reactor := by
  cases w with
  | op op => exact perform_extends r op
  | answer | answerOutcome | wake | start => exact Extends.refl r
  | react reaction outcome =>
    cases reaction with
    | listener => exact Extends.refl r
    | forward q => exact settle_extends r q _
    | partDone t => exact partDone_extends r t
    | partFailed t => exact endTask_extends r _ _ _
  | job timed job =>
    cases job with
    | ops => exact Extends.refl r
    | settle q outcome => exact settle_extends r q outcome
    | finish t => exact endTask_extends r _ _ _
  | forward channel q target => exact listen_extends r _ _ _
  | join t q => exact (listen_extends r _ _ _).trans (listen_extends _ _ _ _)

theorem run_extends (work : List (Work α)) : Extends r (r.run work).2 := by
  fun_induction run r work with
  | case1 r => exact Extends.refl r
  | case2 r w rest effect later last hrun ih =>
    rw [hrun] at ih
    exact (step_extends r w).trans ih

theorem tick_extends (now : Nat) : Extends r (r.tick now).2 := by
  have htake : Extends r (r.takeJobs now).reactor := Extends.of_promises_eq rfl
  exact htake.trans (run_extends _ _)

theorem resolve_extends (q : Nat) (outcome : Outcome α) : Extends r (r.resolve q outcome).2 := by
  have hsettle := settle_extends r q outcome
  exact hsettle.trans (run_extends _ _)

end Extending

/-! ### What a reactor keeps while it works -/

section Working

variable {p : Nat} {o : Outcome α} {r : Reactor α}

theorem Keeps.performs (h : r.Keeps p o) {op : Op α} {e : Effect α} {answer : Work α} (hop : op.Spares p)
    (hperforms : r.Performs op e answer) (hnew : p < e.reactor.promises.length → p < r.promises.length) : e.Keeps p o := by
  -- the promise is not made here: either there is one already, or there will be none
  have hcreate (hlt : p < r.promises.length + 1 → p < r.promises.length) : r.promises.length ≠ p := by
    omega
  cases hperforms with
  | idles => exact h.idle
  | create name =>
    have hne := hcreate (by simpa [Reactor.create] using hnew)
    exact (h.create.name name hne).idle
  | listen _ channel => exact h.listen channel _ hop
  | @settle ref q hq outcome =>
    have href (n : Nat) (hn : ref = .number n) : n ≠ p := by
      subst hn
      exact hop
    exact h.settle fun heq => absurd heq (h.promise? href hq)
  | @poll _ q promise hfind hpending waker =>
    have hspares := h.promises promise (List.mem_of_getElem? (r.findPromise?_eq_some hfind))
    have hset : (r.setPromise q { promise with wakers := promise.wakers ++ [waker] }).Keeps p o :=
      h.setPromise q ⟨hspares.done, hspares.fail, hspares.always⟩ (by simp [hpending])
    exact hset.idle
  | defer label body =>
    have hjob : Job.Keeps p o (.ops label body) := hop
    exact (h.enqueue hjob).idle
  | schedule due label body =>
    have hjob : Job.Keeps p o (.ops label body) := hop
    exact (h.addTimer due hjob).idle
  | sleep name due =>
    have hne := hcreate (by simpa [Reactor.sleep, Reactor.create, Reactor.addTimer] using hnew)
    have hjob : Job.Keeps p o (.settle r.promises.length (.done none)) := fun heq => absurd heq hne
    exact ((h.create.addTimer due hjob).name name hne).idle
  | tick now => exact h.takeJobs now
  | createTask name =>
    have hne := hcreate (by simpa [Reactor.create] using hnew)
    have htasks : ({ r.create.2 with
        tasks := r.tasks ++ [{ promise := r.promises.length }]
        taskNames := (name, r.tasks.length) :: r.taskNames } : Reactor α).Keeps p o := by
      refine { h.create with tasks := ?_ }
      intro task htask
      obtain htask | rfl := by simpa using htask
      . exact h.tasks task htask
      . exact ⟨hne, by simp⟩
    exact (htasks.name name hne).idle
  | addPart hfind =>
    have hspares := h.tasks _ (List.mem_of_getElem? (r.findTask?_eq_some hfind))
    apply Keeps.idle
    apply h.setTask
    refine ⟨hspares.1, ?_⟩
    intro part hpart
    obtain hpart | rfl := by simpa using hpart
    . exact hspares.2 part hpart
    . exact ⟨hop, fun hfollows => absurd hfollows Bool.false_ne_true⟩
  | runTask hfind _ parameters =>
    have hspares := h.tasks _ (List.mem_of_getElem? (r.findTask?_eq_some hfind))
    exact h.startTask _ hspares parameters
  | abortTask hfind =>
    have hspares := h.tasks _ (List.mem_of_getElem? (r.findTask?_eq_some hfind))
    exact h.abortTask _ hspares

theorem Keeps.perform (h : r.Keeps p o) {op : Op α} (hop : op.Spares p)
    (hnew : p < (r.perform op).reactor.promises.length → p < r.promises.length)
    : (r.perform op).Keeps p o := by
  obtain ⟨e, answer, hperforms, heq⟩ := r.exists_performs op
  rw [heq] at hnew ⊢
  apply (h.performs hop hperforms hnew).append
  cases hperforms.answers <;> trivial

theorem Keeps.step (h : r.Keeps p o) {w : Work α} (hw : w.Keeps p o)
    (hnew : p < (r.step w).reactor.promises.length → p < r.promises.length) : (r.step w).Keeps p o := by
  cases w with
  | op op => exact h.perform hw hnew
  | answer | answerOutcome | wake => exact h.idle
  | react reaction outcome =>
    cases reaction with
    | listener channel label body => exact ⟨keeps_op_of_allSpare hw, h⟩
    | forward q => exact h.settle fun heq => absurd heq hw
    | partDone t => exact h.partDone t
    | partFailed t => exact h.endTask t .failed outcome
  | job timed job =>
    cases job with
    | ops label body => exact ⟨keeps_op_of_allSpare hw, h⟩
    | settle q outcome => exact h.settle hw
    | finish t => exact h.endTask t .done (.done none)
  | start t index part parameters =>
    refine ⟨?_, h⟩
    intro w' hw'
    rw [Reactor.step, List.mem_append, List.mem_append, List.mem_singleton] at hw'
    obtain hw' | hw' | rfl := hw'
    . exact keeps_op_of_allSpare hw.1 w' hw'
    . exact hw.forwards o w' hw'
    . trivial
  | forward channel q target => exact h.listen channel q hw
  | join t q =>
    have hdone : (r.listen .done q (.partDone t)).Keeps p o := h.listen .done q trivial
    have hfail : ((r.listen .done q (.partDone t)).reactor.listen .fail q (.partFailed t)).Keeps p o :=
      hdone.reactor.listen .fail q trivial
    refine ⟨?_, hfail.reactor⟩
    intro w' hw'
    rw [Reactor.step, List.mem_append] at hw'
    obtain hw' | hw' := hw'
    . exact hdone.work w' hw'
    . exact hfail.work w' hw'

theorem Keeps.run {work : List (Work α)} (h : r.Keeps p o) (hwork : ∀ w ∈ work, w.Keeps p o)
    (hnew : p < (r.run work).2.promises.length → p < r.promises.length) : (r.run work).2.Keeps p o := by
  fun_induction Reactor.run r work with
  | case1 r => exact h
  | case2 r w rest effect later last hrun ih =>
    rw [hrun] at ih
    have hrest := run_extends effect.reactor (effect.work ++ rest)
    rw [hrun] at hrest
    have hstep : effect.Keeps p o := by
      apply h.step (hwork w List.mem_cons_self)
      intro hp
      exact hnew (Nat.lt_of_lt_of_le hp hrest.length_le)
    apply ih hstep.reactor
    . intro w' hw'
      rw [List.mem_append] at hw'
      obtain hw' | hw' := hw'
      . exact hstep.work w' hw'
      . exact hwork w' (List.mem_cons_of_mem w hw')
    . intro hp
      exact Nat.lt_of_lt_of_le (hnew hp) (step_extends r w).length_le

theorem Keeps.tick (h : r.Keeps p o) (now : Nat)
    (hnew : p < (r.tick now).2.promises.length → p < r.promises.length) : (r.tick now).2.Keeps p o := by
  have htake := h.takeJobs now
  exact htake.reactor.run htake.work hnew

theorem Keeps.resolve (h : r.Keeps p o) {q : Nat} (hq : q ≠ p) (outcome : Outcome α)
    (hnew : p < (r.resolve q outcome).2.promises.length → p < r.promises.length)
    : (r.resolve q outcome).2.Keeps p o := by
  have hsettle : (r.settle q outcome).Keeps p o := h.settle (fun heq => absurd heq hq)
  apply hsettle.reactor.run hsettle.work
  intro hp
  exact Nat.lt_of_lt_of_le (hnew hp) (settle_extends r q outcome).length_le

theorem Closed.tick (h : r.Closed) (now : Nat) : (r.tick now).2.Closed := by
  intro p hp o
  have hle := (tick_extends r now).length_le
  exact (h p (Nat.le_trans hle hp) o).tick now (fun hlt => absurd hlt (Nat.not_lt.2 hp))

theorem Closed.resolve (h : r.Closed) (q : Nat) (outcome : Outcome α) : (r.resolve q outcome).2.Closed := by
  intro p hp o
  have hle := (resolve_extends r q outcome).length_le
  by_cases hq : q = p
  -- a promise that has not been made cannot be settled, either
  . have hpending : r.pending? q = none := by
      unfold pending?
      rw [List.getElem?_eq_none (by omega), Option.filter_none]
    have hsame : (r.resolve q outcome).2 = r := by
      unfold Reactor.resolve Reactor.settle
      rw [hpending]
      dsimp only
      rw [Reactor.run]
    rw [hsame] at hp ⊢
    exact h p hp o
  . exact (h p (Nat.le_trans hle hp) o).resolve hq outcome (fun hlt => absurd hlt (Nat.not_lt.2 hp))

theorem Closed.create (h : r.Closed) : r.create.2.Closed := by
  intro p hp o
  have hle : r.promises.length ≤ p := by
    simp [Reactor.create] at hp
    omega
  exact (h p hle o).create

theorem closed_empty : ({} : Reactor α).Closed := by
  intro p hp o
  constructor <;> simp [Reactor.outcome?]

theorem Closed.keeps_job (h : r.Closed) (o : Outcome α)
    : (r.create.2.enqueue (.settle r.promises.length o)).Keeps r.promises.length o :=
  (h r.promises.length (Nat.le_refl _) o).create.enqueue (fun _ => rfl)

theorem Closed.job (h : r.Closed) (o : Outcome α)
    : (r.create.2.enqueue (.settle r.promises.length o)).Closed := by
  intro p hp o'
  have hlt : r.promises.length < p := by
    simp [Reactor.create, Reactor.enqueue] at hp
    omega
  exact (h p (Nat.le_of_lt hlt) o').create.enqueue (fun heq => absurd heq (Nat.ne_of_lt hlt))

end Working

/-! ### Jobs get their turn -/

section Turn

variable (r : Reactor α)

theorem queue_settle (q : Nat) (outcome : Outcome α) : (r.settle q outcome).reactor.queue = r.queue := by
  unfold settle
  split <;> rfl

theorem queue_listen (channel : Channel) (q : Nat) (reaction : Reaction α)
    : (r.listen channel q reaction).reactor.queue = r.queue := by
  unfold listen
  split
  . rfl
  . split <;> rfl

theorem queue_endTask (t : Nat) (status : TaskStatus) (outcome : Outcome α)
    : (r.endTask t status outcome).reactor.queue = r.queue := by
  unfold endTask
  split
  . split
    . rw [queue_settle]
      rfl
    . rfl
  . rfl

theorem queue_partDone (t : Nat) : (r.partDone t).reactor.queue = r.queue := by
  unfold partDone
  split
  . dsimp only
    split
    . rw [queue_endTask]
      rfl
    . rfl
  . rfl

theorem Performs.mem_queue {op : Op α} {e : Effect α} {answer : Work α} (hperforms : r.Performs op e answer)
    {job : Job α} (h : job ∈ r.queue) : job ∈ e.reactor.queue ∨ Work.job false job ∈ e.work := by
  cases hperforms with
  | idles | create | sleep | createTask | schedule | poll | addPart => exact Or.inl h
  | defer => exact Or.inl (List.mem_append_left _ h)
  | tick =>
    right
    simp [takeJobs, h]
  | listen =>
    left
    rw [queue_listen]
    exact h
  | settle =>
    left
    rw [queue_settle]
    exact h
  | runTask =>
    left
    unfold startTask
    dsimp only
    split
    . simp [enqueue, setTask, h]
    . exact h
  | abortTask =>
    left
    unfold Reactor.abortTask
    split
    . rw [queue_settle]
      exact h
    . exact h

theorem mem_queue_perform (op : Op α) {job : Job α} (h : job ∈ r.queue)
    : job ∈ (r.perform op).reactor.queue ∨ Work.job false job ∈ (r.perform op).work := by
  obtain ⟨e, answer, hperforms, heq⟩ := r.exists_performs op
  rw [heq]
  obtain hjob | hjob := hperforms.mem_queue r h
  . exact Or.inl hjob
  . exact Or.inr (List.mem_append_left _ hjob)

theorem mem_queue_step (w : Work α) {job : Job α} (h : job ∈ r.queue)
    : job ∈ (r.step w).reactor.queue ∨ Work.job false job ∈ (r.step w).work := by
  cases w with
  | op op => exact mem_queue_perform r op h
  | answer | answerOutcome | wake | start => exact Or.inl h
  | react reaction outcome =>
    left
    cases reaction with
    | listener => exact h
    | forward q =>
      rw [step, queue_settle]
      exact h
    | partDone t =>
      rw [step, queue_partDone]
      exact h
    | partFailed t =>
      rw [step, queue_endTask]
      exact h
  | job timed other =>
    left
    cases other with
    | ops => exact h
    | settle q outcome =>
      rw [step, queue_settle]
      exact h
    | finish t =>
      rw [step, queue_endTask]
      exact h
  | forward | join =>
    left
    simp only [step, queue_listen]
    exact h

variable {r} {p : Nat}

theorem outcome?_settle_self (hp : p < r.promises.length) (o : Outcome α)
    : (r.settle p o).reactor.outcome? p = some ((r.outcome? p).getD o) := by
  unfold settle
  split
  . next promise hpending => simp [outcome?_setPromise, hp, outcome?_of_pending hpending]
  . next hpending =>
    have hget := List.getElem?_eq_getElem hp
    cases ho : r.promises[p].outcome with
    | none => simp [pending?, hget, Option.filter, ho] at hpending
    | some other => simp [outcome?, hget, ho]

theorem outcome?_settle_of_ne {q : Nat} (h : q ≠ p) (o : Outcome α)
    : (r.settle q o).reactor.outcome? p = r.outcome? p := by
  unfold settle
  split
  . rw [outcome?_setPromise, if_neg fun hq => h hq.1]
  . rfl

theorem outcome?_settle_ne_none (hp : p < r.promises.length) (outcome : Outcome α)
    : (r.settle p outcome).reactor.outcome? p ≠ none := by
  rw [outcome?_settle_self hp]
  exact Option.some_ne_none _

theorem Extends.outcome?_ne_none {r' : Reactor α} (h : Extends r r') (hp : r.outcome? p ≠ none)
    : r'.outcome? p ≠ none := by
  obtain ⟨outcome, hout⟩ := Option.ne_none_iff_exists'.1 hp
  rw [h.settled p outcome hout]
  simp

theorem run_settles {work : List (Work α)} {timed : Bool} {o : Outcome α} (hp : p < r.promises.length)
    (h : r.outcome? p ≠ none ∨ Work.job timed (.settle p o) ∈ work) : (r.run work).2.outcome? p ≠ none := by
  -- the first work settles the promise or leaves the job that does, and no outcome is ever taken back
  fun_induction Reactor.run r work with
  | case1 r =>
    obtain h | h := h
    . exact h
    . cases h
  | case2 r w rest effect later last hrun ih =>
    rw [hrun] at ih
    have hstep := step_extends r w
    apply ih (Nat.lt_of_lt_of_le hp hstep.length_le)
    obtain h | h := h
    . exact Or.inl (hstep.outcome?_ne_none h)
    . cases h with
      | head => exact Or.inl (outcome?_settle_ne_none hp o)
      | tail _ h => exact Or.inr (List.mem_append_right _ h)

theorem run_keeps_job {work : List (Work α)} {o : Outcome α} (hp : p < r.promises.length)
    (h : r.outcome? p ≠ none ∨ Job.settle p o ∈ r.queue ∨ Work.job false (.settle p o) ∈ work)
    : (r.run work).2.outcome? p ≠ none ∨ Job.settle p o ∈ (r.run work).2.queue := by
  fun_induction Reactor.run r work with
  | case1 r =>
    obtain h | h | h := h
    . exact Or.inl h
    . exact Or.inr h
    . cases h
  | case2 r w rest effect later last hrun ih =>
    rw [hrun] at ih
    have hstep := step_extends r w
    apply ih (Nat.lt_of_lt_of_le hp hstep.length_le)
    obtain h | h | h := h
    . exact Or.inl (hstep.outcome?_ne_none h)
    . right
      obtain h | h := mem_queue_step r w h
      . exact Or.inl h
      . exact Or.inr (List.mem_append_left _ h)
    . cases h with
      | head => exact Or.inl (outcome?_settle_ne_none hp o)
      | tail _ h => exact Or.inr (Or.inr (List.mem_append_right _ h))

theorem tick_settles {o : Outcome α} (hp : p < r.promises.length)
    (h : r.outcome? p ≠ none ∨ Job.settle p o ∈ r.queue) (now : Nat) : (r.tick now).2.outcome? p ≠ none := by
  have hwork : (r.takeJobs now).reactor.outcome? p ≠ none ∨
      Work.job false (.settle p o) ∈ (r.takeJobs now).work := by
    obtain h | h := h
    . exact Or.inl h
    . right
      simp [takeJobs, h]
  exact run_settles hp hwork

theorem resolve_settles (hp : p < r.promises.length) (outcome : Outcome α)
    : (r.resolve p outcome).2.outcome? p ≠ none :=
  (run_extends _ _).outcome?_ne_none (outcome?_settle_ne_none hp outcome)

theorem resolve_keeps_job {o : Outcome α} (hp : p < r.promises.length)
    (h : r.outcome? p ≠ none ∨ Job.settle p o ∈ r.queue) (q : Nat) (outcome : Outcome α)
    : (r.resolve q outcome).2.outcome? p ≠ none ∨ Job.settle p o ∈ (r.resolve q outcome).2.queue := by
  have hsettle := settle_extends r q outcome
  apply run_keeps_job (Nat.lt_of_lt_of_le hp hsettle.length_le)
  obtain h | h := h
  . exact Or.inl (hsettle.outcome?_ne_none h)
  . rw [queue_settle]
    exact Or.inr (Or.inl h)

/--
A promise has been made that the next tick settles with the given outcome, if nothing else does before.
-/
structure Expects (r : Reactor α) (p : Nat) (o : Outcome α) : Prop where
  made : p < r.promises.length
  keeps : r.Keeps p o
  due : r.outcome? p ≠ none ∨ Job.settle p o ∈ r.queue

theorem Closed.expects (h : r.Closed) (o : Outcome α)
    : (r.create.2.enqueue (.settle r.promises.length o)).Expects r.promises.length o where
  made := by simp [Reactor.create, enqueue]
  keeps := h.keeps_job o
  due := by simp [enqueue]

namespace Expects

variable {o : Outcome α}

theorem outcome?_eq (h : r.Expects p o) (hsettled : r.outcome? p ≠ none) : r.outcome? p = some o := by
  obtain ⟨outcome, houtcome⟩ := Option.ne_none_iff_exists'.1 hsettled
  rw [houtcome, h.keeps.outcome outcome houtcome]

theorem tick (h : r.Expects p o) (now : Nat) : (r.tick now).2.Expects p o where
  made := Nat.lt_of_lt_of_le h.made (r.tick_extends now).length_le
  keeps := h.keeps.tick now fun _ => h.made
  due := Or.inl (tick_settles h.made h.due now)

theorem outcome?_tick (h : r.Expects p o) (now : Nat) : (r.tick now).2.outcome? p = some o :=
  (h.tick now).outcome?_eq (tick_settles h.made h.due now)

theorem resolve (h : r.Expects p o) {q : Nat} (hq : q ≠ p) (outcome : Outcome α)
    : (r.resolve q outcome).2.Expects p o where
  made := Nat.lt_of_lt_of_le h.made (r.resolve_extends q outcome).length_le
  keeps := h.keeps.resolve hq outcome fun _ => h.made
  due := resolve_keeps_job h.made h.due q outcome

end Expects

end Turn
end Reactor
end VisualNovel
