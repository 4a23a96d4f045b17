import VisualNovel.Reactor.Performs

/-!
This module contains the running of operations. What a piece of work sets off is done before anything that
follows it, to any depth. This ends because the work that is left, waiting listeners and jobs included, weighs
less with every step: a listener, a job and a part of a task are used up when their turn comes.
-/

namespace VisualNovel

variable {α : Type}

/-! ### Weights -/

mutual

def Op.weight : Op α → Nat
  | .listen _ _ _ body => 3 + Op.weights body
  | .defer _ body => 3 + Op.weights body
  | .schedule _ _ body => 3 + Op.weights body
  | .addPart _ _ _ body => 6 + Op.weights body
  | .sleep .. => 3
  | .runTask .. => 3
  | .poll .. => 3
  | _ => 2

def Op.weights : List (Op α) → Nat
  | [] => 0
  | op :: ops => op.weight + Op.weights ops

end

def Reaction.weight : Reaction α → Nat
  | .listener _ _ body => 1 + Op.weights body
  | _ => 1

def Job.weight : Job α → Nat
  | .ops _ body => 1 + Op.weights body
  | _ => 1

def Part.weight (part : Part α) : Nat :=
  4 + Op.weights part.body + 2 * part.forwards.length

def Work.weight : Work α → Nat
  | .op o => o.weight
  | .react r _ => r.weight
  | .job _ j => j.weight
  | .start _ _ p _ => p.weight
  | .forward .. => 2
  | .join .. => 3
  | _ => 1

/--
The sum of the weights of a list.
-/
def sumOf {β : Type} (weight : β → Nat) (l : List β) : Nat :=
  l.foldr (fun b n => weight b + n) 0

def Promise.weight (p : Promise α) : Nat :=
  sumOf Reaction.weight p.done + sumOf Reaction.weight p.fail + sumOf Reaction.weight p.always +
    p.wakers.length

def Task.weight (t : Task α) : Nat :=
  sumOf Part.weight t.parts

def Reactor.weight (r : Reactor α) : Nat :=
  sumOf Promise.weight r.promises + sumOf Task.weight r.tasks + sumOf Job.weight r.queue +
    sumOf (fun t : Timer α => t.job.weight) r.timers

section Sum

variable {β γ : Type} {w : β → Nat}

@[simp]
theorem sumOf_nil : sumOf w [] = 0 := rfl

@[simp]
theorem sumOf_cons (b : β) (l : List β) : sumOf w (b :: l) = w b + sumOf w l := rfl

@[simp]
theorem sumOf_append (l m : List β) : sumOf w (l ++ m) = sumOf w l + sumOf w m := by
  induction l with
  | nil => simp
  | cons b l ih => simp [ih, Nat.add_assoc]

theorem sumOf_map (f : γ → β) (l : List γ)
    : sumOf w (l.map f) = sumOf (fun c => w (f c)) l := by
  induction l with
  | nil => rfl
  | cons c l ih => simp [ih]

theorem sumOf_one (l : List β) : sumOf (fun _ => 1) l = l.length := by
  induction l with
  | nil => rfl
  | cons b l ih => simp [ih, Nat.add_comm]

theorem sumOf_perm {l m : List β} (h : l.Perm m) : sumOf w l = sumOf w m := by
  induction h with
  | nil => rfl
  | cons b _ ih => simp [ih]
  | swap b c l => simp [Nat.add_left_comm]
  | trans _ _ ih ih' => exact ih.trans ih'

theorem sumOf_set {l : List β} {i : Nat} {old : β} (new : β) (h : l[i]? = some old)
    : sumOf w (l.set i new) + w old = sumOf w l + w new := by
  induction l generalizing i with
  | nil => simp at h
  | cons b l ih =>
    cases i with
    | zero =>
      simp at h
      subst h
      simp
      omega
    | succ i =>
      have := ih (by simpa using h)
      simp
      omega

theorem sumOf_filter_add (p : β → Bool) (l : List β)
    : sumOf w (l.filter p) + sumOf w (l.filter fun b => !p b) = sumOf w l := by
  induction l with
  | nil => rfl
  | cons b l ih => cases h : p b <;> simp [h] <;> omega

theorem sumOf_mapIdx (f : Nat → γ → β) (g : γ → Nat) (h : ∀ i c, w (f i c) = g c) (l : List γ)
    : sumOf w (l.mapIdx f) = sumOf g l := by
  induction l generalizing f with
  | nil => rfl
  | cons c l ih => simp [h, ih (fun i => f (i + 1)) fun i c => h (i + 1) c]

end Sum

theorem Work.sumOf_op (body : List (Op α))
    : sumOf Work.weight (body.map Work.op) = Op.weights body := by
  induction body with
  | nil => rfl
  | cons op body ih => simp [Work.weight, Op.weights, ih]

theorem Work.sumOf_react (reactions : List (Reaction α)) (o : Outcome α)
    : sumOf Work.weight (reactions.map (Work.react · o)) = sumOf Reaction.weight reactions :=
  sumOf_map _ _

theorem Work.sumOf_job (timed : Bool) (jobs : List (Job α))
    : sumOf Work.weight (jobs.map (Work.job timed)) = sumOf Job.weight jobs :=
  sumOf_map _ _

theorem Work.sumOf_wake (wakers : List String)
    : sumOf Work.weight (wakers.map (Work.wake : String → Work α)) = wakers.length :=
  (sumOf_map _ _).trans (sumOf_one _)

theorem Part.sumOf_forwards (part : Part α) : sumOf Work.weight part.forwards = 2 * part.forwards.length := by
  unfold forwards
  split <;> rfl

def Effect.weight (e : Effect α) : Nat :=
  sumOf Work.weight e.work + e.reactor.weight

@[simp]
theorem Effect.weight_mk (work : List (Work α)) (r : Reactor α)
    : (Effect.mk work r).weight = sumOf Work.weight work + r.weight := rfl

namespace Reactor

variable (r : Reactor α)

theorem weight_setPromise {p : Nat} {old : Promise α} (h : r.promises[p]? = some old)
    (new : Promise α) : (r.setPromise p new).weight + old.weight = r.weight + new.weight := by
  have := sumOf_set (w := Promise.weight) new h
  simp only [weight, setPromise]
  omega

theorem weight_setTask {t : Nat} {old : Task α} (h : r.tasks[t]? = some old)
    (new : Task α) : (r.setTask t new).weight + old.weight = r.weight + new.weight := by
  have := sumOf_set (w := Task.weight) new h
  simp only [weight, setTask]
  omega

theorem weight_settle (p : Nat) (o : Outcome α) : (r.settle p o).weight ≤ r.weight := by
  unfold settle pending?
  split
  . next promise h =>
    have h := r.weight_setPromise (Option.filter_eq_some_iff.1 h).1 { outcome := some o }
    have : sumOf Work.weight (promise.waiting o) ≤ promise.weight := by
      cases o <;>
        simp [Promise.waiting, Promise.weight, Work.sumOf_react, Work.sumOf_wake] <;> omega
    simp [Promise.weight] at h this ⊢
    omega
  . simp

theorem weight_listen (c : Channel) (p : Nat) (reaction : Reaction α)
    : (r.listen c p reaction).weight ≤ r.weight + reaction.weight := by
  unfold listen
  split
  . simp
  . next promise h =>
    split
    . have h := r.weight_setPromise h (promise.addListener c reaction)
      cases c <;> simp [Promise.addListener, Promise.weight] at h ⊢ <;> omega
    . split <;> simp [Work.weight, Nat.add_comm]

theorem weight_endTask (t : Nat) (s : TaskStatus) (o : Outcome α)
    : (r.endTask t s o).weight ≤ r.weight := by
  unfold endTask
  split
  . next task h =>
    split
    . have h := r.weight_setTask h { task with status := s }
      have := (r.setTask t { task with status := s }).weight_settle task.promise o
      simp only [Task.weight] at h
      omega
    . simp
  . simp

theorem weight_partDone (t : Nat) : (r.partDone t).weight ≤ r.weight := by
  unfold partDone
  split
  . next task h =>
    have h := r.weight_setTask h { task with completed := task.completed + 1 }
    simp only [Task.weight] at h
    simp only
    split
    . have := (r.setTask t { task with completed := task.completed + 1 }).weight_endTask t .done (.done none)
      omega
    . simp
      omega
  . simp

theorem weight_startTask {t : Nat} {task : Task α} (parameters : Fields)
    (h : r.tasks[t]? = some task) : (r.startTask t task parameters).weight ≤ r.weight + 1 := by
  have h := r.weight_setTask h { task with status := .running, parts := [], total := task.parts.length }
  have hparts := sumOf_mapIdx (w := Work.weight)
    (fun i part => Work.start t i part parameters) Part.weight (fun _ _ => rfl) task.parts
  simp only [Task.weight, sumOf_nil] at h
  unfold startTask
  simp only
  split
  . simp only [Effect.weight_mk, sumOf_nil]
    simp only [weight, enqueue, sumOf_append, sumOf_cons, sumOf_nil, Job.weight] at h ⊢
    omega
  . simp
    omega

theorem weight_abortTask {t : Nat} {task : Task α} (h : r.tasks[t]? = some task)
    : (r.abortTask t task).weight ≤ r.weight := by
  have h := r.weight_setTask h { task with status := .aborted, parts := [] }
  simp only [Task.weight, sumOf_nil] at h
  unfold abortTask
  split
  . have := (r.setTask t { task with status := .aborted, parts := [] }).weight_settle task.promise
      (.failed .aborted)
    omega
  . simp

theorem weight_takeJobs (now : Nat) : (r.takeJobs now).weight = r.weight := by
  have hfilter := sumOf_filter_add (w := fun t : Timer α => t.job.weight) (fun t => t.due ≤ now)
    r.timers
  have hsort := sumOf_perm (w := fun t : Timer α => t.job.weight)
    (List.mergeSort_perm (r.timers.filter (·.due ≤ now)) fun a b => a.due ≤ b.due)
  have : (fun t : Timer α => !decide (t.due ≤ now)) = fun t => decide (now < t.due) := by
    funext t
    simp [← decide_not]
  rw [this] at hfilter
  have hdue := sumOf_map (w := Work.weight) (fun t : Timer α => Work.job true t.job)
    ((r.timers.filter (·.due ≤ now)).mergeSort fun a b => a.due ≤ b.due)
  simp only [Work.weight] at hdue
  simp only [takeJobs, Effect.weight_mk, sumOf_append, Work.sumOf_job, weight, sumOf_nil]
  omega

theorem findPromise?_eq_some {p : Ref} {n : Nat} {promise : Promise α}
    (h : r.findPromise? p = some (n, promise)) : r.promises[n]? = some promise := by
  obtain ⟨q, _, hq⟩ := Option.bind_eq_some_iff.1 h
  obtain ⟨_, h, he⟩ := Option.map_eq_some_iff.1 hq
  cases he
  exact h

theorem findTask?_eq_some {t : Ref} {n : Nat} {task : Task α}
    (h : r.findTask? t = some (n, task)) : r.tasks[n]? = some task := by
  obtain ⟨q, _, hq⟩ := Option.bind_eq_some_iff.1 h
  obtain ⟨_, h, he⟩ := Option.map_eq_some_iff.1 hq
  cases he
  exact h

theorem two_le_weight (op : Op α) : 2 ≤ op.weight := by
  cases op <;> simp [Op.weight] <;> omega

theorem Performs.weight_add_two_le {op : Op α} {e : Effect α} {answer : Work α} (h : r.Performs op e answer)
    : e.weight + 2 ≤ r.weight + op.weight := by
  have := two_le_weight op
  cases h with
  | idles =>
    simp
    omega
  | create => simp [Reactor.create, Reactor.weight, Op.weight, Promise.weight]
  | @listen _ p _ channel label body =>
    have := r.weight_listen channel p (.listener channel label body)
    simp [Op.weight, Reaction.weight] at this ⊢
    omega
  | @settle _ p _ outcome =>
    have := r.weight_settle p outcome
    simp [Op.weight]
    omega
  | @poll _ _ promise hfind _ waker =>
    have := r.weight_setPromise (r.findPromise?_eq_some hfind)
      { promise with wakers := promise.wakers ++ [waker] }
    simp [Promise.weight, Op.weight] at this ⊢
    omega
  | defer =>
    simp [enqueue, Reactor.weight, Op.weight, Job.weight]
    omega
  | schedule =>
    simp [addTimer, Reactor.weight, Op.weight, Job.weight]
    omega
  | sleep =>
    simp [Reactor.sleep, Reactor.create, addTimer, Reactor.weight, Op.weight, Job.weight, Promise.weight]
    omega
  | tick now =>
    have := r.weight_takeJobs now
    simp [Op.weight]
    omega
  | createTask => simp [Reactor.create, Reactor.weight, Op.weight, Promise.weight, Task.weight]
  | @addPart _ _ _ promise task hfind _ label body =>
    have := r.weight_setTask (r.findTask?_eq_some hfind)
      { task with parts := task.parts ++ [{ label, body, promise }] }
    simp [Task.weight, Part.weight, Part.forwards, Op.weight] at this ⊢
    omega
  | runTask hfind _ parameters =>
    have := r.weight_startTask parameters (r.findTask?_eq_some hfind)
    simp [Op.weight]
    omega
  | abortTask hfind =>
    have := r.weight_abortTask (r.findTask?_eq_some hfind)
    simp [Op.weight]
    omega

theorem weight_perform_lt (op : Op α) : (r.perform op).weight < r.weight + op.weight := by
  obtain ⟨e, answer, hperforms, heq⟩ := r.exists_performs op
  have := hperforms.weight_add_two_le
  rw [heq]
  cases hperforms.answers <;> simp [Effect.weight, Work.weight] at this ⊢ <;> omega

theorem weight_step_lt (w : Work α) : (r.step w).weight < r.weight + w.weight := by
  cases w with
  | op op => exact r.weight_perform_lt op
  | answer op answer => simp [step, Work.weight]
  | answerOutcome op p => simp [step, Work.weight]
  | react reaction outcome =>
    cases reaction with
    | listener channel label body =>
      simp [step, Work.sumOf_op, Work.weight, Reaction.weight]
      omega
    | forward p =>
      have := r.weight_settle p outcome.bare
      simp [step, Work.weight, Reaction.weight]
      omega
    | partDone t =>
      have := r.weight_partDone t
      simp [step, Work.weight, Reaction.weight]
      omega
    | partFailed t =>
      have := r.weight_endTask t .failed outcome
      simp [step, Work.weight, Reaction.weight]
      omega
  | wake waker => simp [step, Work.weight]
  | job timed job =>
    cases job with
    | ops label body =>
      simp [step, Work.sumOf_op, Work.weight, Job.weight]
      omega
    | settle p o =>
      have := r.weight_settle p o
      simp [step, Work.weight, Job.weight]
      omega
    | finish t =>
      have := r.weight_endTask t .done (.done none)
      simp [step, Work.weight, Job.weight]
      omega
  | start t index part parameters =>
    simp [step, Work.sumOf_op, Part.sumOf_forwards, Work.weight, Part.weight]
    omega
  | forward channel p target =>
    have := r.weight_listen channel p (.forward target)
    simp [step, Work.weight, Reaction.weight] at this ⊢
    omega
  | join t p =>
    have hdone := r.weight_listen .done p (.partDone t)
    have hfail := (r.listen .done p (.partDone t)).reactor.weight_listen .fail p (.partFailed t)
    simp [step, Effect.weight, Work.weight, Reaction.weight] at hdone hfail ⊢
    omega

/--
Does all work, in order. Returns what shows of it, and the reactor at the end.
-/
def run (r : Reactor α) (work : List (Work α)) : List (Event α) × Reactor α :=
  match work with
  | [] => ([], r)
  | w :: rest =>
    let effect := r.step w
    let (later, last) := run effect.reactor (effect.work ++ rest)
    (r.events w ++ later, last)
termination_by r.weight + sumOf Work.weight work
decreasing_by
  have := r.weight_step_lt w
  simp [Effect.weight] at this ⊢
  omega

/--
Runs operations one after another.
-/
def exec (r : Reactor α) (ops : List (Op α)) : List (Event α) × Reactor α :=
  r.run (ops.map .op)

/--
Runs the jobs of a tick. Returns their number.
-/
def tick (r : Reactor α) (now : Nat) : Nat × Reactor α :=
  let effect := r.takeJobs now
  (effect.work.length, (effect.reactor.run effect.work).2)

/--
Settles a promise, with all that this sets off. Returns whether the promise was pending.
-/
def resolve (r : Reactor α) (p : Nat) (outcome : Outcome α) : Bool × Reactor α :=
  let effect := r.settle p outcome
  ((r.pending? p).isSome, (effect.reactor.run effect.work).2)

/--
Starts a task that settles a promise: done once all of its parts are, failed with the first of them that fails.
-/
def join (r : Reactor α) (promise : Nat) (parts : List (Part α)) : Reactor α :=
  let t := r.tasks.length
  let task : Task α := { promise, parts }
  let r := { r with tasks := r.tasks ++ [task] }
  (r.exec [.runTask (.number t) []]).2

end Reactor
end VisualNovel
