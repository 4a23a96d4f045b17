import VisualNovel.Reactor.Basic

/-!
This module contains the work of a reactor, one piece at a time: what an operation sets off, and what happens
when the turn of a listener, a job or a part of a task comes.
-/

namespace VisualNovel

/--
The answer to an operation.
-/
inductive Answer (α : Type) where
  | ok
  | flag (b : Bool)
  | count (n : Nat)
  | outcome (o : Option (Outcome α))
  | loop (queued timers : Nat) (next : Option Nat)
  | task (status : TaskStatus) (parts : Nat) (outcome : Option (Outcome α))
  | alreadyStarted (status : TaskStatus)
  | unknown
  deriving Repr

/--
What a listener hears.
-/
inductive Heard (α : Type) where
  | done (value : Option α)
  | failed (fault : Fault)
  | always
  deriving Repr

/--
What shows in the history of a reactor.
-/
inductive Event (α : Type) where
  | heard (label : String) (what : Heard α)
  | woken (waker : String)
  | ran (label : String) (timed : Bool)
  | started (label : String) (index : Nat) (parameters : Fields)
  | answered (op : Op α) (answer : Answer α)
  deriving Repr

/--
A piece of work. Its turn comes when all work before it is over.
-/
inductive Work (α : Type) where
  | op (op : Op α)
  | answer (op : Op α) (answer : Answer α)
  | answerOutcome (op : Op α) (promise : Nat)
  | react (reaction : Reaction α) (outcome : Outcome α)
  | wake (waker : String)
  | job (timed : Bool) (job : Job α)
  | start (task index : Nat) (part : Part α) (parameters : Fields)
  | forward (channel : Channel) (promise target : Nat)
  | join (task promise : Nat)
  deriving Repr

/--
The work that something sets off, and the reactor after it.
-/
structure Effect (α : Type) where
  work : List (Work α) := []
  reactor : Reactor α
  deriving Repr

def Heard.ofOutcome (channel : Channel) : Outcome α → Heard α
  | .done value => if channel = .always then .always else .done value
  | .failed fault => if channel = .always then .always else .failed fault

/--
What passes on the outcome of the promise that a part follows.
-/
def Part.forwards (part : Part α) : List (Work α) :=
  match part.follows with
  | some p => [.forward .done p part.promise, .forward .fail p part.promise]
  | none => []

theorem Part.exists_of_mem_forwards {part : Part α} {w : Work α} (h : w ∈ part.forwards)
    : ∃ channel p, part.follows = some p ∧ w = .forward channel p part.promise := by
  unfold forwards at h
  split at h
  . next p hfollows =>
    simp only [List.mem_cons, List.not_mem_nil, or_false] at h
    obtain rfl | rfl := h
    . exact ⟨.done, p, hfollows, rfl⟩
    . exact ⟨.fail, p, hfollows, rfl⟩
  . cases h

namespace Promise

/--
The work that waits for an outcome: first the listeners of this outcome, then those of any outcome, and the
wakers last.
-/
def waiting (p : Promise α) (outcome : Outcome α) : List (Work α) :=
  let matching :=
    match outcome with
    | .done _ => p.done
    | .failed _ => p.fail
  matching.map (.react · outcome) ++ (p.always.map (.react · outcome) ++ p.wakers.map .wake)

def addListener (p : Promise α) (channel : Channel) (reaction : Reaction α) : Promise α :=
  match channel with
  | .done => { p with done := p.done ++ [reaction] }
  | .fail => { p with fail := p.fail ++ [reaction] }
  | .always => { p with always := p.always ++ [reaction] }

end Promise

/--
Does a listener wait for an outcome of this kind?
-/
def Channel.hears : Channel → Outcome α → Bool
  | .done, .done _ => true
  | .fail, .failed _ => true
  | .always, _ => true
  | _, _ => false

namespace Reactor

variable {α : Type}

def setPromise (r : Reactor α) (p : Nat) (promise : Promise α) : Reactor α :=
  { r with promises := r.promises.set p promise }

def setTask (r : Reactor α) (t : Nat) (task : Task α) : Reactor α :=
  { r with tasks := r.tasks.set t task }

/--
The promise with the given number, if it has no outcome.
-/
def pending? (r : Reactor α) (p : Nat) : Option (Promise α) :=
  r.promises[p]?.filter (·.outcome.isNone)

/--
Settles a promise. A promise that is settled already stays as it is.
-/
def settle (r : Reactor α) (p : Nat) (outcome : Outcome α) : Effect α :=
  match r.pending? p with
  | some promise => {
      work := promise.waiting outcome
      reactor := r.setPromise p { outcome := some outcome }
    }
  | none => { reactor := r }

/--
Adds a listener to a promise. If the promise is settled, the listener runs or is forgotten.
-/
def listen (r : Reactor α) (channel : Channel) (p : Nat) (reaction : Reaction α) : Effect α :=
  match r.promises[p]? with
  | none => { reactor := r }
  | some promise =>
    match promise.outcome with
    | none => { reactor := r.setPromise p (promise.addListener channel reaction) }
    | some outcome =>
      { work := if channel.hears outcome then [.react reaction outcome] else [], reactor := r }

/--
Ends a task that is still running.
-/
def endTask (r : Reactor α) (t : Nat) (status : TaskStatus) (outcome : Outcome α) : Effect α :=
  match r.tasks[t]? with
  | some task =>
    if task.status = .running then
      (r.setTask t { task with status }).settle task.promise outcome
    else
      { reactor := r }
  | none => { reactor := r }

/--
Takes note of a part that is done. The last one ends the task.
-/
def partDone (r : Reactor α) (t : Nat) : Effect α :=
  match r.tasks[t]? with
  | some task =>
    let r := r.setTask t { task with completed := task.completed + 1 }
    if task.completed + 1 = task.total then r.endTask t .done (.done none) else { reactor := r }
  | none => { reactor := r }

/--
Starts all parts of a task. A task without parts ends with the next tick.
-/
def startTask (r : Reactor α) (t : Nat) (task : Task α) (parameters : Fields) : Effect α :=
  let r := r.setTask t { task with status := .running, parts := [], total := task.parts.length }
  if task.parts.isEmpty then
    { reactor := r.enqueue (.finish t) }
  else
    { work := task.parts.mapIdx fun i part => .start t i part parameters, reactor := r }

/--
Gives up a task that has not ended. Parts that have been started go on, but nobody waits for them.
-/
def abortTask (r : Reactor α) (t : Nat) (task : Task α) : Effect α :=
  if task.status = .new || task.status = .running then
    (r.setTask t { task with status := .aborted, parts := [] }).settle task.promise (.failed .aborted)
  else
    { reactor := r }

/--
The jobs of a tick: all that are queued, and the timers that are due, by their deadlines and then by their
registration.
-/
def takeJobs (r : Reactor α) (now : Nat) : Effect α :=
  let due := (r.timers.filter (·.due ≤ now)).mergeSort (fun a b => a.due ≤ b.due)
  { work := r.queue.map (.job false) ++ due.map fun timer => .job true timer.job
    reactor := { r with queue := [], timers := r.timers.filter (now < ·.due) } }

def findPromise? (r : Reactor α) (p : Ref) : Option (Nat × Promise α) :=
  (r.promise? p).bind fun n => r.promises[n]?.map (n, ·)

def findTask? (r : Reactor α) (t : Ref) : Option (Nat × Task α) :=
  (r.task? t).bind fun n => r.tasks[n]?.map (n, ·)

/--
The work that an operation comes to, with its answer at the end.
-/
def perform (r : Reactor α) (op : Op α) : Effect α :=
  let reply (answer : Answer α) (effect : Effect α) : Effect α :=
    { effect with work := effect.work ++ [.answer op answer] }
  let unknown := reply .unknown { reactor := r }
  match op with
  | .create name =>
    let (p, r) := r.create
    reply .ok { reactor := { r with promiseNames := (name, p) :: r.promiseNames } }
  | .listen channel p label body =>
    match r.promise? p with
    | some p => reply .ok (r.listen channel p (.listener channel label body))
    | none => unknown
  | .settle p outcome =>
    match r.promise? p with
    | some p => reply (.flag (r.pending? p).isSome) (r.settle p outcome)
    | none => unknown
  | .poll p waker =>
    match r.findPromise? p with
    | some (p, promise) =>
      match promise.outcome with
      | none =>
        let promise := { promise with wakers := promise.wakers ++ [waker] }
        reply (.outcome none) { reactor := r.setPromise p promise }
      | some outcome => reply (.outcome (some outcome)) { reactor := r }
    | none => unknown
  | .inspect p =>
    match r.findPromise? p with
    | some (_, promise) => reply (.outcome promise.outcome) { reactor := r }
    | none => unknown
  | .defer label body => reply .ok { reactor := r.enqueue (.ops label body) }
  | .schedule due label body => reply .ok { reactor := r.addTimer due (.ops label body) }
  | .sleep name due =>
    let (p, r) := r.sleep due
    reply .ok { reactor := { r with promiseNames := (name, p) :: r.promiseNames } }
  | .tick now =>
    let effect := r.takeJobs now
    reply (.count effect.work.length) effect
  | .inspectLoop => reply (.loop r.queue.length r.timers.length r.nextDeadline?) { reactor := r }
  | .createTask name =>
    let (p, r) := r.create
    reply .ok { reactor := { r with
      tasks := r.tasks ++ [{ promise := p }]
      promiseNames := (name, p) :: r.promiseNames
      taskNames := (name, r.tasks.length) :: r.taskNames } }
  | .addPart t p label body =>
    match r.findTask? t, r.promise? p with
    | some (t, task), some promise =>
      let parts := task.parts ++ [{ label, body, promise }]
      reply (.count parts.length) { reactor := r.setTask t { task with parts } }
    | _, _ => unknown
  | .runTask t parameters =>
    match r.findTask? t with
    | some (t, task) =>
      if task.status = .new then
        let effect := r.startTask t task parameters
        { effect with work := effect.work ++ [.answerOutcome op task.promise] }
      else
        reply (.alreadyStarted task.status) { reactor := r }
    | none => unknown
  | .abortTask t =>
    match r.findTask? t with
    | some (t, task) => reply .ok (r.abortTask t task)
    | none => unknown
  | .inspectTask t =>
    match r.findTask? t with
    | some (_, task) =>
      reply (.task task.status task.parts.length (r.outcome? task.promise)) { reactor := r }
    | none => unknown

/--
What shows of a piece of work.
-/
def events (r : Reactor α) : Work α → List (Event α)
  | .answer op answer => [.answered op answer]
  | .answerOutcome op p => [.answered op (.outcome (r.outcome? p))]
  | .react (.listener channel label _) outcome => [.heard label (Heard.ofOutcome channel outcome)]
  | .wake waker => [.woken waker]
  | .job timed (.ops label _) => [.ran label timed]
  | .start _ index part parameters => [.started part.label index parameters]
  | _ => []

/--
Does a piece of work.
-/
def step (r : Reactor α) : Work α → Effect α
  | .op op => r.perform op
  | .answer .. | .answerOutcome .. | .wake _ => { reactor := r }
  | .react (.listener _ _ body) _ | .job _ (.ops _ body) => { work := body.map .op, reactor := r }
  | .react (.forward p) outcome => r.settle p outcome.bare
  | .react (.partDone t) _ => r.partDone t
  | .react (.partFailed t) outcome => r.endTask t .failed outcome
  | .job _ (.settle p outcome) => r.settle p outcome
  | .job _ (.finish t) => r.endTask t .done (.done none)
  | .start t _ part _ => { work := part.body.map .op ++ (part.forwards ++ [.join t part.promise]), reactor := r }
  | .forward channel p target => r.listen channel p (.forward target)
  | .join t p =>
    let first := r.listen .done p (.partDone t)
    let second := first.reactor.listen .fail p (.partFailed t)
    { work := first.work ++ second.work, reactor := second.reactor }

end Reactor
end VisualNovel
