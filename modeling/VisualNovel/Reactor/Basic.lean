import VisualNovel.Value.Basic

/-!
This module contains the parts of a reactor: promises that are settled once, jobs that wait for the next tick
or for a time, and tasks that join several promises into one. What a listener or a job does when its turn
comes is a list of operations, so a reactor is plain data.
-/

namespace VisualNovel

/--
Why an operation did not succeed.
-/
inductive Fault where
  | failed (message : String)
  | aborted
  deriving DecidableEq, Repr

def Fault.message : Fault → String
  | .failed message => message
  | .aborted => "The operation was aborted."

/--
How a promise is settled: done, perhaps with a value, or failed.
-/
inductive Outcome (α : Type) where
  | done (value : Option α)
  | failed (fault : Fault)
  deriving Repr

/--
The outcome without its value.
-/
def Outcome.bare : Outcome α → Outcome α
  | .done _ => .done none
  | .failed fault => .failed fault

/--
The listeners of a promise wait for one of the outcomes, or for any of them.
-/
inductive Channel where
  | done
  | fail
  | always
  deriving DecidableEq, Repr

/--
A promise or a task is referred to by its number, or by the name that was given last.
-/
inductive Ref where
  | number (n : Nat)
  | name (s : String)
  deriving DecidableEq, Repr

/--
The operations on a reactor. Times are absolute. The label of a listener, a job or a part of a task shows in
the history when its turn comes.
-/
inductive Op (α : Type) where
  | create (name : String)
  | listen (channel : Channel) (promise : Ref) (label : String) (body : List (Op α))
  | settle (promise : Ref) (outcome : Outcome α)
  | poll (promise : Ref) (waker : String)
  | inspect (promise : Ref)
  | defer (label : String) (body : List (Op α))
  | schedule (due : Nat) (label : String) (body : List (Op α))
  | sleep (name : String) (due : Nat)
  | tick (now : Nat)
  | inspectLoop
  | createTask (name : String)
  | addPart (task : Ref) (promise : Ref) (label : String) (body : List (Op α))
  | runTask (task : Ref) (parameters : Fields)
  | abortTask (task : Ref)
  | inspectTask (task : Ref)
  deriving Repr, Inhabited

/--
What happens when a promise is settled: the operations of a listener, another promise that the outcome is passed on
to, or a task that takes note.
-/
inductive Reaction (α : Type) where
  | listener (channel : Channel) (label : String) (body : List (Op α))
  | forward (target : Nat)
  | partDone (task : Nat)
  | partFailed (task : Nat)
  deriving Repr

/--
A promise. While it has no outcome its listeners wait, in the order of their registration.
-/
structure Promise (α : Type) where
  outcome : Option (Outcome α) := none
  done : List (Reaction α) := []
  fail : List (Reaction α) := []
  always : List (Reaction α) := []
  wakers : List String := []
  deriving Repr, Inhabited

/--
A job of the loop: operations, the settling of a promise, or the end of a task without parts.
-/
inductive Job (α : Type) where
  | ops (label : String) (body : List (Op α))
  | settle (promise : Nat) (outcome : Outcome α)
  | finish (task : Nat)
  deriving Repr

structure Timer (α : Type) where
  due : Nat
  job : Job α
  deriving Repr

/--
A part of a task: operations that start it, and the promise that it settles.
-/
structure Part (α : Type) where
  label : String
  body : List (Op α)
  promise : Nat
  /-- A promise whose outcome is passed on to that of the part. -/
  follows : Option Nat := none
  deriving Repr

/--
A part that only passes on the outcome of a promise.
-/
def Part.bridge (promise own : Nat) : Part α where
  label := ""
  body := []
  promise := own
  follows := some promise

inductive TaskStatus where
  | new
  | running
  | done
  | failed
  | aborted
  deriving DecidableEq, Repr

/--
A task joins its parts into one promise: done once all of them are, failed with the first of them that fails.
-/
structure Task (α : Type) where
  promise : Nat
  parts : List (Part α) := []
  status : TaskStatus := .new
  /-- The number of parts that have been started. -/
  total : Nat := 0
  completed : Nat := 0
  deriving Repr

structure Reactor (α : Type) where
  promises : List (Promise α) := []
  tasks : List (Task α) := []
  promiseNames : List (String × Nat) := []
  taskNames : List (String × Nat) := []
  queue : List (Job α) := []
  /-- The timers in the order of their registration. -/
  timers : List (Timer α) := []
  deriving Repr, Inhabited

namespace TaskStatus

def name : TaskStatus → String
  | .new => "New"
  | .running => "Run"
  | .done => "Done"
  | .failed => "Fail"
  | .aborted => "Abort"

/--
The message of a task that is started a second time.
-/
def startedMessage (status : TaskStatus) : String :=
  "The task cannot be run again (current status: " ++ status.name ++ ")."

end TaskStatus

/-! ### Descriptions -/

/--
The state of a promise with the given outcome, as a log shows it.
-/
def Promise.describe (outcome : Option (Outcome α)) : String :=
  let state :=
    match outcome with
    | none => "pending"
    | some (.done _) => "done"
    | some (.failed _) => "failed"
  "AsyncCallbacks \x7b state: \"" ++ state ++ "\" \x7d"

/--
The state of a task, as a log shows it.
-/
def Task.describe (parts : Nat) (status : TaskStatus) : String :=
  "AsyncTask \x7b tasks: " ++ toString parts ++ ", status: " ++ status.name ++ " \x7d"

namespace Reactor

variable {α : Type}

/--
The state of the loop, as a log shows it.
-/
def describe (queued timers : Nat) : String :=
  "EventLoop \x7b queued: " ++ toString queued ++ ", timers: " ++ toString timers ++ " \x7d"

def promise? (r : Reactor α) : Ref → Option Nat
  | .number n => if n < r.promises.length then some n else none
  | .name s => r.promiseNames.lookup s

def task? (r : Reactor α) : Ref → Option Nat
  | .number n => if n < r.tasks.length then some n else none
  | .name s => r.taskNames.lookup s

/--
The outcome of a promise, none while it is pending.
-/
def outcome? (r : Reactor α) (promise : Nat) : Option (Outcome α) :=
  r.promises[promise]?.bind Promise.outcome

/--
Adds a pending promise.
-/
def create (r : Reactor α) : Nat × Reactor α :=
  (r.promises.length, { r with promises := r.promises ++ [{}] })

def enqueue (r : Reactor α) (job : Job α) : Reactor α :=
  { r with queue := r.queue ++ [job] }

def addTimer (r : Reactor α) (due : Nat) (job : Job α) : Reactor α :=
  { r with timers := r.timers ++ [{ due, job }] }

/--
Adds a promise that is done by the first tick from a time on.
-/
def sleep (r : Reactor α) (due : Nat) : Nat × Reactor α :=
  let (p, r) := r.create
  (p, r.addTimer due (.settle p (.done none)))

def hasQueuedJobs (r : Reactor α) : Bool :=
  !r.queue.isEmpty

def isIdle (r : Reactor α) : Bool :=
  r.queue.isEmpty && r.timers.isEmpty

/--
The earliest time that a timer waits for.
-/
def nextDeadline? (r : Reactor α) : Option Nat :=
  (r.timers.map Timer.due).min?

end Reactor
end VisualNovel
