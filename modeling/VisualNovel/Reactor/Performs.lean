import VisualNovel.Reactor.Step

/-!
This module contains the ways in which an operation can turn out: what it finds, what it does to a reactor, and the answer
that comes behind all the work that it sets off.
-/

namespace VisualNovel

variable {α : Type}

/--
The answer to an operation, be it known already or read off a promise when its turn comes.
-/
inductive Work.Answers (op : Op α) : Work α → Prop
  | answer (answer : Answer α) : Answers op (.answer op answer)
  | outcome (promise : Nat) : Answers op (.answerOutcome op promise)

namespace Reactor

/--
An operation that only looks, that does not find what it refers to, or that comes too late.
-/
def Idles (r : Reactor α) : Op α → Prop
  | .listen _ ref _ _ | .settle ref _ => r.promise? ref = none
  | .poll ref _ => ∀ p promise, r.findPromise? ref = some (p, promise) → promise.outcome ≠ none
  | .addPart ref p _ _ => r.findTask? ref = none ∨ r.promise? p = none
  | .runTask ref _ => ∀ t task, r.findTask? ref = some (t, task) → task.status ≠ .new
  | .abortTask ref => r.findTask? ref = none
  | .inspect _ | .inspectLoop | .inspectTask _ => True
  | .create _ | .defer .. | .schedule .. | .sleep .. | .tick _ | .createTask _ => False

/--
What an operation does, with all that it has found on the way, and the answer behind it.
-/
inductive Performs (r : Reactor α) : Op α → Effect α → Work α → Prop
  | idles {op : Op α} (h : r.Idles op) (answer : Answer α) : Performs r op { reactor := r } (.answer op answer)
  | create (name : String)
    : Performs r (.create name)
        { reactor := { r.create.2 with promiseNames := (name, r.promises.length) :: r.promiseNames } }
        (.answer (.create name) .ok)
  | listen {ref : Ref} {p : Nat} (hp : r.promise? ref = some p) (channel : Channel) (label : String)
      (body : List (Op α))
    : Performs r (.listen channel ref label body) (r.listen channel p (.listener channel label body))
        (.answer (.listen channel ref label body) .ok)
  | settle {ref : Ref} {p : Nat} (hp : r.promise? ref = some p) (outcome : Outcome α)
    : Performs r (.settle ref outcome) (r.settle p outcome)
        (.answer (.settle ref outcome) (.flag (r.pending? p).isSome))
  | poll {ref : Ref} {p : Nat} {promise : Promise α} (hfind : r.findPromise? ref = some (p, promise))
      (hpending : promise.outcome = none) (waker : String)
    : Performs r (.poll ref waker)
        { reactor := r.setPromise p { promise with wakers := promise.wakers ++ [waker] } }
        (.answer (.poll ref waker) (.outcome none))
  | defer (label : String) (body : List (Op α))
    : Performs r (.defer label body) { reactor := r.enqueue (.ops label body) } (.answer (.defer label body) .ok)
  | schedule (due : Nat) (label : String) (body : List (Op α))
    : Performs r (.schedule due label body) { reactor := r.addTimer due (.ops label body) }
        (.answer (.schedule due label body) .ok)
  | sleep (name : String) (due : Nat)
    : Performs r (.sleep name due)
        { reactor := { (r.sleep due).2 with promiseNames := (name, r.promises.length) :: r.promiseNames } }
        (.answer (.sleep name due) .ok)
  | tick (now : Nat)
    : Performs r (.tick now) (r.takeJobs now) (.answer (.tick now) (.count (r.takeJobs now).work.length))
  | createTask (name : String)
    : Performs r (.createTask name)
        { reactor := { r.create.2 with
            tasks := r.tasks ++ [{ promise := r.promises.length }]
            promiseNames := (name, r.promises.length) :: r.promiseNames
            taskNames := (name, r.tasks.length) :: r.taskNames } }
        (.answer (.createTask name) .ok)
  | addPart {ref p : Ref} {t promise : Nat} {task : Task α} (hfind : r.findTask? ref = some (t, task))
      (hp : r.promise? p = some promise) (label : String) (body : List (Op α))
    : Performs r (.addPart ref p label body)
        { reactor := r.setTask t { task with parts := task.parts ++ [{ label, body, promise }] } }
        (.answer (.addPart ref p label body) (.count (task.parts.length + 1)))
  | runTask {ref : Ref} {t : Nat} {task : Task α} (hfind : r.findTask? ref = some (t, task))
      (hnew : task.status = .new) (parameters : Fields)
    : Performs r (.runTask ref parameters) (r.startTask t task parameters)
        (.answerOutcome (.runTask ref parameters) task.promise)
  | abortTask {ref : Ref} {t : Nat} {task : Task α} (hfind : r.findTask? ref = some (t, task))
    : Performs r (.abortTask ref) (r.abortTask t task) (.answer (.abortTask ref) .ok)

variable {r : Reactor α}

theorem Performs.answers {op : Op α} {e : Effect α} {answer : Work α} (h : r.Performs op e answer)
    : answer.Answers op := by
  cases h with
  | runTask => exact .outcome _
  | _ => exact .answer _

/--
Every operation turns out in one of these ways.
-/
theorem exists_performs (r : Reactor α) (op : Op α)
    : ∃ e answer, r.Performs op e answer ∧ r.perform op = { e with work := e.work ++ [answer] } := by
  have hidles (h : r.Idles op) (answer : Answer α) (heq : r.perform op = { work := [.answer op answer], reactor := r })
      : ∃ e answer, r.Performs op e answer ∧ r.perform op = { e with work := e.work ++ [answer] } :=
    ⟨_, _, .idles h answer, heq⟩
  cases op with
  | create name => exact ⟨_, _, .create name, rfl⟩
  | defer label body => exact ⟨_, _, .defer label body, rfl⟩
  | schedule due label body => exact ⟨_, _, .schedule due label body, rfl⟩
  | sleep name due => exact ⟨_, _, .sleep name due, rfl⟩
  | tick now => exact ⟨_, _, .tick now, rfl⟩
  | inspectLoop => exact hidles trivial _ rfl
  | createTask name => exact ⟨_, _, .createTask name, rfl⟩
  | listen channel ref label body =>
    cases hp : r.promise? ref with
    | none => exact hidles hp .unknown (by simp [perform, hp])
    | some p => exact ⟨_, _, .listen hp channel label body, by simp [perform, hp]⟩
  | settle ref outcome =>
    cases hp : r.promise? ref with
    | none => exact hidles hp .unknown (by simp [perform, hp])
    | some p => exact ⟨_, _, .settle hp outcome, by simp [perform, hp]⟩
  | poll ref waker =>
    cases hfind : r.findPromise? ref with
    | none => exact hidles (by simp [Idles, hfind]) .unknown (by simp [perform, hfind])
    | some found =>
      obtain ⟨p, promise⟩ := found
      cases ho : promise.outcome with
      | none => exact ⟨_, _, .poll hfind ho waker, by simp [perform, hfind, ho]⟩
      | some outcome => exact hidles (by simp [Idles, hfind, ho]) (.outcome (some outcome)) (by simp [perform, hfind, ho])
  | inspect ref =>
    cases hfind : r.findPromise? ref with
    | none => exact hidles trivial .unknown (by simp [perform, hfind])
    | some found => exact hidles trivial (.outcome found.2.outcome) (by simp [perform, hfind])
  | addPart ref p label body =>
    cases hfind : r.findTask? ref with
    | none => exact hidles (.inl hfind) .unknown (by simp [perform, hfind])
    | some found =>
      cases hp : r.promise? p with
      | none => exact hidles (.inr hp) .unknown (by simp [perform, hp])
      | some promise => exact ⟨_, _, .addPart hfind hp label body, by simp [perform, hfind, hp]⟩
  | runTask ref parameters =>
    cases hfind : r.findTask? ref with
    | none => exact hidles (by simp [Idles, hfind]) .unknown (by simp [perform, hfind])
    | some found =>
      obtain ⟨t, task⟩ := found
      by_cases hnew : task.status = .new
      . exact ⟨_, _, .runTask hfind hnew parameters, by simp [perform, hfind, hnew]⟩
      . exact hidles (by simp [Idles, hfind, hnew]) (.alreadyStarted task.status) (by simp [perform, hfind, hnew])
  | abortTask ref =>
    cases hfind : r.findTask? ref with
    | none => exact hidles hfind .unknown (by simp [perform, hfind])
    | some found => exact ⟨_, _, .abortTask hfind, by simp [perform, hfind]⟩
  | inspectTask ref =>
    cases hfind : r.findTask? ref with
    | none => exact hidles trivial .unknown (by simp [perform, hfind])
    | some found =>
      obtain ⟨t, task⟩ := found
      exact hidles trivial (.task task.status task.parts.length (r.outcome? task.promise)) (by simp [perform, hfind])

end Reactor
end VisualNovel
