import VisualNovel.Proofs.Reacting.Course

/-!
This module contains what a single piece of work can do to the tasks and the promises of a reactor. All that
becomes of a task are the notices that it takes, one after another.
-/

namespace VisualNovel

variable {α : Type}

/--
What a task takes note of: a new part, its start with all of them, the outcomes of its parts, that it is given up,
and the end of a task without parts.
-/
inductive Notice (α : Type) where
  | added (part : Part α)
  | started (parts : List (Part α))
  | done
  | failed (outcome : Outcome α)
  | aborted
  | finished

def TaskStatus.isOver : TaskStatus → Bool
  | .new | .running => false
  | .done | .failed | .aborted => true

/--
The parts that a task starts with.
-/
def Notice.parts? : Notice α → Option (List (Part α))
  | .started parts => some parts
  | _ => none

namespace Task

/--
How a notice ends a task, and how its promise is settled then.
-/
def ends? (task : Task α) : Notice α → Option (TaskStatus × Outcome α)
  | .done =>
    if task.completed + 1 = task.total ∧ task.status = .running then some (.done, .done none) else none
  | .failed outcome => if task.status = .running then some (.failed, outcome) else none
  | .aborted => if task.status.isOver then none else some (.aborted, .failed .aborted)
  | .finished => if task.status = .running then some (.done, .done none) else none
  | .added _ | .started _ => none

/--
What a notice changes about a task, its end apart.
-/
def note (task : Task α) : Notice α → Task α
  | .added part => { task with parts := task.parts ++ [part] }
  | .started parts => { task with status := .running, parts := [], total := parts.length }
  | .done => { task with completed := task.completed + 1 }
  | .aborted => if task.status.isOver then task else { task with parts := [] }
  | .failed _ | .finished => task

def take (task : Task α) (notice : Notice α) : Task α :=
  match task.ends? notice with
  | some (status, _) => { task.note notice with status }
  | none => task.note notice

end Task

namespace Stroke

/--
The notice that a task takes of a stroke.
-/
def notice? (t : Nat) (s : Stroke α) : Option (Notice α) :=
  match s.work with
  | .op (.addPart ref p label body) =>
    match s.reactor.findTask? ref, s.reactor.promise? p with
    | some (t', _), some promise => if t' = t then some (.added { label, body, promise }) else none
    | _, _ => none
  | .op (.runTask ref _) =>
    match s.reactor.findTask? ref with
    | some (t', task) => if t' = t ∧ task.status = .new then some (.started task.parts) else none
    | none => none
  | .op (.abortTask ref) =>
    match s.reactor.findTask? ref with
    | some (t', _) => if t' = t then some .aborted else none
    | none => none
  | .react (.partDone t') _ => if t' = t ∧ t < s.reactor.tasks.length then some .done else none
  | .react (.partFailed t') o => if t' = t ∧ t < s.reactor.tasks.length then some (.failed o) else none
  | .job _ (.finish t') => if t' = t ∧ t < s.reactor.tasks.length then some .finished else none
  | _ => none

/--
The promise that a stroke settles, if it is pending, without being the end of a task.
-/
def settles? (s : Stroke α) : Option Nat :=
  match s.work with
  | .op (.settle ref _) => s.reactor.promise? ref
  | .job _ (.settle p _) => some p
  | .react (.forward p) _ => some p
  | _ => none

end Stroke

/--
The promise of a part that is yet to be joined into a task.
-/
def Work.part? (t : Nat) : Work α → Option Nat
  | .start t' _ part _ => if t' = t then some part.promise else none
  | .join t' p => if t' = t then some p else none
  | _ => none

/--
A reaction that tells no task of the end of a part.
-/
def Reaction.isAside : Reaction α → Bool
  | .partDone _ | .partFailed _ => false
  | .listener .. | .forward _ => true

/--
Work that starts no part of a task and tells none of its end.
-/
def Work.isAside : Work α → Bool
  | .react reaction _ => reaction.isAside
  | .start .. | .join .. => false
  | _ => true

/--
A listener that has nothing to do with tasks, or a waker, waits for a promise that is not settled.
-/
inductive Promise.Waits (promise : Promise α) : Promise α → Prop
  | listener (channel : Channel) (reaction : Reaction α) (haside : reaction.isAside)
      : promise.Waits (promise.addListener channel reaction)
  | waker (waker : String) : promise.Waits { promise with wakers := promise.wakers ++ [waker] }

theorem Promise.Waits.outcome_eq {old new : Promise α} (h : old.Waits new) : new.outcome = old.outcome := by
  cases h with
  | listener channel => cases channel <;> rfl
  | waker => rfl

namespace Effect

/--
Nothing becomes of the promises, and what is set off has nothing to do with the parts of a task.
-/
structure Rests (r : Reactor α) (e : Effect α) : Prop where
  promises : e.reactor.promises = r.promises
  names : e.reactor.promiseNames = r.promiseNames
  work : ∀ w ∈ e.work, w.isAside

/--
A promise is settled if it is pending, and nothing else becomes of the promises.
-/
structure Settles (r : Reactor α) (p : Nat) (o : Outcome α) (e : Effect α) : Prop where
  promises : e.reactor.promises = (r.settle p o).reactor.promises
  names : e.reactor.promiseNames = r.promiseNames
  work : ∃ rest, (∀ w ∈ rest, w.isAside) ∧ e.work = (r.settle p o).work ++ rest

variable {r : Reactor α} {e : Effect α} {p : Nat} {o : Outcome α}

theorem rests_idle (r : Reactor α) : Rests r { reactor := r } :=
  ⟨rfl, rfl, nofun⟩

theorem rests_setTask (r : Reactor α) (t : Nat) (task : Task α) : Rests r { reactor := r.setTask t task } :=
  ⟨rfl, rfl, nofun⟩

theorem Rests.append (h : Rests r e) {last : Work α} (hlast : last.isAside)
    : Rests r { e with work := e.work ++ [last] } := by
  refine { h with work := ?_ }
  intro w hw
  rw [List.mem_append, List.mem_singleton] at hw
  obtain hw | rfl := hw
  . exact h.work w hw
  . exact hlast

theorem Settles.append (h : Settles r p o e) {last : Work α} (hlast : last.isAside)
    : Settles r p o { e with work := e.work ++ [last] } := by
  obtain ⟨rest, hrest, hwork⟩ := h.work
  refine { h with work := ⟨rest ++ [last], ?_, by simp [hwork]⟩ }
  intro w hw
  rw [List.mem_append, List.mem_singleton] at hw
  obtain hw | rfl := hw
  . exact hrest w hw
  . exact hlast

theorem settles_settle (r : Reactor α) (p : Nat) (o : Outcome α) : Settles r p o (r.settle p o) := by
  refine ⟨rfl, ?_, [], nofun, (List.append_nil _).symm⟩
  unfold Reactor.settle
  split <;> rfl

theorem Settles.of_setTask {t : Nat} {task : Task α} (h : Settles (r.setTask t task) p o e) : Settles r p o e := by
  have hsettle
      : (r.setTask t task).settle p o
          =
        { work := (r.settle p o).work, reactor := (r.settle p o).reactor.setTask t task } := by
    unfold Reactor.settle Reactor.pending? Reactor.setTask
    dsimp only
    split <;> rfl
  obtain ⟨hpromises, hnames, hwork⟩ := h
  rw [hsettle] at hpromises hwork
  exact ⟨hpromises, hnames, hwork⟩

end Effect

theorem Reactor.tasks_settle (r : Reactor α) (p : Nat) (o : Outcome α)
    : (r.settle p o).reactor.tasks = r.tasks := by
  unfold settle
  split <;> rfl

theorem Reactor.tasks_listen (r : Reactor α) (channel : Channel) (p : Nat) (reaction : Reaction α)
    : (r.listen channel p reaction).reactor.tasks = r.tasks := by
  unfold listen
  split
  . rfl
  . split <;> rfl

namespace Stroke

/--
Nothing becomes of the tasks.
-/
structure Frames (s : Stroke α) : Prop where
  notice : ∀ t, s.notice? t = none
  tasks : s.effect.reactor.tasks = s.reactor.tasks

/--
What a stroke may do, as far as tasks and promises go.
-/
inductive Deed (s : Stroke α) : Prop
  | rests (h : s.Frames) (hpart : ∀ t, s.work.part? t = none) (heffect : s.effect.Rests s.reactor)
  | makes (name : String) (hpart : ∀ t, s.work.part? t = none) (hnotice : ∀ t, s.notice? t = none)
      (hpromises : s.effect.reactor.promises = s.reactor.promises ++ [({} : Promise α)])
      (hnames : s.effect.reactor.promiseNames = (name, s.reactor.promises.length) :: s.reactor.promiseNames)
      (htasks : s.effect.reactor.tasks = s.reactor.tasks
        ∨ s.effect.reactor.tasks = s.reactor.tasks ++ [{ promise := s.reactor.promises.length }])
      (hwork : ∀ w ∈ s.effect.work, w.isAside)
  | waits (h : s.Frames) (hpart : ∀ t, s.work.part? t = none) (q : Nat) (old new : Promise α)
      (hpending : s.reactor.pending? q = some old) (hwaits : old.Waits new)
      (hpromises : s.effect.reactor.promises = s.reactor.promises.set q new)
      (hnames : s.effect.reactor.promiseNames = s.reactor.promiseNames)
      (hwork : ∀ w ∈ s.effect.work, w.isAside)
  | settles (h : s.Frames) (hpart : ∀ t, s.work.part? t = none) (q : Nat) (o : Outcome α)
      (hsettles : s.settles? = some q) (heffect : s.effect.Settles s.reactor q o)
  | joins (h : s.Frames) (t q : Nat) (hwork : s.work = .join t q)
  | starts (h : s.Frames) (t i : Nat) (part : Part α) (parameters : Fields)
      (hwork : s.work = .start t i part parameters)
  | tells (hpart : ∀ t, s.work.part? t = none) (t : Nat) (task : Task α) (notice : Notice α)
      (hparts : notice.parts? = none) (hnotice : ∀ t', s.notice? t' = if t = t' then some notice else none)
      (htask : s.reactor.tasks[t]? = some task)
      (htasks : s.effect.reactor.tasks = s.reactor.tasks.set t (task.take notice))
      (hends : match task.ends? notice with
        | some (_, o) => s.effect.Settles s.reactor task.promise o
        | none => s.effect.Rests s.reactor)
  | runs (hpart : ∀ t, s.work.part? t = none) (t : Nat) (task : Task α) (op : Op α) (parameters : Fields)
      (hnotice : ∀ t', s.notice? t' = if t = t' then some (.started task.parts) else none)
      (htask : s.reactor.tasks[t]? = some task) (hnew : task.status = .new)
      (htasks : s.effect.reactor.tasks = s.reactor.tasks.set t (task.take (.started task.parts)))
      (hpromises : s.effect.reactor.promises = s.reactor.promises)
      (hnames : s.effect.reactor.promiseNames = s.reactor.promiseNames)
      (hwork : s.effect.work
        = task.parts.mapIdx (fun i part => .start t i part parameters) ++ [.answerOutcome op task.promise])

/--
The strokes of which a task takes a notice.
-/
inductive Notices (t : Nat) (s : Stroke α) : Notice α → Prop
  | added {ref p : Ref} {label : String} {body : List (Op α)} {task : Task α} {promise : Nat}
      (hwork : s.work = .op (.addPart ref p label body)) (hfind : s.reactor.findTask? ref = some (t, task))
      (hpromise : s.reactor.promise? p = some promise) : Notices t s (.added { label, body, promise })
  | started {ref : Ref} {parameters : Fields} {task : Task α} (hwork : s.work = .op (.runTask ref parameters))
      (hfind : s.reactor.findTask? ref = some (t, task)) (hnew : task.status = .new)
      : Notices t s (.started task.parts)
  | aborted {ref : Ref} {task : Task α} (hwork : s.work = .op (.abortTask ref))
      (hfind : s.reactor.findTask? ref = some (t, task)) : Notices t s .aborted
  | done {o : Outcome α} (hwork : s.work = .react (.partDone t) o) (ht : t < s.reactor.tasks.length)
      : Notices t s .done
  | failed {o : Outcome α} (hwork : s.work = .react (.partFailed t) o) (ht : t < s.reactor.tasks.length)
      : Notices t s (.failed o)
  | finished {timed : Bool} (hwork : s.work = .job timed (.finish t)) (ht : t < s.reactor.tasks.length)
      : Notices t s .finished

theorem notice?_eq_some {s : Stroke α} {t : Nat} {notice : Notice α}
    : s.notice? t = some notice ↔ s.Notices t notice := by
  constructor
  . intro h
    unfold notice? at h
    split at h
    . next hwork =>
      split at h
      . next hfind hpromise =>
        split at h
        . next ht =>
          cases h
          exact .added hwork (ht ▸ hfind) hpromise
        . cases h
      . cases h
    . next hwork =>
      split at h
      . next hfind =>
        split at h
        . next ht =>
          cases h
          exact .started hwork (ht.1 ▸ hfind) ht.2
        . cases h
      . cases h
    . next hwork =>
      split at h
      . next hfind =>
        split at h
        . next ht =>
          cases h
          exact .aborted hwork (ht ▸ hfind)
        . cases h
      . cases h
    . next hwork =>
      split at h
      . next ht =>
        cases h
        exact .done (ht.1 ▸ hwork) ht.2
      . cases h
    . next hwork =>
      split at h
      . next ht =>
        cases h
        exact .failed (ht.1 ▸ hwork) ht.2
      . cases h
    . next hwork =>
      split at h
      . next ht =>
        cases h
        exact .finished (ht.1 ▸ hwork) ht.2
      . cases h
    . cases h
  . intro h
    unfold notice?
    cases h with
    | added hwork hfind hpromise => simp [hwork, hfind, hpromise]
    | started hwork hfind hnew => simp [hwork, hfind, hnew]
    | aborted hwork hfind => simp [hwork, hfind]
    | done hwork ht | failed hwork ht | finished hwork ht => simp [hwork, ht]

end Stroke

namespace Reactor

variable {r : Reactor α} {t : Nat} {task : Task α}

/--
What it comes to that a task takes a notice, if it is ended by this or not.
-/
structure Takes (r : Reactor α) (t : Nat) (task : Task α) (notice : Notice α) (e : Effect α) : Prop where
  tasks : e.reactor.tasks = r.tasks.set t (task.take notice)
  ends : match task.ends? notice with
    | some (_, o) => e.Settles r task.promise o
    | none => e.Rests r

theorem endTask_of_running (htask : r.tasks[t]? = some task) (hrunning : task.status = .running)
    (status : TaskStatus) (o : Outcome α)
    : (r.endTask t status o).reactor.tasks = r.tasks.set t { task with status } ∧
      (r.endTask t status o).Settles r task.promise o := by
  unfold endTask
  rw [htask]
  dsimp only
  rw [if_pos hrunning]
  exact ⟨tasks_settle .., (Effect.settles_settle ..).of_setTask⟩

theorem endTask_of_not_running (htask : r.tasks[t]? = some task) (hrunning : task.status ≠ .running)
    (status : TaskStatus) (o : Outcome α) : r.endTask t status o = { reactor := r } := by
  unfold endTask
  rw [htask]
  dsimp only
  rw [if_neg hrunning]

theorem set_self {β : Type} {l : List β} {i : Nat} {b : β} (h : l[i]? = some b) : l.set i b = l := by
  obtain ⟨hi, rfl⟩ := List.getElem?_eq_some_iff.1 h
  exact List.set_getElem_self hi

theorem getElem?_set_of_eq_some {β : Type} {l : List β} {i : Nat} {b : β} (h : l[i]? = some b) (new : β)
    : (l.set i new)[i]? = some new := by
  rw [List.getElem?_set_self (List.getElem?_eq_some_iff.1 h).1]

/--
A notice that does nothing but end a running task.
-/
theorem takes_endTask (htask : r.tasks[t]? = some task) {notice : Notice α} {status : TaskStatus} {o : Outcome α}
    (hnote : task.note notice = task)
    (hends : task.ends? notice = if task.status = .running then some (status, o) else none)
    : Takes r t task notice (r.endTask t status o) := by
  by_cases hrunning : task.status = .running
  . rw [if_pos hrunning] at hends
    obtain ⟨htasks, hsettles⟩ := endTask_of_running htask hrunning status o
    exact ⟨by simp [htasks, Task.take, hnote, hends], by simpa [hends] using hsettles⟩
  . rw [if_neg hrunning] at hends
    rw [endTask_of_not_running htask hrunning]
    exact ⟨by simp [Task.take, hnote, hends, set_self htask], by simpa [hends] using Effect.rests_idle r⟩

theorem takes_done (htask : r.tasks[t]? = some task) : Takes r t task .done (r.partDone t) := by
  obtain ⟨ht, _⟩ := List.getElem?_eq_some_iff.1 htask
  have hnoted (noted : Task α) : (r.setTask t noted).tasks[t]? = some noted := by
    simp [setTask, ht]
  unfold partDone
  rw [htask]
  dsimp only
  split
  . next htotal =>
    by_cases hrunning : task.status = .running
    . obtain ⟨htasks, hsettles⟩ :=
        endTask_of_running (hnoted { task with completed := task.completed + 1 }) hrunning .done (.done none)
      constructor
      . rw [htasks]
        simp [Task.take, Task.note, Task.ends?, hrunning, htotal, setTask]
      . simpa [Task.ends?, hrunning, htotal] using hsettles.of_setTask
    . rw [endTask_of_not_running (hnoted { task with completed := task.completed + 1 }) hrunning]
      constructor
      . simp [Task.take, Task.note, Task.ends?, hrunning, setTask]
      . simpa [Task.ends?, hrunning] using Effect.rests_setTask ..
  . next htotal =>
    constructor
    . simp [Task.take, Task.note, Task.ends?, htotal, setTask]
    . simpa [Task.ends?, htotal] using Effect.rests_setTask ..

theorem takes_aborted (htask : r.tasks[t]? = some task) : Takes r t task .aborted (r.abortTask t task) := by
  have hover : (task.status = .new ∨ task.status = .running) ↔ task.status.isOver = false := by
    cases task.status <;> simp [TaskStatus.isOver]
  unfold abortTask
  simp only [Bool.or_eq_true, decide_eq_true_eq, hover]
  split
  . next hnot =>
    constructor
    . simp [Task.take, Task.note, Task.ends?, hnot, tasks_settle, setTask]
    . simpa [Task.ends?, hnot] using (Effect.settles_settle ..).of_setTask
  . next hnot =>
    constructor
    . simp [Task.take, Task.note, Task.ends?, hnot, set_self htask]
    . simpa [Task.ends?, hnot] using Effect.rests_idle r

theorem Takes.append {notice : Notice α} {e : Effect α} (h : Takes r t task notice e) {last : Work α}
    (hlast : last.isAside) : Takes r t task notice { e with work := e.work ++ [last] } := by
  refine ⟨h.tasks, ?_⟩
  have hends := h.ends
  split at hends <;> exact hends.append hlast

/--
A task starts with its parts, in their order. Of a task without parts nothing shows before the next tick.
-/
theorem startTask_eq (r : Reactor α) (t : Nat) (task : Task α) (parameters : Fields)
    : (r.startTask t task parameters).reactor.tasks = r.tasks.set t (task.take (.started task.parts)) ∧
      (r.startTask t task parameters).reactor.promises = r.promises ∧
      (r.startTask t task parameters).reactor.promiseNames = r.promiseNames ∧
      (r.startTask t task parameters).work = task.parts.mapIdx fun i part => .start t i part parameters := by
  unfold startTask
  dsimp only
  split
  . next hempty =>
    rw [List.isEmpty_iff] at hempty
    rw [hempty]
    exact ⟨rfl, rfl, rfl, rfl⟩
  . exact ⟨rfl, rfl, rfl, rfl⟩

end Reactor

theorem Part.isAside_forwards (part : Part α) : ∀ w ∈ part.forwards, w.isAside := by
  intro w hw
  obtain ⟨_, _, _, rfl⟩ := exists_of_mem_forwards hw
  rfl

theorem isAside_ops (body : List (Op α)) : ∀ w ∈ body.map Work.op, w.isAside := by
  intro w hw
  obtain ⟨_, _, rfl⟩ := List.mem_map.1 hw
  rfl

namespace Stroke

/--
A task takes its notice, and a task that does not exist takes none.
-/
theorem deed_of_takes {s : Stroke α} (hpart : ∀ t, s.work.part? t = none) {t : Nat} {notice : Notice α}
    (hparts : notice.parts? = none)
    (hnotice : ∀ t', s.notice? t' = if t = t' ∧ t' < s.reactor.tasks.length then some notice else none)
    (htakes : ∀ task, s.reactor.tasks[t]? = some task → s.reactor.Takes t task notice s.effect)
    (hmissing : s.reactor.tasks[t]? = none → s.effect = { reactor := s.reactor }) : s.Deed := by
  cases htask : s.reactor.tasks[t]? with
  | none =>
    have ht := List.getElem?_eq_none_iff.1 htask
    have hidle := hmissing htask
    refine .rests ⟨?_, by rw [hidle]⟩ hpart (by rw [hidle]; exact Effect.rests_idle _)
    intro t'
    rw [hnotice, if_neg]
    rintro ⟨rfl, hlt⟩
    omega
  | some task =>
    have ht := (List.getElem?_eq_some_iff.1 htask).1
    obtain ⟨htasks, hends⟩ := htakes task htask
    refine .tells hpart t task notice hparts ?_ htask htasks hends
    intro t'
    rw [hnotice]
    by_cases heq : t = t'
    . subst heq
      rw [if_pos ⟨rfl, ht⟩, if_pos rfl]
    . rw [if_neg (fun h => heq h.1), if_neg heq]

section Op

variable {r : Reactor α} {op : Op α} {cause : Option Nat}

theorem notice?_of_idles (h : r.Idles op) (cause : Option Nat) (t : Nat)
    : notice? t { work := .op op, cause, reactor := r } = none := by
  cases op with
  | addPart ref p label body =>
    obtain h | h := h <;> simp [notice?, h]
  | runTask ref parameters =>
    simp only [notice?]
    split
    . next t' task hfind => simp [h t' task hfind]
    . rfl
  | abortTask ref => simp [notice?, show r.findTask? ref = none from h]
  | _ => rfl

/--
A listener that is added waits, or it hears of an outcome next.
-/
theorem deed_listen {s : Stroke α} (hnotice : ∀ t, s.notice? t = none) (hpart : ∀ t, s.work.part? t = none)
    {channel : Channel} {q : Nat} {reaction : Reaction α} (haside : reaction.isAside) {more : List (Work α)}
    (hmore : ∀ w ∈ more, w.isAside)
    (heffect : s.effect = { s.reactor.listen channel q reaction with
      work := (s.reactor.listen channel q reaction).work ++ more })
    : s.Deed := by
  have hframes : s.Frames := ⟨hnotice, by rw [heffect]; exact Reactor.tasks_listen ..⟩
  unfold Reactor.listen at heffect
  split at heffect
  . exact .rests hframes hpart (by rw [heffect]; exact ⟨rfl, rfl, hmore⟩)
  . next promise hpromise =>
    split at heffect
    . next ho =>
      have hpending : s.reactor.pending? q = some promise := by
        simp [Reactor.pending?, hpromise, Option.filter, ho]
      exact .waits hframes hpart q promise _ hpending (.listener channel reaction haside) (by rw [heffect]; rfl)
        (by rw [heffect]; rfl) (by rw [heffect]; exact hmore)
    . refine .rests hframes hpart ?_
      rw [heffect]
      refine ⟨rfl, rfl, List.forall_mem_append.2 ⟨?_, hmore⟩⟩
      dsimp only
      split
      . exact List.forall_mem_singleton.2 haside
      . exact nofun

theorem deed_poll {ref : Ref} {waker : String} {answer : Work α} {q : Nat} {promise : Promise α} (hanswer : answer.isAside)
    (hfind : r.findPromise? ref = some (q, promise)) (ho : promise.outcome = none)
    (heffect : ({ work := .op (.poll ref waker), cause, reactor := r } : Stroke α).effect
      = { work := [answer], reactor := r.setPromise q { promise with wakers := promise.wakers ++ [waker] } })
    : Deed { work := .op (.poll ref waker), cause, reactor := r } := by
  have hpending : r.pending? q = some promise := by
    simp [Reactor.pending?, r.findPromise?_eq_some hfind, Option.filter, ho]
  exact .waits ⟨fun _ => rfl, by rw [heffect]; rfl⟩ (fun _ => rfl) q promise _ hpending (.waker waker)
    (by rw [heffect]; rfl) (by rw [heffect]; rfl) (by rw [heffect]; exact List.forall_mem_singleton.2 hanswer)

theorem deed_abortTask {ref : Ref} {answer : Work α} {t : Nat} {task : Task α} (hanswer : answer.isAside)
    (hfind : r.findTask? ref = some (t, task))
    (heffect : ({ work := .op (.abortTask ref), cause, reactor := r } : Stroke α).effect
      = { r.abortTask t task with work := (r.abortTask t task).work ++ [answer] })
    : Deed { work := .op (.abortTask ref), cause, reactor := r } := by
  have htask := r.findTask?_eq_some hfind
  have htakes := (Reactor.takes_aborted htask).append hanswer
  rw [← heffect] at htakes
  exact .tells (fun _ => rfl) t task .aborted rfl (fun _ => by simp [notice?, hfind]) htask htakes.tasks htakes.ends

theorem deed_op (r : Reactor α) (cause : Option Nat) (op : Op α) : Deed { work := .op op, cause, reactor := r } := by
  obtain ⟨e, answer, hperforms, heq⟩ := r.exists_performs op
  have heffect : ({ work := .op op, cause, reactor := r } : Stroke α).effect
      = { e with work := e.work ++ [answer] } := heq
  have hanswer : answer.isAside := by cases hperforms.answers <;> rfl
  have hlast : ∀ w ∈ [answer], w.isAside := List.forall_mem_singleton.2 hanswer
  cases hperforms with
  | idles h answer =>
    exact .rests ⟨notice?_of_idles h cause, by rw [heffect]⟩ (fun _ => rfl)
      (by rw [heffect]; exact (Effect.rests_idle r).append hanswer)
  | defer | schedule =>
    exact .rests ⟨fun _ => rfl, by rw [heffect]; rfl⟩ (fun _ => rfl) (by rw [heffect]; exact ⟨rfl, rfl, hlast⟩)
  | tick now =>
    refine .rests ⟨fun _ => rfl, by rw [heffect]; rfl⟩ (fun _ => rfl) ?_
    rw [heffect]
    refine ⟨rfl, rfl, List.forall_mem_append.2 ⟨?_, hlast⟩⟩
    exact List.forall_mem_append.2 ⟨List.forall_mem_map.2 fun _ _ => rfl, List.forall_mem_map.2 fun _ _ => rfl⟩
  | create name => exact .makes name (fun _ => rfl) (fun _ => rfl) rfl rfl (.inl rfl) hlast
  | sleep name due => exact .makes name (fun _ => rfl) (fun _ => rfl) rfl rfl (.inl rfl) hlast
  | createTask name => exact .makes name (fun _ => rfl) (fun _ => rfl) rfl rfl (.inr rfl) hlast
  | listen => exact deed_listen (fun _ => rfl) (fun _ => rfl) rfl hlast heffect
  | settle hp outcome =>
    refine .settles ⟨fun _ => rfl, by rw [heffect]; exact Reactor.tasks_settle ..⟩ (fun _ => rfl) _ outcome hp ?_
    rw [heffect]
    exact (Effect.settles_settle ..).append hanswer
  | poll hfind hpending waker => exact deed_poll hanswer hfind hpending heffect
  | @addPart ref p t promise task hfind hp label body =>
    refine .tells (fun _ => rfl) t task (.added { label, body, promise }) rfl (fun _ => ?_) (r.findTask?_eq_some hfind)
      (by rw [heffect]; rfl) ?_
    . simp [notice?, hfind, hp]
    . rw [heffect]
      exact ⟨rfl, rfl, hlast⟩
  | @runTask ref t task hfind hnew parameters =>
    obtain ⟨htasks, hpromises, hnames, hwork⟩ := r.startTask_eq t task parameters
    refine .runs (fun _ => rfl) t task (.runTask ref parameters) parameters (fun _ => ?_) (r.findTask?_eq_some hfind)
      hnew ?_ ?_ ?_ ?_
    . simp [notice?, hfind, hnew]
    all_goals simpa [heffect]
  | abortTask hfind => exact deed_abortTask hanswer hfind heffect

end Op

theorem deed (s : Stroke α) : s.Deed := by
  obtain ⟨⟨work, cause⟩, r⟩ := s
  cases work with
  | op op => exact deed_op r cause op
  | answer | answerOutcome | wake => exact .rests ⟨fun _ => rfl, rfl⟩ (fun _ => rfl) (Effect.rests_idle r)
  | react reaction o =>
    cases reaction with
    | listener channel label body => exact .rests ⟨fun _ => rfl, rfl⟩ (fun _ => rfl) ⟨rfl, rfl, isAside_ops body⟩
    | forward p =>
      exact .settles ⟨fun _ => rfl, Reactor.tasks_settle ..⟩ (fun _ => rfl) p o.bare rfl (Effect.settles_settle ..)
    | partDone t =>
      refine deed_of_takes (fun _ => rfl) rfl (fun _ => rfl) (fun _ => Reactor.takes_done) fun htask => ?_
      simp [effect, Reactor.step, Reactor.partDone, htask]
    | partFailed t =>
      refine deed_of_takes (fun _ => rfl) rfl (fun _ => rfl) (fun _ htask => Reactor.takes_endTask htask rfl rfl) ?_
      intro htask
      simp [effect, Reactor.step, Reactor.endTask, htask]
  | job timed job =>
    cases job with
    | ops label body => exact .rests ⟨fun _ => rfl, rfl⟩ (fun _ => rfl) ⟨rfl, rfl, isAside_ops body⟩
    | settle p o =>
      exact .settles ⟨fun _ => rfl, Reactor.tasks_settle ..⟩ (fun _ => rfl) p o rfl (Effect.settles_settle ..)
    | finish t =>
      refine deed_of_takes (fun _ => rfl) rfl (fun _ => rfl) (fun _ htask => Reactor.takes_endTask htask rfl rfl) ?_
      intro htask
      simp [effect, Reactor.step, Reactor.endTask, htask]
  | start t i part parameters => exact .starts ⟨fun _ => rfl, rfl⟩ t i part parameters rfl
  | forward channel p target =>
    have heffect : (r.listen channel p (.forward target)).work ++ [] = (r.listen channel p (.forward target)).work :=
      List.append_nil _
    exact deed_listen (fun _ => rfl) (fun _ => rfl) rfl (List.forall_mem_nil _) (by rw [heffect]; rfl)
  | join t p =>
    exact .joins ⟨fun _ => rfl, (Reactor.tasks_listen ..).trans (Reactor.tasks_listen ..)⟩ t p rfl

/-! ### What becomes of a task -/

section Task

variable {s : Stroke α} {t : Nat} {task : Task α} {notice : Notice α}

theorem exists_task_of_notice (h : s.notice? t = some notice) : ∃ task, s.reactor.tasks[t]? = some task := by
  cases notice?_eq_some.1 h with
  | added _ hfind _ | started _ hfind _ | aborted _ hfind => exact ⟨_, s.reactor.findTask?_eq_some hfind⟩
  | done _ ht | failed _ ht | finished _ ht => exact ⟨_, List.getElem?_eq_getElem ht⟩

theorem notice?_eq_none (s : Stroke α) (htask : s.reactor.tasks[t]? = none) : s.notice? t = none := by
  rw [Option.eq_none_iff_forall_ne_some]
  intro notice hnotice
  obtain ⟨task, hsome⟩ := exists_task_of_notice hnotice
  cases htask.symm.trans hsome

theorem new_of_started (s : Stroke α) (htask : s.reactor.tasks[t]? = some task) {parts : List (Part α)}
    (hnotice : s.notice? t = some (.started parts)) : task.status = .new ∧ task.parts = parts := by
  cases notice?_eq_some.1 hnotice with
  | started _ hfind hnew =>
    cases htask.symm.trans (s.reactor.findTask?_eq_some hfind)
    exact ⟨hnew, rfl⟩

/--
All that becomes of a task are the notices that it takes.
-/
theorem task_effect (s : Stroke α) (htask : s.reactor.tasks[t]? = some task)
    : s.effect.reactor.tasks[t]? = some ((s.notice? t).elim task task.take) := by
  have hset {t' : Nat} {task' : Task α} {notice : Notice α} (htask' : s.reactor.tasks[t']? = some task')
      (htasks : s.effect.reactor.tasks = s.reactor.tasks.set t' (task'.take notice))
      : s.effect.reactor.tasks[t]? = some ((if t' = t then some notice else none).elim task task.take) := by
    rw [htasks]
    by_cases ht : t' = t
    . subst ht
      rw [htask] at htask'
      cases htask'
      rw [Reactor.getElem?_set_of_eq_some htask, if_pos rfl]
      rfl
    . rw [List.getElem?_set_ne ht, htask, if_neg ht]
      rfl
  cases s.deed with
  | rests h | waits h | settles h | joins h | starts h =>
    rw [h.tasks, h.notice, htask]
    rfl
  | makes name _ hnotice _ _ htasks =>
    rw [hnotice]
    obtain htasks | htasks := htasks
    . rw [htasks, htask]
      rfl
    . rw [htasks, List.getElem?_append_left (List.getElem?_eq_some_iff.1 htask).1, htask]
      rfl
  | tells _ t' task' notice _ hnotice htask' htasks _ =>
    rw [hnotice]
    exact hset htask' htasks
  | runs _ t' task' op parameters hnotice htask' _ htasks =>
    rw [hnotice]
    exact hset htask' htasks

/--
A task is one of those before, or it has just been made, with a promise of its own.
-/
theorem task_of_effect (s : Stroke α) (htask : s.effect.reactor.tasks[t]? = some task)
    : (∃ old, s.reactor.tasks[t]? = some old ∧ task = (s.notice? t).elim old old.take) ∨
      s.reactor.tasks.length = t ∧ task = { promise := s.reactor.promises.length } ∧ s.notice? t = none ∧
        s.effect.reactor.outcome? task.promise = none := by
  cases hold : s.reactor.tasks[t]? with
  | some old =>
    left
    rw [s.task_effect hold] at htask
    cases htask
    exact ⟨old, rfl, rfl⟩
  | none =>
    right
    have hnone (htasks : s.effect.reactor.tasks = s.reactor.tasks) : False := by
      rw [htasks, hold] at htask
      cases htask
    have hset {t' : Nat} {new : Task α} (htasks : s.effect.reactor.tasks = s.reactor.tasks.set t' new) : False := by
      have hlength := (List.getElem?_eq_some_iff.1 htask).1
      rw [htasks, List.length_set] at hlength
      exact Nat.not_lt.2 (List.getElem?_eq_none_iff.1 hold) hlength
    cases s.deed with
    | rests h | waits h | settles h | joins h | starts h => exact (hnone h.tasks).elim
    | tells _ _ _ _ _ _ _ htasks => exact (hset htasks).elim
    | runs _ _ _ _ _ _ _ _ htasks => exact (hset htasks).elim
    | makes name _ hnotice hpromises _ htasks =>
      obtain htasks | htasks := htasks
      . exact (hnone htasks).elim
      . have hlength := List.getElem?_eq_none_iff.1 hold
        rw [htasks, List.getElem?_append_right hlength, List.getElem?_singleton] at htask
        split at htask
        . cases htask
          refine ⟨by omega, rfl, hnotice t, ?_⟩
          simp [Reactor.outcome?, hpromises]
        . cases htask

end Task

end Stroke
end VisualNovel
