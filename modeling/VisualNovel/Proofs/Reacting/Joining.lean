import Mathlib.Data.List.Basic
import VisualNovel.Proofs.Reacting.Agenda
import VisualNovel.Proofs.Reacting.Tally

/-!
This module contains that a task joins its parts in whatever order they are settled: its status and the outcome of its
promise always agree, follow from what has been reported to it, and are final once there is an outcome.
-/

namespace VisualNovel

variable {α : Type}

/--
A stroke leaves it to the tasks to settle a promise.
-/
def Stroke.Spares (p : Nat) (s : Stroke α) : Prop :=
  s.settles? = some p → s.reactor.outcome? p ≠ none

/--
A notice of the outcome of a part.
-/
def Notice.ofPart : Notice α → Bool
  | .done | .failed _ => true
  | _ => false

theorem Notice.isReport_of_ofPart {notice : Notice α} (h : notice.ofPart) : notice.isReport := by
  cases notice <;> first | rfl | cases h

namespace Reactor

variable {r : Reactor α} {p : Nat}

theorem outcome?_listen (channel : Channel) (q : Nat) (reaction : Reaction α)
    : (r.listen channel q reaction).reactor.outcome? p = r.outcome? p := by
  unfold listen
  split
  . rfl
  . next promise hq =>
    split
    . next ho =>
      have hnew : (promise.addListener channel reaction).outcome = none := by cases channel <;> exact ho
      exact outcome?_setPromise_of_pending (pending?_eq_some.2 ⟨hq, ho⟩) hnew p
    . rfl

theorem outcome?_congr {r' : Reactor α} (h : r.promises = r'.promises) (p : Nat) : r.outcome? p = r'.outcome? p := by
  rw [outcome?, outcome?, h]

end Reactor

namespace Effect

variable {r : Reactor α} {e : Effect α} {p q : Nat} {o : Outcome α}

theorem Rests.outcome?_eq (h : e.Rests r) (p : Nat) : e.reactor.outcome? p = r.outcome? p :=
  Reactor.outcome?_congr h.promises p

theorem Settles.outcome?_self (h : e.Settles r p o) (hp : p < r.promises.length)
    : e.reactor.outcome? p = some ((r.outcome? p).getD o) :=
  (Reactor.outcome?_congr h.promises p).trans (Reactor.outcome?_settle_self hp o)

theorem Settles.outcome?_of_ne (h : e.Settles r q o) (hq : q ≠ p) : e.reactor.outcome? p = r.outcome? p :=
  (Reactor.outcome?_congr h.promises p).trans (Reactor.outcome?_settle_of_ne hq o)

end Effect

namespace Stroke

variable {s : Stroke α} {t : Nat} {task : Task α}

theorem promise_ne_of_ne {tasks : List (Task α)} (hdistinct : (tasks.map Task.promise).Nodup) {t t' : Nat}
    {task task' : Task α} (htask : tasks[t]? = some task) (htask' : tasks[t']? = some task') (h : t ≠ t')
    : task.promise ≠ task'.promise := by
  intro heq
  have hlt : t < (tasks.map Task.promise).length := by simpa using (List.getElem?_eq_some_iff.1 htask).1
  have hget : (tasks.map Task.promise)[t]? = (tasks.map Task.promise)[t']? := by simp [htask, htask', heq]
  exact h ((List.getElem?_inj hlt hdistinct).1 hget)

theorem spares_of_ne {p : Nat} (h : s.settles? ≠ some p) : s.Spares p :=
  fun hsettles => (h hsettles).elim

/--
A task that takes a notice settles no promise but its own, and this only as it ends.
-/
theorem outcome?_of_ends {t' : Nat} {task' : Task α} {notice : Notice α}
    (htask : s.reactor.tasks[t]? = some task) (hlt : task.promise < s.reactor.promises.length)
    (hdistinct : (s.reactor.tasks.map Task.promise).Nodup) (htask' : s.reactor.tasks[t']? = some task')
    (hends : match task'.ends? notice with
      | some (_, o) => s.effect.Settles s.reactor task'.promise o
      | none => s.effect.Rests s.reactor)
    : s.effect.reactor.outcome? task.promise
        =
      match (if t' = t then some notice else none).bind task.ends? with
      | some (_, o) => some ((s.reactor.outcome? task.promise).getD o)
      | none => s.reactor.outcome? task.promise := by
  by_cases ht : t' = t
  . subst ht
    rw [htask] at htask'
    cases htask'
    rw [if_pos rfl, Option.bind_some]
    split at hends
    . exact hends.outcome?_self hlt
    . exact hends.outcome?_eq _
  . rw [if_neg ht, Option.bind_none]
    split at hends
    . exact hends.outcome?_of_ne (promise_ne_of_ne hdistinct htask' htask ht)
    . exact hends.outcome?_eq _

/--
A task settles its promise as it ends, and nobody else does.
-/
theorem outcome_effect (s : Stroke α) (htask : s.reactor.tasks[t]? = some task)
    (hgrounded : ∀ task ∈ s.reactor.tasks, task.promise < s.reactor.promises.length)
    (hdistinct : (s.reactor.tasks.map Task.promise).Nodup) (hspares : s.Spares task.promise)
    : s.effect.reactor.outcome? task.promise
        =
      match (s.notice? t).bind task.ends? with
      | some (_, o) => some ((s.reactor.outcome? task.promise).getD o)
      | none => s.reactor.outcome? task.promise := by
  have hlt := hgrounded task (List.mem_of_getElem? htask)
  cases s.deed with
  | rests h _ heffect =>
    rw [h.notice]
    exact heffect.outcome?_eq _
  | makes name _ hnotice hpromises =>
    have hcreate : s.effect.reactor.promises = s.reactor.create.2.promises := hpromises
    rw [hnotice]
    exact (Reactor.outcome?_congr hcreate _).trans s.reactor.outcome?_create
  | waits h _ q old new hpending hwaits hpromises =>
    have hnew : new.outcome = none := hwaits.outcome_eq.trans (Reactor.pending?_eq_some.1 hpending).2
    have hset : s.effect.reactor.promises = (s.reactor.setPromise q new).promises := hpromises
    rw [h.notice]
    exact (Reactor.outcome?_congr hset _).trans (Reactor.outcome?_setPromise_of_pending hpending hnew _)
  | settles h _ q o hsettles heffect =>
    rw [h.notice]
    by_cases hq : q = task.promise
    . subst hq
      obtain ⟨old, hold⟩ := Option.ne_none_iff_exists'.1 (hspares hsettles)
      rw [heffect.outcome?_self hlt, hold]
      rfl
    . exact heffect.outcome?_of_ne hq
  | joins h t' q hwork =>
    have heffect : s.effect = s.reactor.step (.join t' q) := congrArg s.reactor.step hwork
    rw [h.notice, heffect]
    exact (Reactor.outcome?_listen ..).trans (Reactor.outcome?_listen ..)
  | starts h t' i part parameters hwork =>
    have heffect : s.effect = s.reactor.step (.start t' i part parameters) := congrArg s.reactor.step hwork
    rw [h.notice, heffect]
    rfl
  | tells _ t' task' notice _ hnotice htask' _ hends =>
    rw [hnotice]
    exact outcome?_of_ends htask hlt hdistinct htask' hends
  | runs _ t' task' op parameters hnotice _ _ _ hpromises =>
    have hends : (s.notice? t).bind task.ends? = none := by
      rw [hnotice]
      split <;> rfl
    rw [hends]
    exact Reactor.outcome?_congr hpromises _

theorem tells_of_notice {notice : Notice α} (h : s.notice? t = some notice) (hpart : notice.ofPart)
    : s.work.tells? t = some notice := by
  cases notice?_eq_some.1 h with
  | done hwork | failed hwork => simp [hwork, Work.tells?]
  | added | started | aborted | finished => cases hpart

theorem notice_of_tells {notice : Notice α} (h : s.work.tells? t = some notice) (ht : t < s.reactor.tasks.length)
    : s.notice? t = some notice ∧ notice.ofPart := by
  unfold Work.tells? at h
  split at h
  . next t' o hwork =>
    split at h <;> cases h
    next heq => exact ⟨notice?_eq_some.2 (.done (heq ▸ hwork) ht), rfl⟩
  . next t' o hwork =>
    split at h <;> cases h
    next heq => exact ⟨notice?_eq_some.2 (.failed (heq ▸ hwork) ht), rfl⟩
  . cases h

theorem finish_of_notice (h : s.notice? t = some .finished) : ∃ timed, s.work = .job timed (.finish t) := by
  cases notice?_eq_some.1 h with
  | finished hwork => exact ⟨_, hwork⟩

theorem putOff_of_started (h : s.notice? t = some (.started [])) (number : Nat)
    : s.putOff? number = some { number, due := none, job := .finish t } := by
  generalize hparts : ([] : List (Part α)) = parts at h
  cases notice?_eq_some.1 h with
  | started hwork hfind hnew => simp [putOff?, hwork, hfind, hnew, ← hparts]

theorem started_of_putOff {number : Nat} {a : Appointment α} (h : s.putOff? number = some a)
    (hjob : a.job = .finish t) : s.notice? t = some (.started []) := by
  unfold putOff? at h
  split at h
  case h_4 ref parameters hwork =>
    split at h
    . next t' task hfind =>
      split at h <;> cases h
      next hstart =>
        cases hjob
        rw [Bool.and_eq_true, decide_eq_true_eq, List.isEmpty_iff] at hstart
        rw [notice?_eq_some, ← hstart.2]
        exact .started hwork hfind hstart.1
    . cases h
  all_goals
    cases h
    try cases hjob

end Stroke

theorem mem_starts {past : List (Stroke α)} {s : Stroke α} (hs : s ∈ past) {t : Nat} {parts : List (Part α)}
    (hnotice : s.notice? t = some (.started parts)) : parts ∈ starts t past := by
  rw [starts, List.mem_filterMap]
  exact ⟨_, List.mem_filterMap.2 ⟨s, hs, hnotice⟩, rfl⟩

/-! ### What a status says -/

/--
What the status of a task says about the parts it has been started with, about what has been reported to it, and about
the outcome of its promise.
-/
def Task.Reflects (task : Task α) (starts : List (List (Part α))) (reports : List (Notice α))
    (outcome : Option (Outcome α)) : Prop :=
  match task.status with
  | .new => starts = [] ∧ reports = [] ∧ task.completed = 0 ∧ outcome = none
  | .running =>
    ∃ parts : List (Part α), starts = [parts] ∧ task.total = parts.length ∧
      reports = List.replicate task.completed .done ∧
      (task.completed < parts.length ∨ task.completed = 0 ∧ parts = []) ∧ outcome = none
  | .done =>
    ∃ (parts : List (Part α)) (rest : List (Notice α)), starts = [parts] ∧
      reports = List.replicate parts.length .done ++ rest ∧ outcome = some (.done none)
  | .failed =>
    ∃ (parts : List (Part α)) (completed : Nat) (fault : Fault) (rest : List (Notice α)), starts = [parts] ∧
      completed < parts.length ∧
      reports = List.replicate completed .done ++ .failed (.failed fault) :: rest ∧
      outcome = some (.failed fault)
  | .aborted =>
    ∃ (completed : Nat) (rest : List (Notice α)),
      (completed = 0 ∧ starts = [] ∨
        ∃ parts : List (Part α), starts = [parts] ∧ (completed < parts.length ∨ completed = 0 ∧ parts = [])) ∧
      reports = List.replicate completed .done ++ .aborted :: rest ∧ outcome = some (.failed .aborted)

/--
When a task may take a notice, with the given parts that it has been started with.
-/
def Notice.Due (task : Task α) (starts : List (List (Part α))) : Notice α → Prop
  | .added _ | .aborted => True
  | .started _ => task.status = .new
  | .done => ∃ parts ∈ starts, parts ≠ []
  | .failed o => (∃ fault, o = .failed fault) ∧ ∃ parts ∈ starts, parts ≠ []
  | .finished => [] ∈ starts

namespace Task

variable {task : Task α} {starts : List (List (Part α))} {reports : List (Notice α)}
  {outcome : Option (Outcome α)} {notice : Notice α}

/--
A task that is over remains as it is, whatever is reported to it.
-/
theorem status_take_of_isOver (hover : task.status.isOver) (hdue : notice.Due task starts)
    : (task.take notice).status = task.status ∧ task.ends? notice = none := by
  have hnot : task.status ≠ .running := by
    intro h
    rw [h] at hover
    cases hover
  cases notice with
  | started =>
    rw [show task.status = .new from hdue] at hover
    cases hover
  | added | done | failed | aborted | finished => simp [take, ends?, note, hover, hnot]

theorem Reflects.of_isOver (h : task.Reflects starts reports outcome) (hover : task.status.isOver)
    {later : Task α} (hlater : later.status = task.status) (more : List (Notice α))
    : later.Reflects starts (reports ++ more) outcome := by
  unfold Reflects at *
  rw [hlater]
  cases hstatus : task.status with
  | new | running =>
    rw [hstatus] at hover
    cases hover
  | done =>
    simp only [hstatus] at h
    obtain ⟨parts, rest, hstarts, rfl, ho⟩ := h
    exact ⟨parts, rest ++ more, hstarts, by simp, ho⟩
  | failed =>
    simp only [hstatus] at h
    obtain ⟨parts, completed, fault, rest, hstarts, hlt, rfl, ho⟩ := h
    exact ⟨parts, completed, fault, rest ++ more, hstarts, hlt, by simp, ho⟩
  | aborted =>
    simp only [hstatus] at h
    obtain ⟨completed, rest, hstarts, rfl, ho⟩ := h
    exact ⟨completed, rest ++ more, hstarts, by simp, ho⟩

theorem Reflects.of_new (h : task.Reflects starts reports outcome) (hnew : task.status = .new)
    (hdue : notice.Due task starts)
    : (task.take notice).Reflects (starts ++ notice.parts?.toList) (reports ++ [notice].filter Notice.isReport)
        (match task.ends? notice with
          | some (_, o) => some (outcome.getD o)
          | none => outcome) := by
  simp only [Reflects, hnew] at h
  obtain ⟨rfl, rfl, hcompleted, rfl⟩ := h
  cases notice with
  | added part => simpa [take, ends?, note, Reflects, hnew, Notice.parts?, Notice.isReport] using hcompleted
  | started parts =>
    refine ⟨parts, by simp [Notice.parts?], rfl, ?_, ?_, rfl⟩
    . simp [take, ends?, note, hcompleted, Notice.isReport]
    . cases parts with
      | nil => exact .inr ⟨hcompleted, rfl⟩
      | cons => exact .inl (by simp [take, ends?, note, hcompleted])
  | aborted =>
    have hends : task.ends? (.aborted : Notice α) = some (.aborted, .failed .aborted) := by
      simp [ends?, hnew, TaskStatus.isOver]
    simp only [take, hends]
    exact ⟨0, [], .inl ⟨rfl, rfl⟩, rfl, rfl⟩
  | done =>
    obtain ⟨_, hmem, _⟩ := hdue
    cases hmem
  | failed =>
    obtain ⟨_, _, hmem, _⟩ := hdue
    cases hmem
  | finished => cases hdue

theorem Reflects.of_running (h : task.Reflects starts reports outcome) (hrunning : task.status = .running)
    (hdue : notice.Due task starts)
    : (task.take notice).Reflects (starts ++ notice.parts?.toList) (reports ++ [notice].filter Notice.isReport)
        (match task.ends? notice with
          | some (_, o) => some (outcome.getD o)
          | none => outcome) := by
  simp only [Reflects, hrunning] at h
  obtain ⟨parts, rfl, htotal, hreports, hcompleted, rfl⟩ := h
  cases notice with
  | started =>
    rw [show task.status = .new from hdue] at hrunning
    cases hrunning
  | added part =>
    have hnext : (task.take (.added part)).status = .running := hrunning
    simp only [Reflects, hnext]
    exact ⟨parts, rfl, htotal, by simp [hreports, take, ends?, note, Notice.isReport], hcompleted, rfl⟩
  | done =>
    obtain ⟨_, hmem, hparts⟩ := hdue
    rw [List.mem_singleton.1 hmem] at hparts
    have hlt : task.completed < parts.length := hcompleted.resolve_right fun h => hparts h.2
    have hnext : reports ++ [Notice.done].filter Notice.isReport = List.replicate (task.completed + 1) .done := by
      rw [hreports, List.replicate_succ']
      rfl
    rw [hnext]
    by_cases hlast : task.completed + 1 = task.total
    . have hends : task.ends? (.done : Notice α) = some (.done, .done none) := by
        simp [ends?, hlast, hrunning]
      simp only [take, hends]
      exact ⟨parts, [], rfl, by rw [hlast, htotal, List.append_nil], rfl⟩
    . have hends : task.ends? (.done : Notice α) = none := by
        simp [ends?, hlast]
      have hstatus : (task.note (.done : Notice α)).status = .running := hrunning
      simp only [take, hends, Reflects, hstatus]
      exact ⟨parts, rfl, htotal, rfl, .inl (by simp only [note]; omega), trivial⟩
  | failed o =>
    obtain ⟨⟨fault, rfl⟩, _, hmem, hparts⟩ := hdue
    rw [List.mem_singleton.1 hmem] at hparts
    have hlt : task.completed < parts.length := hcompleted.resolve_right fun h => hparts h.2
    have hends : task.ends? (.failed (.failed fault) : Notice α) = some (.failed, .failed fault) := by
      simp [ends?, hrunning]
    simp only [take, hends]
    exact ⟨parts, task.completed, fault, [], rfl, hlt, by rw [hreports]; rfl, rfl⟩
  | aborted =>
    have hends : task.ends? (.aborted : Notice α) = some (.aborted, .failed .aborted) := by
      simp [ends?, hrunning, TaskStatus.isOver]
    simp only [take, hends]
    exact ⟨task.completed, [], .inr ⟨parts, rfl, hcompleted⟩, by rw [hreports]; rfl, rfl⟩
  | finished =>
    obtain rfl := List.mem_singleton.1 hdue
    have hzero : task.completed = 0 := (hcompleted.resolve_left (Nat.not_lt_zero _)).1
    have hends : task.ends? (.finished : Notice α) = some (.done, .done none) := by
      simp [ends?, hrunning]
    simp only [take, hends]
    exact ⟨[], [.finished], rfl, by rw [hreports, hzero]; rfl, rfl⟩

/--
Whatever a task takes note of, its status says what it should.
-/
theorem Reflects.take (h : task.Reflects starts reports outcome) (hdue : notice.Due task starts)
    : (task.take notice).Reflects (starts ++ notice.parts?.toList) (reports ++ [notice].filter Notice.isReport)
        (match task.ends? notice with
          | some (_, o) => some (outcome.getD o)
          | none => outcome) := by
  cases hstatus : task.status with
  | new => exact h.of_new hstatus hdue
  | running => exact h.of_running hstatus hdue
  | done | failed | aborted =>
    have hover : task.status.isOver := by rw [hstatus]; rfl
    obtain ⟨hlater, hends⟩ := status_take_of_isOver hover hdue
    have hparts : notice.parts? = none := by
      cases notice with
      | started => cases hstatus.symm.trans hdue
      | _ => rfl
    rw [hends, hparts, Option.toList_none, List.append_nil]
    exact h.of_isOver hover hlater _

end Task

namespace Course

variable {ops : List (Op α)} {past : List (Stroke α)} {r : Reactor α} {left : List (Piece α)} {piece : Piece α}
  {t : Nat} {task : Task α}

/--
A task is told outcomes of the parts that it has been started with, and of no others.
-/
theorem exists_of_told (h : Course ops past r left) {notice : Notice α}
    (hnotice : notice ∈ told t past ++ underWay t left)
    : ∃ parts ∈ starts t past, ∃ part ∈ parts, ∃ o, r.outcome? part.promise = some o ∧ notice = o.notice := by
  rw [(h.tally t).told.mem_iff, List.mem_filterMap] at hnotice
  obtain ⟨q, hq, hnotice⟩ := hnotice
  obtain ⟨o, ho, rfl⟩ := Option.map_eq_some_iff.1 hnotice
  have hjoined : q ∈ (starts t past).flatten.map Part.promise := by
    rw [← h.joined_append_toJoin]
    exact List.mem_append_left _ hq
  obtain ⟨part, hpart, rfl⟩ := List.mem_map.1 hjoined
  obtain ⟨parts, hparts, hpart⟩ := List.mem_flatten.1 hpart
  exact ⟨parts, hparts, part, hpart, o, ho, rfl⟩

theorem exists_of_tells (h : Course ops past r (piece :: left)) {notice : Notice α}
    (htells : piece.work.tells? t = some notice)
    : ∃ parts ∈ starts t past, ∃ part ∈ parts, ∃ o, r.outcome? part.promise = some o ∧ notice = o.notice :=
  h.exists_of_told (List.mem_append_right _ (by simp [underWay, htells]))

/--
The loop ends a task that has been started without parts.
-/
theorem nil_mem_starts (h : Course ops past r (piece :: left)) {timed : Bool}
    (hfinish : piece.work = .job timed (.finish t)) : [] ∈ starts t past := by
  have hjob : piece.work.isJob := by rw [hfinish]; rfl
  obtain ⟨k, s, hcause, hs, now, hnow⟩ := h.setOffByTick.2 piece (List.mem_cons_self ..) hjob
  have hmem : piece.work ∈ (batch now (waiting (past.take k))).map Appointment.turn
      ++ [.answer (.tick now) (.count (batch now (waiting (past.take k))).length)] := by
    rw [← h.caused_tick hs hnow]
    simp [hcause]
  rw [List.mem_append, List.mem_map, List.mem_singleton] at hmem
  obtain ⟨a, ha, hturn⟩ | hanswer := hmem
  . obtain ⟨maker, hmaker, hput⟩ := mem_appointments.1 ((mem_batch_iff hs hnow).1 ha).made
    rw [hfinish] at hturn
    have hstarted := maker.started_of_putOff hput (Work.job.inj hturn).2
    exact mem_starts (List.mem_of_getElem? hmaker) hstarted
  . rw [hfinish] at hanswer
    cases hanswer

theorem notices_eq_nil (h : Course ops past r left) (ht : r.tasks[t]? = none) : notices t past = [] := by
  induction h with
  | start => rfl
  | @stroke past r piece left h ih =>
    let s : Stroke α := { piece with reactor := r }
    change s.effect.reactor.tasks[t]? = none at ht
    have hbefore : r.tasks[t]? = none := by
      cases htask : r.tasks[t]? with
      | none => rfl
      | some task =>
        rw [s.task_effect htask] at ht
        cases ht
    rw [notices_append_of_none (s.notice?_eq_none hbefore), ih hbefore]

theorem due (h : Course ops past r (piece :: left)) (htask : r.tasks[t]? = some task) {notice : Notice α}
    (hnotice : Stroke.notice? t { piece with reactor := r } = some notice) : notice.Due task (starts t past) := by
  cases notice with
  | added | aborted => exact trivial
  | started parts => exact (Stroke.new_of_started _ htask hnotice).1
  | done =>
    obtain ⟨parts, hparts, part, hpart, _⟩ := h.exists_of_tells (Stroke.tells_of_notice hnotice rfl)
    exact ⟨parts, hparts, List.ne_nil_of_mem hpart⟩
  | failed o =>
    obtain ⟨parts, hparts, part, hpart, o', _, heq⟩ := h.exists_of_tells (Stroke.tells_of_notice hnotice rfl)
    refine ⟨?_, parts, hparts, List.ne_nil_of_mem hpart⟩
    cases o' with
    | done => cases heq
    | failed fault =>
      cases heq
      exact ⟨fault, rfl⟩
  | finished =>
    obtain ⟨timed, hfinish⟩ := Stroke.finish_of_notice hnotice
    exact h.nil_mem_starts hfinish

/--
At every point of a run, the status of a task says what it should, as long as the end of the task is left to it.
-/
theorem reflects (h : Course ops past r left) (htask : r.tasks[t]? = some task)
    (hspares : ∀ s ∈ past, s.Spares task.promise)
    : task.Reflects (starts t past) (reports t past) (r.outcome? task.promise) := by
  induction h generalizing task with
  | start => cases htask
  | @stroke past r piece left h ih =>
    let s : Stroke α := { piece with reactor := r }
    have hgrounded := h.grounded
    have hreports : reports t (past ++ [s]) = reports t past ++ (s.notice? t).toList.filter Notice.isReport := by
      rw [reports, notices_append, List.filter_append, reports]
    change task.Reflects _ _ (s.effect.reactor.outcome? task.promise)
    rw [starts_append, hreports]
    obtain ⟨old, hold, rfl⟩ | ⟨ht, rfl, hnotice, houtcome⟩ := s.task_of_effect htask
    . have hpromise : ((s.notice? t).elim old old.take).promise = old.promise := by
        cases s.notice? t <;> simp
      rw [hpromise] at hspares
      have hbefore := ih hold fun s' hs' => hspares s' (List.mem_append_left _ hs')
      have hnext := s.outcome_effect hold h.grounded.tasks h.grounded.distinct
        (hspares s (List.mem_append_right _ (List.mem_singleton_self s)))
      rw [hpromise, hnext]
      cases hnotice : s.notice? t with
      | none => simpa using hbefore
      | some notice => exact hbefore.take (h.due hold hnotice)
    -- the task has just been made, so nothing has been noted for one of its number
    . have hmissing : r.tasks[t]? = none := List.getElem?_eq_none (Nat.le_of_eq ht)
      rw [houtcome, hnotice, reports, starts, h.notices_eq_nil hmissing]
      exact ⟨rfl, rfl, rfl, rfl⟩

theorem exists_task_of_starts (h : Course ops past r left) (hstarts : starts t past ≠ [])
    : ∃ task, r.tasks[t]? = some task := by
  cases htask : r.tasks[t]? with
  | some task => exact ⟨task, rfl⟩
  | none =>
    rw [starts, h.notices_eq_nil htask] at hstarts
    exact (hstarts rfl).elim

/--
What a task has been told of its parts has been reported to it.
-/
theorem told_eq (h : Course ops past r left) : told t past = (reports t past).filter Notice.ofPart := by
  rw [told, reports, notices, List.filter_filter, List.filter_filterMap]
  apply List.filterMap_congr
  intro s hs
  cases htells : s.work.tells? t with
  | some notice =>
    obtain ⟨k, hk⟩ := List.mem_iff_getElem?.1 hs
    obtain ⟨rest, hbefore⟩ := h.before hk
    obtain ⟨parts, hparts, _⟩ := hbefore.exists_of_tells htells
    obtain ⟨task, htask⟩ := hbefore.exists_task_of_starts (List.ne_nil_of_mem hparts)
    obtain ⟨hnotice, hpart⟩ := s.notice_of_tells htells (List.getElem?_eq_some_iff.1 htask).1
    rw [hnotice, Option.filter_some, if_pos]
    rw [hpart, notice.isReport_of_ofPart hpart]
    rfl
  | none =>
    cases hnotice : s.notice? t with
    | none => rfl
    | some notice =>
      rw [Option.filter_some, if_neg]
      intro hreport
      rw [Bool.and_eq_true] at hreport
      rw [Stroke.tells_of_notice hnotice hreport.1] at htells
      cases htells

/--
Once there is an outcome it is final, and so is the status of a task that is over.
-/
theorem later (h : Course ops past r left) {s : Stroke α} (hs : s ∈ past)
    : s.reactor.Extends r ∧
      ∀ old, s.reactor.tasks[t]? = some old →
        ∃ task, r.tasks[t]? = some task ∧ task.promise = old.promise ∧
          (old.status.isOver → task.status = old.status) := by
  induction h with
  | start => cases hs
  | @stroke past r piece left h ih =>
    let last : Stroke α := { piece with reactor := r }
    have hlast (task : Task α) (htask : r.tasks[t]? = some task)
        : ∃ next, last.effect.reactor.tasks[t]? = some next ∧ next.promise = task.promise ∧
            (task.status.isOver → next.status = task.status) := by
      refine ⟨_, last.task_effect htask, ?_⟩
      cases hnotice : last.notice? t with
      | none => exact ⟨rfl, fun _ => rfl⟩
      | some notice =>
        exact ⟨task.promise_take notice,
          fun hover => (Task.status_take_of_isOver hover (h.due htask hnotice)).1⟩
    rw [List.mem_append, List.mem_singleton] at hs
    obtain hs | rfl := hs
    . obtain ⟨hextends, hkept⟩ := ih hs
      refine ⟨hextends.trans (r.step_extends piece.work), ?_⟩
      intro old hold
      obtain ⟨task, htask, hpromise, hstatus⟩ := hkept old hold
      obtain ⟨next, hnext, hpromise', hstatus'⟩ := hlast task htask
      refine ⟨next, hnext, hpromise'.trans hpromise, ?_⟩
      intro hover
      have hsame := hstatus hover
      rw [hstatus' (hsame ▸ hover), hsame]
    . exact ⟨r.step_extends piece.work, hlast⟩

theorem eq_of_append_eq_concat {β : Type} {first second init : List β} {b last : β}
    (h : first ++ second = init ++ [last]) (hb : b ∈ first) (hnot : b ∉ init) : first = init ++ [last] := by
  obtain ⟨more, rfl, _⟩ | ⟨more, rfl, hmore⟩ := List.append_eq_append_iff.1 h
  . exact (hnot (List.mem_append_left _ hb)).elim
  . obtain hb | hb := List.mem_append.1 hb
    . exact (hnot hb).elim
    . obtain ⟨rfl, rfl⟩ | ⟨rfl, rfl⟩ := List.singleton_eq_append_iff.1 hmore
      . cases hb
      . rfl

/--
A tick takes what has been set off before it, and when it has been answered all of it has had its turn.
-/
theorem done_of_answered (h : Course ops past r left) {k : Nat} {tick : Stroke α} {now : Nat}
    (htick : past[k]? = some tick) (hnow : tick.work = .op (.tick now)) {a : Appointment α} (ha : Takes past k a)
    {s : Stroke α} (hs : s ∈ past) (hcause : s.cause = some k) {n : Nat}
    (hanswer : s.work = .answer (.tick now) (.count n)) : ∃ s' ∈ past, s'.work = a.turn := by
  have hcaused := h.caused_tick htick hnow
  have hturn : a.turn ∈ (batch now (waiting (past.take k))).map Appointment.turn :=
    List.mem_map_of_mem ((mem_batch_iff htick hnow).2 ha)
  have hdone : s.work ∈ (past.filter (·.cause = some k)).map (·.work) := by
    rw [List.mem_map]
    exact ⟨s, List.mem_filter.2 ⟨hs, by simpa using hcause⟩, rfl⟩
  have hnot : s.work ∉ (batch now (waiting (past.take k))).map Appointment.turn := by
    rw [hanswer, List.mem_map]
    rintro ⟨b, _, hb⟩
    cases hb
  have hmem : a.turn ∈ (past.filter (·.cause = some k)).map (·.work) := by
    rw [eq_of_append_eq_concat hcaused hdone hnot]
    exact List.mem_append_left _ hturn
  obtain ⟨s', hs', hwork⟩ := List.mem_map.1 hmem
  exact ⟨s', (List.mem_filter.1 hs').1, hwork⟩

end Course
end VisualNovel
