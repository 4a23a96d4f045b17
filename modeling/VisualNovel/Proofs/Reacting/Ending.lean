import VisualNovel.Proofs.Reacting.Joining

/-!
This module contains how a task ends: with its parts if all of them are done, with the first failure that is reported
to it, or by being given up, and without parts with the next tick.
-/

namespace VisualNovel

variable {α : Type}

namespace Notice

def isDone : Notice α → Bool
  | .done => true
  | _ => false

theorem isDone_notice {o : Outcome α} (h : o.notice.isDone) : ∃ value, o = .done value := by
  cases o with
  | done value => exact ⟨value, rfl⟩
  | failed => cases h

end Notice

namespace Task.Reflects

variable {task : Task α} {starts : List (List (Part α))} {reports : List (Notice α)}
  {outcome : Option (Outcome α)}

theorem length_starts_le (h : task.Reflects starts reports outcome) : starts.length ≤ 1 := by
  unfold Reflects at h
  split at h
  . simp [h.1]
  . obtain ⟨parts, rfl, _⟩ := h
    exact Nat.le_refl _
  . obtain ⟨parts, rest, rfl, _⟩ := h
    exact Nat.le_refl _
  . obtain ⟨parts, completed, fault, rest, rfl, _⟩ := h
    exact Nat.le_refl _
  . obtain ⟨completed, rest, ⟨_, rfl⟩ | ⟨parts, rfl, _⟩, _⟩ := h
    . exact Nat.zero_le _
    . exact Nat.le_refl _

theorem not_prefix_replicate {completed n : Nat} (hlt : completed < n) {notice : Notice α} {rest : List (Notice α)}
    (hnotice : notice.isDone = false)
    : ¬List.replicate n .done <+: List.replicate completed .done ++ notice :: rest := by
  rintro hfirst
  have hget := hfirst.getElem (i := completed) (by simpa using hlt)
  simp at hget
  subst hget
  cases hnotice

/--
A task with parts is done when all of them have been reported to be, before anything else has been reported.
-/
theorem done_iff {parts : List (Part α)} (h : task.Reflects [parts] reports outcome) (hparts : parts ≠ [])
    : task.status = .done ↔ List.replicate parts.length .done <+: reports := by
  have hpos := List.length_pos_of_ne_nil hparts
  unfold Reflects at h
  cases hstatus : task.status with
  | new =>
    simp only [hstatus] at h
    cases h.1
  | running =>
    simp only [hstatus] at h
    obtain ⟨_, hstarts, _, rfl, hcompleted, _⟩ := h
    cases hstarts
    have hlt : task.completed < parts.length := hcompleted.resolve_right fun h => hparts h.2
    refine iff_of_false nofun fun hfirst => ?_
    have hle := hfirst.length_le
    simp only [List.length_replicate] at hle
    omega
  | done =>
    simp only [hstatus] at h
    obtain ⟨_, rest, hstarts, rfl, _⟩ := h
    cases hstarts
    exact iff_of_true rfl (List.prefix_append ..)
  | failed =>
    simp only [hstatus] at h
    obtain ⟨_, completed, fault, rest, hstarts, hlt, rfl, _⟩ := h
    cases hstarts
    exact iff_of_false nofun (not_prefix_replicate hlt rfl)
  | aborted =>
    simp only [hstatus] at h
    obtain ⟨completed, rest, hstarts, rfl, _⟩ := h
    obtain ⟨_, hnone⟩ | ⟨_, hstarts, hcompleted⟩ := hstarts
    . cases hnone
    . cases hstarts
      have hlt : completed < parts.length := hcompleted.resolve_right fun h => hparts h.2
      exact iff_of_false nofun (not_prefix_replicate hlt rfl)

theorem exists_outcome (h : task.Reflects starts reports outcome) (hover : task.status.isOver)
    : ∃ o, outcome = some o := by
  unfold Reflects at h
  cases hstatus : task.status with
  | new | running =>
    rw [hstatus] at hover
    cases hover
  | done =>
    simp only [hstatus] at h
    obtain ⟨_, _, _, _, ho⟩ := h
    exact ⟨_, ho⟩
  | failed =>
    simp only [hstatus] at h
    obtain ⟨_, _, _, _, _, _, _, ho⟩ := h
    exact ⟨_, ho⟩
  | aborted =>
    simp only [hstatus] at h
    obtain ⟨_, _, _, _, ho⟩ := h
    exact ⟨_, ho⟩

theorem isOver_of_finished (h : task.Reflects starts reports outcome) (hfinished : .finished ∈ reports)
    : task.status.isOver := by
  unfold Reflects at h
  cases hstatus : task.status with
  | new =>
    simp only [hstatus] at h
    rw [h.2.1] at hfinished
    cases hfinished
  | running =>
    simp only [hstatus] at h
    obtain ⟨parts, _, _, rfl, _⟩ := h
    cases (List.mem_replicate.1 hfinished).2
  | done | failed | aborted => rfl

end Task.Reflects

namespace Course

variable {ops : List (Op α)} {past : List (Stroke α)} {r : Reactor α} {left : List (Piece α)} {t : Nat}
  {task : Task α}

/--
When as many parts have been reported to be done as a task has been started with, all of them are.
-/
theorem parts_done (h : Course ops past r left) {parts : List (Part α)} (hstarts : starts t past = [parts])
    (hfirst : List.replicate parts.length .done <+: reports t past)
    : ∀ part ∈ parts, ∃ value, r.outcome? part.promise = some (.done value) := by
  have hall : joined t past ++ toJoin t left = parts.map Part.promise := by
    rw [h.joined_append_toJoin, hstarts, List.flatten_singleton]
  have htold : parts.length ≤ (told t past ++ underWay t left).countP Notice.isDone := by
    obtain ⟨rest, hrest⟩ := hfirst
    rw [List.countP_append, h.told_eq, ← hrest, List.filter_append, List.countP_append]
    simp only [List.filter_replicate, Notice.ofPart, ↓reduceIte, List.countP_replicate, Notice.isDone]
    omega
  rw [(h.tally t).told.countP_eq, List.countP_filterMap] at htold
  have hlength := congrArg List.length hall
  rw [List.length_append, List.length_map] at hlength
  -- no part is reported twice, so each of them must have been
  have hle := List.countP_le_length (p := fun q => (((r.outcome? q).map Outcome.notice).map Notice.isDone).getD false)
    (l := joined t past)
  have hdone := List.countP_eq_length.1 (Nat.le_antisymm hle (by omega))
  have hnone : toJoin t left = [] := List.eq_nil_of_length_eq_zero (by omega)
  rw [hnone, List.append_nil] at hall
  intro part hpart
  have hpart := hdone part.promise (hall ▸ List.mem_map_of_mem hpart)
  cases ho : r.outcome? part.promise with
  | none => simp [ho] at hpart
  | some o =>
    obtain ⟨value, rfl⟩ := Notice.isDone_notice (o := o) (by simpa [ho] using hpart)
    exact ⟨value, rfl⟩

/--
A task without parts has ended when the first tick after its start has been answered.
-/
theorem finished_of_answered (h : Course ops past r left) {k : Nat} {s : Stroke α} (hs : past[k]? = some s)
    (hstarted : s.notice? t = some (.started [])) {j : Nat} (hj : k < j) {tick : Stroke α} {now : Nat}
    (htick : past[j]? = some tick) (hnow : tick.work = .op (.tick now))
    (hfirst : ∀ i s, k < i → i < j → past[i]? = some s → s.now? = none) {answer : Stroke α} (hanswer : answer ∈ past)
    (hcause : answer.cause = some j) {n : Nat} (hcount : answer.work = .answer (.tick now) (.count n))
    : .finished ∈ reports t past := by
  let a : Appointment α := { number := k, due := none, job := .finish t }
  have hmade : a ∈ appointments past := mem_appointments.2 ⟨s, hs, s.putOff_of_started hstarted k⟩
  have htakes : Takes past j a := by
    refine ⟨hmade, hj, ⟨tick, htick, ?_⟩, ?_⟩
    . simp [Stroke.takes, Stroke.now?_eq_some.2 hnow, a, Appointment.ready]
    . intro i s' hi hij hs'
      simp [Stroke.takes, hfirst i s' hi hij hs']
  obtain ⟨finish, hmem, hwork⟩ := h.done_of_answered htick hnow htakes hanswer hcause hcount
  obtain ⟨m, hm⟩ := List.mem_iff_getElem?.1 hmem
  obtain ⟨rest, hbefore⟩ := h.before hm
  have hstarts := hbefore.nil_mem_starts hwork
  obtain ⟨task, htask⟩ := hbefore.exists_task_of_starts (List.ne_nil_of_mem hstarts)
  have hnotice : finish.notice? t = some .finished :=
    Stroke.notice?_eq_some.2 (.finished hwork (List.getElem?_eq_some_iff.1 htask).1)
  exact List.mem_filter.2 ⟨List.mem_filterMap.2 ⟨finish, hmem, hnotice⟩, rfl⟩

theorem pending_of_started (h : Course ops past r left) (htask : r.tasks[t]? = some task)
    (hspares : ∀ s ∈ past, s.Spares task.promise) {k : Nat} {s : Stroke α} (hs : past[k]? = some s)
    {parts : List (Part α)} (hstarted : s.notice? t = some (.started parts))
    : s.effect.reactor.outcome? task.promise = none := by
  obtain ⟨rest, hbefore⟩ := h.before hs
  obtain ⟨old, hold, hpromise⟩ : ∃ old, s.reactor.tasks[t]? = some old ∧ task.promise = old.promise := by
    cases hold : s.reactor.tasks[t]? with
    | none => simp [s.notice?_eq_none hold] at hstarted
    | some old =>
      obtain ⟨later, hlater, hpromise, _⟩ := (h.later (t := t) (List.mem_of_getElem? hs)).2 old hold
      rw [htask] at hlater
      cases hlater
      exact ⟨old, rfl, hpromise⟩
  rw [hpromise] at hspares ⊢
  have hnew := (s.new_of_started hold hstarted).1
  have hreflects := hbefore.reflects hold fun s' hs' => hspares s' (List.mem_of_mem_take hs')
  simp only [Task.Reflects, hnew] at hreflects
  rw [s.outcome_effect hold hbefore.grounded.tasks hbefore.grounded.distinct (hspares s (List.mem_of_getElem? hs)),
    hstarted]
  exact hreflects.2.2.2

theorem final (h : Course ops past r left) (htask : r.tasks[t]? = some task)
    (hspares : ∀ s ∈ past, s.Spares task.promise) {s : Stroke α} (hs : s ∈ past) {old : Task α}
    (hold : s.reactor.tasks[t]? = some old) (hover : old.status.isOver)
    : task.status = old.status ∧ r.outcome? task.promise = s.reactor.outcome? task.promise := by
  obtain ⟨hextends, hlater⟩ := h.later (t := t) hs
  obtain ⟨later, hget, hpromise, hstatus⟩ := hlater old hold
  rw [htask] at hget
  cases hget
  rw [hpromise] at hspares ⊢
  obtain ⟨k, hk⟩ := List.mem_iff_getElem?.1 hs
  obtain ⟨rest, hbefore⟩ := h.before hk
  have hreflects := hbefore.reflects hold fun s' hs' => hspares s' (List.mem_of_mem_take hs')
  obtain ⟨o, ho⟩ := hreflects.exists_outcome hover
  exact ⟨hstatus hover, by rw [ho, hextends.settled _ o ho]⟩

theorem agrees (h : Course ops past r left) (htask : r.tasks[t]? = some task)
    (hspares : ∀ s ∈ past, s.Spares task.promise)
    : match task.status with
      | .new | .running => r.outcome? task.promise = none
      | .done => (∃ parts, starts t past = [parts]) ∧ r.outcome? task.promise = some (.done none)
      | .failed =>
        ∃ completed fault rest, reports t past = List.replicate completed .done ++ .failed (.failed fault) :: rest ∧
          (∃ part ∈ (starts t past).flatten, r.outcome? part.promise = some (.failed fault)) ∧
          r.outcome? task.promise = some (.failed fault)
      | .aborted => .aborted ∈ reports t past ∧ r.outcome? task.promise = some (.failed .aborted) := by
  have hreflects := h.reflects htask hspares
  unfold Task.Reflects at hreflects
  split
  . next hstatus =>
    simp only [hstatus] at hreflects
    exact hreflects.2.2.2
  . next hstatus =>
    simp only [hstatus] at hreflects
    obtain ⟨_, _, _, _, _, ho⟩ := hreflects
    exact ho
  . next hstatus =>
    simp only [hstatus] at hreflects
    obtain ⟨parts, rest, hstarts, _, ho⟩ := hreflects
    exact ⟨⟨parts, hstarts⟩, ho⟩
  . next hstatus =>
    simp only [hstatus] at hreflects
    obtain ⟨_, completed, fault, rest, _, _, hreports, ho⟩ := hreflects
    refine ⟨completed, fault, rest, hreports, ?_, ho⟩
    have hmem : .failed (.failed fault) ∈ told t past := by
      rw [h.told_eq, hreports]
      exact List.mem_filter.2 ⟨by simp, rfl⟩
    obtain ⟨parts, hparts, part, hpart, o, hsettled, hnotice⟩ := h.exists_of_told (List.mem_append_left _ hmem)
    cases o with
    | done => cases hnotice
    | failed =>
      cases hnotice
      exact ⟨part, List.mem_flatten_of_mem hparts hpart, hsettled⟩
  . next hstatus =>
    simp only [hstatus] at hreflects
    obtain ⟨completed, rest, _, hreports, ho⟩ := hreflects
    exact ⟨by simp [hreports], ho⟩

theorem run_once (h : Course ops past r left) (htask : r.tasks[t]? = some task) {s : Stroke α} (hs : s ∈ past)
    {ref : Ref} {parameters : Fields} {old : Task α} (hwork : s.work = .op (.runTask ref parameters))
    (hfind : s.reactor.findTask? ref = some (t, old))
    : if old.status = .new then
        s.notice? t = some (.started old.parts) ∧
          s.effect.work
            =
          (old.parts.mapIdx fun i part => .start t i part parameters)
            ++ [.answerOutcome (.runTask ref parameters) task.promise]
      else
        s.effect
          =
        { work := [.answer (.runTask ref parameters) (.alreadyStarted old.status)], reactor := s.reactor } := by
  have hold := s.reactor.findTask?_eq_some hfind
  obtain ⟨later, hlater, hpromise, _⟩ := (h.later (t := t) hs).2 old hold
  rw [htask] at hlater
  cases hlater
  split
  . next hnew =>
    constructor
    . simp [Stroke.notice?, hwork, hfind, hnew]
    . obtain ⟨_, _, _, hstart⟩ := s.reactor.startTask_eq t old parameters
      simp [Stroke.effect, Reactor.step, Reactor.perform, hwork, hfind, hnew, hstart, hpromise]
  . next hnew => simp [Stroke.effect, Reactor.step, Reactor.perform, hwork, hfind, hnew]

/--
Whatever happens, and in whatever order, at every point of a run: as long as it is left to a task to settle its promise,
the status of the task and the outcome of its promise agree, and are final once there is an outcome. A task that failed
did so by the fault of one of its parts, the first that was reported to it. It is started once at most, with all of its
parts in their order, and told the outcome of each. If there are any, it is done exactly when all of them have been
reported to be done before anything else was reported; if there are none, it ends with the next tick and not before.
-/
theorem task_joins (h : Course ops past r left) (htask : r.tasks[t]? = some task)
    (hspares : ∀ s ∈ past, s.Spares task.promise)
    : (match task.status with
        | .new | .running => r.outcome? task.promise = none
        | .done => (∃ parts, starts t past = [parts]) ∧ r.outcome? task.promise = some (.done none)
        | .failed =>
          ∃ completed fault rest, reports t past = List.replicate completed .done ++ .failed (.failed fault) :: rest ∧
            (∃ part ∈ (starts t past).flatten, r.outcome? part.promise = some (.failed fault)) ∧
            r.outcome? task.promise = some (.failed fault)
        | .aborted => .aborted ∈ reports t past ∧ r.outcome? task.promise = some (.failed .aborted)) ∧
      (∀ s ∈ past, ∀ old, s.reactor.tasks[t]? = some old → old.status.isOver →
        task.status = old.status ∧ r.outcome? task.promise = s.reactor.outcome? task.promise) ∧
      (starts t past).length ≤ 1 ∧
      (∀ s ∈ past, ∀ ref parameters old, s.work = .op (.runTask ref parameters) →
        s.reactor.findTask? ref = some (t, old) →
        if old.status = .new then
          s.notice? t = some (.started old.parts) ∧
            s.effect.work
              =
            (old.parts.mapIdx fun i part => .start t i part parameters)
              ++ [.answerOutcome (.runTask ref parameters) task.promise]
        else
          s.effect
            =
          { work := [.answer (.runTask ref parameters) (.alreadyStarted old.status)], reactor := s.reactor }) ∧
      (∀ parts ∈ starts t past,
        joined t past ++ toJoin t left = parts.map Part.promise ∧
        (told t past ++ underWay t left).Perm
          ((joined t past).filterMap fun q => (r.outcome? q).map Outcome.notice) ∧
        (reports t past).filter Notice.ofPart = told t past ∧
        (parts ≠ [] →
          ((task.status = .done ↔ List.replicate parts.length .done <+: reports t past) ∧
            (task.status = .done → ∀ part ∈ parts, ∃ value, r.outcome? part.promise = some (.done value))))) ∧
      ∀ k s, past[k]? = some s → s.notice? t = some (.started []) →
        s.effect.reactor.outcome? task.promise = none ∧
        ∀ j tick now, k < j → past[j]? = some tick → tick.work = .op (.tick now) →
          (∀ i s, k < i → i < j → past[i]? = some s → s.now? = none) →
          (∃ answer ∈ past, answer.cause = some j ∧ ∃ n, answer.work = .answer (.tick now) (.count n)) →
          task.status.isOver := by
  have hreflects := h.reflects htask hspares
  refine ⟨h.agrees htask hspares, fun s hs old hold hover => h.final htask hspares hs hold hover,
    hreflects.length_starts_le, fun s hs _ _ _ => h.run_once htask hs, ?_, ?_⟩
  . intro parts hparts
    have hstarts : starts t past = [parts] := by
      obtain ⟨only, honly⟩ := List.length_eq_one_iff.1
        (Nat.le_antisymm hreflects.length_starts_le (List.length_pos_of_mem hparts))
      rw [honly] at hparts ⊢
      rw [List.mem_singleton.1 hparts]
    rw [hstarts] at hreflects
    refine ⟨by rw [h.joined_append_toJoin, hstarts, List.flatten_singleton], (h.tally t).told, h.told_eq.symm, ?_⟩
    intro hne
    have hdone := hreflects.done_iff hne
    exact ⟨hdone, fun hstatus => h.parts_done hstarts (hdone.1 hstatus)⟩
  . intro k s hs hstarted
    refine ⟨h.pending_of_started htask hspares hs hstarted, ?_⟩
    rintro j tick now hj htick hnow hfirst ⟨answer, hanswer, hcause, n, hcount⟩
    exact hreflects.isOver_of_finished
      (h.finished_of_answered hs hstarted hj htick hnow hfirst hanswer hcause hcount)

section Sample

/--
Two parts that are settled in the other order, and a third one that settles the moment it is started.
-/
def joinSample : List (Op Unit) := [
  .create "a",
  .create "b",
  .create "c",
  .createTask "t",
  .addPart (.number 0) (.number 0) "first" [],
  .addPart (.number 0) (.number 1) "second" [],
  .addPart (.number 0) (.number 2) "third" [.settle (.number 2) (.done none)],
  .runTask (.number 0) [],
  .settle (.number 1) (.done none),
  .settle (.number 0) (.done none)
]

theorem joined_joinSample
    : ∃ past r, ∃ task : Task Unit, Course joinSample past r [] ∧ r.tasks[0]? = some task ∧
        (∀ s ∈ past, s.Spares task.promise) ∧ List.replicate 3 .done <+: reports 0 past ∧ task.status = .done := by
  have hstart : Course joinSample [] {} _ := .start
  have hend := hstart.proceed 31
  generalize hcourse : VisualNovel.proceed 31 [] {} (joinSample.map fun op => { work := .op op }) = course at hend
  have hleft : course.2.2 = [] := by rw [← hcourse]; rfl
  obtain ⟨task, htask, hpromise⟩ : ∃ task, course.2.1.tasks[0]? = some task ∧ task.promise = 3 := by
    rw [← hcourse]
    exact ⟨_, rfl, rfl⟩
  have hspares : ∀ s ∈ course.1, s.Spares task.promise := by
    have hnone : ∀ s ∈ course.1, s.settles? ≠ some 3 := by
      rw [← hcourse]
      decide
    exact fun s hs => Stroke.spares_of_ne (hpromise ▸ hnone s hs)
  obtain ⟨parts, hstarts, hlength⟩ : ∃ parts, starts 0 course.1 = [parts] ∧ parts.length = 3 := by
    rw [← hcourse]
    exact ⟨_, rfl, rfl⟩
  have hreports : List.replicate 3 .done <+: reports 0 course.1 := by
    rw [← hcourse]
    exact ⟨[], rfl⟩
  obtain ⟨_, _, _, _, hparts, _⟩ := hend.task_joins htask hspares
  obtain ⟨_, _, _, hdone⟩ := hparts parts (by rw [hstarts]; exact List.mem_singleton_self parts)
  have hne : parts ≠ [] := List.ne_nil_of_length_eq_add_one hlength
  exact ⟨course.1, course.2.1, task, hleft ▸ hend, htask, hspares, hreports, (hdone hne).1.2 (hlength ▸ hreports)⟩

/--
The first part fails, and its own listener fails the second one, before the task is told of the first.
-/
def nestedSample : List (Op Unit) := [
  .create "a",
  .create "b",
  .listen .fail (.number 0) "listener" [.settle (.number 1) (.failed (.failed "B"))],
  .createTask "t",
  .addPart (.number 0) (.number 0) "first" [],
  .addPart (.number 0) (.number 1) "second" [],
  .runTask (.number 0) [],
  .settle (.number 0) (.failed (.failed "A"))
]

/--
The fault of a task need not be that of the part that failed first.
-/
theorem late_fault_nestedSample
    : ∃ past r, ∃ task : Task Unit, Course nestedSample past r [] ∧ r.tasks[0]? = some task ∧
        (∀ s ∈ past, s.Spares task.promise) ∧ (starts 0 past).flatten.map Part.promise = [0, 1] ∧
        (∃ s ∈ past, s.effect.reactor.outcome? 0 = some (.failed (.failed "A")) ∧ s.effect.reactor.outcome? 1 = none) ∧
        task.status = .failed ∧ r.outcome? task.promise = some (.failed (.failed "B")) := by
  have hstart : Course nestedSample [] {} _ := .start
  have hend := hstart.proceed 28
  generalize hcourse : VisualNovel.proceed 28 [] {} (nestedSample.map fun op => { work := .op op }) = course at hend
  have hleft : course.2.2 = [] := by rw [← hcourse]; rfl
  obtain ⟨task, htask, hpromise, hstatus, houtcome⟩
      : ∃ task, course.2.1.tasks[0]? = some task ∧ task.promise = 2 ∧ task.status = .failed ∧
          course.2.1.outcome? 2 = some (.failed (.failed "B")) := by
    rw [← hcourse]
    exact ⟨_, rfl, rfl, rfl, rfl⟩
  have hspares : ∀ s ∈ course.1, s.Spares task.promise := by
    have hnone : ∀ s ∈ course.1, s.settles? ≠ some 2 := by
      rw [← hcourse]
      decide
    exact fun s hs => Stroke.spares_of_ne (hpromise ▸ hnone s hs)
  have hparts : (starts 0 course.1).flatten.map Part.promise = [0, 1] := by rw [← hcourse]; rfl
  have hfirst
      : ∃ s ∈ course.1, s.effect.reactor.outcome? 0 = some (.failed (.failed "A")) ∧
          s.effect.reactor.outcome? 1 = none := by
    rw [← hcourse]
    exact ⟨_, List.mem_of_getElem? (i := 18) rfl, rfl, rfl⟩
  exact ⟨course.1, course.2.1, task, hleft ▸ hend, htask, hspares, hparts, hfirst, hstatus, hpromise ▸ houtcome⟩

end Sample

end Course
end VisualNovel
