import VisualNovel.Proofs.Promises
import VisualNovel.Proofs.Reacting.Notice

/-!
This module contains which parts a task has been started with, and which of them have been joined into it so far:
all of them will be, once each and in their order, with promises that have been made.
-/

namespace VisualNovel

variable {α : Type}

/-! ### What a task has been told -/

def notices (t : Nat) (past : List (Stroke α)) : List (Notice α) :=
  past.filterMap (Stroke.notice? t)

def Notice.isReport : Notice α → Bool
  | .added _ | .started _ => false
  | _ => true

/--
The reports to a task, in their order.
-/
def reports (t : Nat) (past : List (Stroke α)) : List (Notice α) :=
  (notices t past).filter Notice.isReport

/--
The parts with which a task has been started.
-/
def starts (t : Nat) (past : List (Stroke α)) : List (List (Part α)) :=
  (notices t past).filterMap Notice.parts?

def Work.joined? (t : Nat) : Work α → Option Nat
  | .join t' p => if t' = t then some p else none
  | _ => none

/--
The promises of the parts that have been joined into a task.
-/
def joined (t : Nat) (past : List (Stroke α)) : List Nat :=
  past.filterMap (·.work.joined? t)

/--
The promises of the parts that are yet to be joined into a task.
-/
def toJoin (t : Nat) (left : List (Piece α)) : List Nat :=
  left.filterMap (·.work.part? t)

theorem notices_append (t : Nat) (past : List (Stroke α)) (s : Stroke α)
    : notices t (past ++ [s]) = notices t past ++ (s.notice? t).toList :=
  filterMap_concat ..

theorem joined_append (t : Nat) (past : List (Stroke α)) (s : Stroke α)
    : joined t (past ++ [s]) = joined t past ++ (s.work.joined? t).toList :=
  filterMap_concat ..

theorem notices_append_of_none {t : Nat} {s : Stroke α} (h : s.notice? t = none) (past : List (Stroke α))
    : notices t (past ++ [s]) = notices t past := by
  simp [notices_append, h]

@[simp]
theorem Task.promise_note (task : Task α) (notice : Notice α) : (task.note notice).promise = task.promise := by
  cases notice <;> simp only [Task.note]
  split <;> rfl

@[simp]
theorem Task.promise_take (task : Task α) (notice : Notice α) : (task.take notice).promise = task.promise := by
  unfold Task.take
  split <;> simp

theorem Task.mem_parts_take {task : Task α} {notice : Notice α} {part : Part α}
    (h : part ∈ (task.take notice).parts) : part ∈ task.parts ∨ notice = .added part := by
  have hparts : (task.take notice).parts = (task.note notice).parts := by
    unfold Task.take
    split <;> rfl
  rw [hparts] at h
  cases notice with
  | added other =>
    simp only [Task.note, List.mem_append, List.mem_singleton] at h
    obtain h | rfl := h
    . exact .inl h
    . exact .inr rfl
  | started => cases h
  | aborted =>
    simp only [Task.note] at h
    split at h
    . exact .inl h
    . cases h
  | done | failed | finished => exact .inl h

theorem Work.joined?_eq_none {w : Work α} {t : Nat} (h : w.part? t = none) : w.joined? t = none := by
  cases w <;> first | exact h | rfl

/-! ### Numbers of promises -/

/--
Every promise that a reactor or the work that is left refers to for a task has been made, and no two tasks have the
same one.
-/
structure Grounded (r : Reactor α) (left : List (Piece α)) : Prop where
  names : ∀ entry ∈ r.promiseNames, entry.2 < r.promises.length
  tasks : ∀ task ∈ r.tasks, task.promise < r.promises.length
  parts : ∀ task ∈ r.tasks, ∀ part ∈ task.parts, part.promise < r.promises.length
  distinct : (r.tasks.map Task.promise).Nodup
  left : ∀ piece ∈ left, ∀ t q, piece.work.part? t = some q → q < r.promises.length

theorem Reactor.promise?_lt {r : Reactor α} (h : ∀ entry ∈ r.promiseNames, entry.2 < r.promises.length) {ref : Ref}
    {p : Nat} (hp : r.promise? ref = some p) : p < r.promises.length := by
  cases ref with
  | number n =>
    simp only [promise?] at hp
    split at hp
    . next hlt =>
      cases hp
      exact hlt
    . cases hp
  | name name =>
    obtain ⟨before, after, hlookup, _⟩ := List.lookup_eq_some_iff.1 hp
    exact h (name, p) (by simp [hlookup])

namespace Work

theorem part?_of_isAside {w : Work α} (h : w.isAside) (t : Nat) : w.part? t = none := by
  cases w <;> first | rfl | cases h

end Work

theorem Promise.part?_waiting (promise : Promise α) (o : Outcome α) (t : Nat)
    : ∀ w ∈ promise.waiting o, w.part? t = none := by
  intro w hw
  simp only [Promise.waiting, List.mem_append, List.mem_map] at hw
  obtain ⟨_, _, rfl⟩ | ⟨_, _, rfl⟩ | ⟨_, _, rfl⟩ := hw <;> rfl

theorem Reactor.part?_settle (r : Reactor α) (p : Nat) (o : Outcome α) (t : Nat)
    : ∀ w ∈ (r.settle p o).work, w.part? t = none := by
  unfold settle
  split
  . exact Promise.part?_waiting _ o t
  . exact nofun

theorem Reactor.names_listen (r : Reactor α) (channel : Channel) (p : Nat) (reaction : Reaction α)
    : (r.listen channel p reaction).reactor.promiseNames = r.promiseNames := by
  unfold listen
  split
  . rfl
  . split <;> rfl

theorem Reactor.part?_listen (r : Reactor α) (channel : Channel) (p : Nat) (reaction : Reaction α) (t : Nat)
    : ∀ w ∈ (r.listen channel p reaction).work, w.part? t = none := by
  unfold listen
  split
  . exact nofun
  . split
    . exact nofun
    . intro w hw
      dsimp only at hw
      split at hw
      . obtain rfl := List.mem_singleton.1 hw
        rfl
      . cases hw

theorem Effect.Rests.part? {r : Reactor α} {e : Effect α} (h : e.Rests r) (t : Nat)
    : ∀ w ∈ e.work, w.part? t = none :=
  fun w hw => Work.part?_of_isAside (h.work w hw) t

theorem Effect.Settles.part? {r : Reactor α} {p : Nat} {o : Outcome α} {e : Effect α} (h : e.Settles r p o)
    (t : Nat) : ∀ w ∈ e.work, w.part? t = none := by
  obtain ⟨rest, hrest, hwork⟩ := h.work
  intro w hw
  rw [hwork, List.mem_append] at hw
  obtain hw | hw := hw
  . exact r.part?_settle p o t w hw
  . exact Work.part?_of_isAside (hrest w hw) t

/--
The promise of a task and those of its parts are among so many.
-/
def Task.Within (n : Nat) (task : Task α) : Prop :=
  task.promise < n ∧ ∀ part ∈ task.parts, part.promise < n

theorem Task.Within.take {n : Nat} {task : Task α} (h : task.Within n) {notice : Notice α}
    (hadded : ∀ part, notice = .added part → part.promise < n) : (task.take notice).Within n := by
  refine ⟨by rw [task.promise_take]; exact h.1, ?_⟩
  intro part hpart
  obtain hpart | hpart := Task.mem_parts_take hpart
  . exact h.2 part hpart
  . exact hadded part hpart

namespace Grounded

variable {s : Stroke α} {left : List (Piece α)} {cause : Option Nat}

theorem within (h : Grounded s.reactor left) {task : Task α} (htask : task ∈ s.reactor.tasks)
    : task.Within s.effect.reactor.promises.length := by
  have hlength := (s.reactor.step_extends s.work).length_le
  exact ⟨Nat.lt_of_lt_of_le (h.tasks task htask) hlength,
    fun part hpart => Nat.lt_of_lt_of_le (h.parts task htask part hpart) hlength⟩

theorem names_lt (h : Grounded s.reactor left) (hnames : s.effect.reactor.promiseNames = s.reactor.promiseNames)
    : ∀ entry ∈ s.effect.reactor.promiseNames, entry.2 < s.effect.reactor.promises.length := by
  rw [hnames]
  exact fun entry hentry => Nat.lt_of_lt_of_le (h.names entry hentry) (s.reactor.step_extends s.work).length_le

theorem of_effect (h : Grounded s.reactor (s.toPiece :: left))
    (hnames : ∀ entry ∈ s.effect.reactor.promiseNames, entry.2 < s.effect.reactor.promises.length)
    (htasks : ∀ task ∈ s.effect.reactor.tasks, task.Within s.effect.reactor.promises.length)
    (hdistinct : (s.effect.reactor.tasks.map Task.promise).Nodup)
    (hwork : ∀ w ∈ s.effect.work, ∀ t q, w.part? t = some q → q < s.effect.reactor.promises.length)
    : Grounded s.effect.reactor (s.effect.work.map (fun w => { work := w, cause }) ++ left) := by
  refine ⟨hnames, fun task htask => (htasks task htask).1, fun task htask => (htasks task htask).2, hdistinct, ?_⟩
  intro other hother t q hq
  rw [List.mem_append, List.mem_map] at hother
  obtain ⟨w, hw, rfl⟩ | hother := hother
  . exact hwork w hw t q hq
  . have hlength := (s.reactor.step_extends s.work).length_le
    exact Nat.lt_of_lt_of_le (h.left other (List.mem_cons_of_mem _ hother) t q hq) hlength

theorem of_frames (h : Grounded s.reactor (s.toPiece :: left)) (hframes : s.Frames)
    (hnames : s.effect.reactor.promiseNames = s.reactor.promiseNames)
    (hwork : ∀ w ∈ s.effect.work, ∀ t q, w.part? t = some q → q < s.effect.reactor.promises.length)
    : Grounded s.effect.reactor (s.effect.work.map (fun w => { work := w, cause }) ++ left) := by
  refine h.of_effect (h.names_lt hnames) ?_ (hframes.tasks ▸ h.distinct) hwork
  rw [hframes.tasks]
  exact fun _ htask => h.within htask

theorem of_take (h : Grounded s.reactor (s.toPiece :: left)) {t : Nat} {task : Task α} {notice : Notice α}
    (htask : s.reactor.tasks[t]? = some task)
    (htasks : s.effect.reactor.tasks = s.reactor.tasks.set t (task.take notice))
    (hadded : ∀ part, notice = .added part → part.promise < s.effect.reactor.promises.length)
    (hnames : s.effect.reactor.promiseNames = s.reactor.promiseNames)
    (hwork : ∀ w ∈ s.effect.work, ∀ t q, w.part? t = some q → q < s.effect.reactor.promises.length)
    : Grounded s.effect.reactor (s.effect.work.map (fun w => { work := w, cause }) ++ left) := by
  refine h.of_effect (h.names_lt hnames) ?_ ?_ hwork
  . intro other hother
    rw [htasks] at hother
    obtain hother | rfl := List.mem_or_eq_of_mem_set hother
    . exact h.within hother
    . exact (h.within (List.mem_of_getElem? htask)).take hadded
  . have hpromise : (s.reactor.tasks.map Task.promise)[t]? = some task.promise := by simp [htask]
    rw [htasks, List.map_set, task.promise_take, Reactor.set_self hpromise]
    exact h.distinct

/--
A new promise is not that of any task, and a new task may have it.
-/
theorem of_makes (h : Grounded s.reactor (s.toPiece :: left)) {name : String}
    (hpromises : s.effect.reactor.promises = s.reactor.promises ++ [({} : Promise α)])
    (hnames : s.effect.reactor.promiseNames = (name, s.reactor.promises.length) :: s.reactor.promiseNames)
    (htasks : s.effect.reactor.tasks = s.reactor.tasks
      ∨ s.effect.reactor.tasks = s.reactor.tasks ++ [{ promise := s.reactor.promises.length }])
    (hwork : ∀ w ∈ s.effect.work, w.isAside)
    : Grounded s.effect.reactor (s.effect.work.map (fun w => { work := w, cause }) ++ left) := by
  have hlt : s.reactor.promises.length < s.effect.reactor.promises.length := by
    rw [hpromises, List.length_append]
    exact Nat.lt_succ_self _
  apply h.of_effect
  . rw [hnames]
    intro entry hentry
    cases hentry with
    | head => exact hlt
    | tail _ hentry => exact Nat.lt_trans (h.names entry hentry) hlt
  . intro task htask
    obtain htasks | htasks := htasks
    . exact h.within (htasks ▸ htask)
    . rw [htasks, List.mem_append, List.mem_singleton] at htask
      obtain htask | rfl := htask
      . exact h.within htask
      . exact ⟨hlt, nofun⟩
  . obtain htasks | htasks := htasks
    . exact htasks ▸ h.distinct
    . rw [htasks, List.map_append, List.nodup_append]
      refine ⟨h.distinct, by simp, ?_⟩
      intro p hp q hq
      obtain ⟨task, htask, rfl⟩ := List.mem_map.1 hp
      obtain rfl := List.mem_singleton.1 hq
      exact Nat.ne_of_lt (h.tasks task htask)
  . intro w hw t q hq
    rw [Work.part?_of_isAside (hwork w hw) t] at hq
    cases hq

theorem stroke (h : Grounded s.reactor (s.toPiece :: left))
    : Grounded s.effect.reactor (s.effect.work.map (fun w => { work := w, cause }) ++ left) := by
  have hnone (hpart : ∀ t, ∀ w ∈ s.effect.work, w.part? t = none) (w : Work α) (hw : w ∈ s.effect.work) (t q : Nat)
      (hq : w.part? t = some q) : q < s.effect.reactor.promises.length := by
    rw [hpart t w hw] at hq
    cases hq
  cases s.deed with
  | rests hframes _ heffect => exact h.of_frames hframes heffect.names (hnone heffect.part?)
  | makes _ _ _ hpromises hnames htasks hwork => exact h.of_makes hpromises hnames htasks hwork
  | waits hframes _ _ _ _ _ _ _ hnames hwork =>
    exact h.of_frames hframes hnames (hnone fun t w hw => Work.part?_of_isAside (hwork w hw) t)
  | settles hframes _ _ _ _ heffect => exact h.of_frames hframes heffect.names (hnone heffect.part?)
  | joins hframes t q hwork =>
    have heffect : s.effect = s.reactor.step (.join t q) := congrArg s.reactor.step hwork
    apply h.of_frames hframes
    . rw [heffect]
      exact (Reactor.names_listen ..).trans (Reactor.names_listen ..)
    . apply hnone
      intro t' w hw
      rw [heffect] at hw
      obtain hw | hw := List.mem_append.1 hw <;> exact Reactor.part?_listen _ _ _ _ t' w hw
  | starts hframes t i part parameters hwork =>
    have heffect : s.effect = s.reactor.step (.start t i part parameters) := congrArg s.reactor.step hwork
    apply h.of_frames hframes (by rw [heffect]; rfl)
    intro w hw t' q hq
    rw [heffect] at hw
    obtain hw | hw | hw := (List.mem_append.1 hw).imp_right List.mem_append.1
    . obtain ⟨_, _, rfl⟩ := List.mem_map.1 hw
      cases hq
    . rw [Work.part?_of_isAside (part.isAside_forwards w hw) t'] at hq
      cases hq
    . obtain rfl := List.mem_singleton.1 hw
      have hpart : s.work.part? t' = some q := by rw [hwork]; exact hq
      rw [heffect]
      exact h.left s.toPiece (List.mem_cons_self ..) t' q hpart
  | tells _ t task notice _ hnotice htask htasks hends =>
    have hlength := (s.reactor.step_extends s.work).length_le
    apply h.of_take htask htasks
    . rintro part rfl
      have hadded : s.notice? t = some (.added part) := by rw [hnotice, if_pos rfl]
      cases Stroke.notice?_eq_some.1 hadded with
      | added _ _ hpromise => exact Nat.lt_of_lt_of_le (Reactor.promise?_lt h.names hpromise) hlength
    . split at hends <;> exact hends.names
    . apply hnone
      split at hends <;> exact hends.part?
  | runs _ t task op parameters _ htask _ htasks _ hnames hwork =>
    apply h.of_take htask htasks nofun hnames
    intro w hw t' q hq
    rw [hwork, List.mem_append, List.mem_mapIdx, List.mem_singleton] at hw
    obtain ⟨i, hi, rfl⟩ | rfl := hw
    . simp only [Work.part?] at hq
      split at hq
      . cases hq
        exact (h.within (List.mem_of_getElem? htask)).2 _ (List.getElem_mem hi)
      . cases hq
    . cases hq

end Grounded

theorem Course.grounded {ops : List (Op α)} {past : List (Stroke α)} {r : Reactor α} {left : List (Piece α)}
    (h : Course ops past r left) : Grounded r left := by
  induction h with
  | start => exact ⟨nofun, nofun, nofun, .nil, by simp [Work.part?]⟩
  | @stroke past r piece left h ih => exact Grounded.stroke (s := { piece with reactor := r }) ih

/-! ### Parts -/

section Parts

variable {ops : List (Op α)} {past : List (Stroke α)} {r : Reactor α} {left : List (Piece α)} {t : Nat}

theorem starts_append (s : Stroke α)
    : starts t (past ++ [s]) = starts t past ++ ((s.notice? t).bind Notice.parts?).toList := by
  rw [starts, notices_append, List.filterMap_append]
  cases s.notice? t with
  | none => rfl
  | some notice => cases h : notice.parts? <;> simp [starts, h]

theorem Task.status_take_eq_new {task : Task α} {notice : Notice α} (h : (task.take notice).status = .new)
    : task.status = .new := by
  unfold Task.take at h
  split at h
  . next status o hends =>
    cases notice with
    | added | started => cases hends
    | done | failed | finished | aborted =>
      simp only [Task.ends?] at hends
      split at hends
      all_goals
        cases hends
        try cases h
  . cases notice with
    | started => cases h
    | aborted =>
      simp only [Task.note] at h
      split at h <;> exact h
    | added | done | failed | finished => exact h

theorem filterMap_mapIdx {β γ δ : Type} {f : Nat → β → γ} {g : γ → Option δ} {k : β → δ}
    (h : ∀ i b, g (f i b) = some (k b)) (l : List β) : (l.mapIdx f).filterMap g = l.map k := by
  induction l generalizing f with
  | nil => rfl
  | cons b l ih => simp [List.mapIdx_cons, h, ih fun i b => h (i + 1) b]

/--
A task that is new, or that does not exist, has not been started.
-/
theorem Course.starts_eq_nil (h : Course ops past r left)
    (hnew : ∀ task, r.tasks[t]? = some task → task.status = .new) : starts t past = [] := by
  induction h with
  | start => rfl
  | @stroke past r piece left h ih =>
    let s : Stroke α := { piece with reactor := r }
    have hnext (task : Task α) (htask : r.tasks[t]? = some task) := hnew _ (s.task_effect htask)
    have hbefore (task : Task α) (htask : r.tasks[t]? = some task) : task.status = .new := by
      have hstatus := hnext task htask
      cases hnotice : s.notice? t with
      | none => rwa [hnotice] at hstatus
      | some notice =>
        rw [hnotice] at hstatus
        exact Task.status_take_eq_new hstatus
    rw [starts_append, ih hbefore]
    cases hnotice : s.notice? t with
    | none => rfl
    | some notice =>
      obtain ⟨task, htask⟩ := Stroke.exists_task_of_notice hnotice
      have hstatus := hnext task htask
      rw [hnotice] at hstatus
      -- a start would have left the task running
      cases notice with
      | started => cases hstatus
      | added | done | failed | aborted | finished => rfl

/--
What a stroke is and does, as far as the parts of a task go that are yet to be joined.
-/
inductive Stroke.Passes (t : Nat) (s : Stroke α) : Prop
  | aside (hpart : s.work.part? t = none) (hparts : (s.notice? t).bind Notice.parts? = none)
      (hwork : s.effect.work.filterMap (Work.part? t) = [])
  | joins {q : Nat} (hjoin : s.work = .join t q) (hnotice : s.notice? t = none)
      (hwork : s.effect.work.filterMap (Work.part? t) = [])
  | starts {i : Nat} {part : Part α} {parameters : Fields} (hstart : s.work = .start t i part parameters)
      (hnotice : s.notice? t = none) (hwork : s.effect.work.filterMap (Work.part? t) = [part.promise])
  | runs {task : Task α} (hpart : s.work.part? t = none) (hnotice : s.notice? t = some (.started task.parts))
      (htask : s.reactor.tasks[t]? = some task) (hnew : task.status = .new)
      (hwork : s.effect.work.filterMap (Work.part? t) = task.parts.map Part.promise)

theorem Stroke.passes (s : Stroke α) (t : Nat) : s.Passes t := by
  have hrests (h : s.Frames) (hpart : s.work.part? t = none) (hwork : ∀ w ∈ s.effect.work, w.part? t = none)
      : s.Passes t :=
    .aside hpart (by rw [h.notice]; rfl) (List.filterMap_eq_nil_iff.2 hwork)
  cases s.deed with
  | rests h hpart heffect => exact hrests h (hpart t) (heffect.part? t)
  | waits h hpart _ _ _ _ _ _ _ hwork => exact hrests h (hpart t) fun w hw => Work.part?_of_isAside (hwork w hw) t
  | settles h hpart _ _ _ heffect => exact hrests h (hpart t) (heffect.part? t)
  | makes _ hpart hnotice _ _ _ hwork =>
    refine .aside (hpart t) (by rw [hnotice]; rfl) (List.filterMap_eq_nil_iff.2 ?_)
    exact fun w hw => Work.part?_of_isAside (hwork w hw) t
  | tells hpart t' task notice hparts hnotice _ _ hends =>
    refine .aside (hpart t) ?_ (List.filterMap_eq_nil_iff.2 ?_)
    . rw [hnotice]
      split
      . exact hparts
      . rfl
    . split at hends <;> exact hends.part? t
  | joins h t' q hjoin =>
    have hnone : ∀ w ∈ s.effect.work, w.part? t = none := by
      intro w hw
      rw [effect, hjoin] at hw
      obtain hw | hw := List.mem_append.1 hw <;> exact Reactor.part?_listen _ _ _ _ t w hw
    by_cases ht : t' = t
    . subst ht
      exact .joins hjoin (h.notice _) (List.filterMap_eq_nil_iff.2 hnone)
    . exact hrests h (by simp [hjoin, Work.part?, ht]) hnone
  | starts h t' i part parameters hstart =>
    have hwork : s.effect.work.filterMap (Work.part? t) = if t' = t then [part.promise] else [] := by
      have hforwards : part.forwards.filterMap (Work.part? t) = [] :=
        List.filterMap_eq_nil_iff.2 fun w hw => Work.part?_of_isAside (part.isAside_forwards w hw) t
      rw [effect, hstart]
      split <;> simp [Reactor.step, Work.part?, Function.comp_def, *]
    by_cases ht : t' = t
    . subst ht
      exact .starts hstart (h.notice _) (by rw [hwork, if_pos rfl])
    . exact .aside (by simp [hstart, Work.part?, ht]) (by rw [h.notice]; rfl) (by rw [hwork, if_neg ht])
  | runs hpart t' task op parameters hnotice htask hnew _ _ _ hwork =>
    by_cases ht : t' = t
    . subst ht
      have hparts
          : (task.parts.mapIdx fun i part => Work.start t' i part parameters).filterMap (Work.part? t')
              =
            task.parts.map Part.promise :=
        filterMap_mapIdx (fun _ _ => by simp [Work.part?]) _
      refine .runs (hpart _) (by rw [hnotice, if_pos rfl]) htask hnew ?_
      rw [hwork, List.filterMap_append, hparts]
      simp [Work.part?]
    . refine .aside (hpart t) (by rw [hnotice, if_neg ht]; rfl) (List.filterMap_eq_nil_iff.2 ?_)
      intro w hw
      rw [hwork, List.mem_append, List.mem_mapIdx, List.mem_singleton] at hw
      obtain ⟨i, hi, rfl⟩ | rfl := hw
      . simp [Work.part?, ht]
      . rfl

/--
The parts that have been joined and those that are yet to be are the parts with which the task has been started, in
their order.
-/
theorem Course.joined_append_toJoin (h : Course ops past r left)
    : joined t past ++ toJoin t left = (starts t past).flatten.map Part.promise := by
  induction h with
  | start => simp [joined, toJoin, starts, notices, Work.part?]
  | @stroke past r piece left h ih =>
    let s : Stroke α := { piece with reactor := r }
    have hbefore : toJoin t (piece :: left) = (s.work.part? t).toList ++ toJoin t left := filterMap_cons_toList ..
    have hafter
        : toJoin t (s.effect.work.map (fun w => { work := w, cause := some past.length }) ++ left)
            =
          s.effect.work.filterMap (Work.part? t) ++ toJoin t left := by
      rw [toJoin, List.filterMap_append, filterMap_pieces]
      rfl
    change joined t (past ++ [s]) ++ toJoin t (s.effect.work.map _ ++ left) = _
    rw [joined_append, hafter, starts_append]
    rw [hbefore] at ih
    cases s.passes t with
    | aside hpart hparts hwork =>
      rw [hpart] at ih
      rw [Work.joined?_eq_none hpart, hparts, hwork]
      simpa using ih
    | joins hjoin hnotice hwork =>
      rw [hjoin] at ih
      rw [hjoin, hnotice, hwork]
      simpa [Work.part?, Work.joined?] using ih
    | starts hstart hnotice hwork =>
      rw [hstart] at ih
      rw [hstart, hnotice, hwork]
      simpa [Work.part?, Work.joined?] using ih
    | runs hpart hnotice htask hnew hwork =>
      -- the task has not been started before, so these parts are all that there are
      have hnone : starts t past = [] := by
        apply h.starts_eq_nil
        intro other hother
        cases htask.symm.trans hother
        exact hnew
      rw [hpart, hnone] at ih
      obtain ⟨hjoined, htoJoin⟩ : joined t past = [] ∧ toJoin t left = [] := by simpa using ih
      rw [Work.joined?_eq_none hpart, hnotice, hnone, hwork]
      simp [hjoined, htoJoin, Notice.parts?]

end Parts
end VisualNovel
