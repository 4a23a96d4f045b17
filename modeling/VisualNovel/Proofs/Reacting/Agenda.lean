import Mathlib.Data.List.Induction
import VisualNovel.Proofs.Reacting.Course

/-!
This module contains which jobs a tick takes, and in which order. Whatever is put off, and whenever the loop ticks,
a job has its turn once, in the first tick that comes after it was put off and that finds it due.
-/

namespace VisualNovel

variable {α : Type}

/--
A job that has been put off, with the number of the stroke that has done so. A job with a time is that of a timer,
any other one is due with the next tick.
-/
structure Appointment (α : Type) where
  number : Nat
  due : Option Nat
  job : Job α

namespace Appointment

def ready (now : Nat) (a : Appointment α) : Bool :=
  a.due.all (· ≤ now)

/--
The work that is done when the turn of the job comes.
-/
def turn (a : Appointment α) : Work α :=
  .job a.due.isSome a.job

def queued? (a : Appointment α) : Option (Job α) :=
  if a.due.isNone then some a.job else none

/--
The timer of a job with a time.
-/
def timer (a : Appointment α) : Timer α where
  due := a.due.getD 0
  job := a.job

def timer? (a : Appointment α) : Option (Timer α) :=
  if a.due.isSome then some a.timer else none

/--
The order in which timers are due.
-/
def noLater (a b : Appointment α) : Bool :=
  a.timer.due ≤ b.timer.due

theorem noLater_trans (a b c : Appointment α) (hab : a.noLater b) (hbc : b.noLater c) : a.noLater c := by
  simp only [noLater, decide_eq_true_eq] at *
  exact Nat.le_trans hab hbc

theorem noLater_total (a b : Appointment α) : a.noLater b || b.noLater a := by
  simp only [noLater, Bool.or_eq_true, decide_eq_true_eq]
  exact Nat.le_total ..

/--
The order of the jobs of one tick.
-/
def Precedes (a b : Appointment α) : Prop :=
  match a.due, b.due with
  | none, none => a.number < b.number
  | none, some _ => True
  | some _, none => False
  | some due, some due' => due < due' ∨ due = due' ∧ a.number < b.number

end Appointment

namespace Stroke

/--
The job that a stroke with a number puts off.
-/
def putOff? (number : Nat) (s : Stroke α) : Option (Appointment α) :=
  match s.work with
  | .op (.defer label body) => some { number, due := none, job := .ops label body }
  | .op (.schedule due label body) => some { number, due, job := .ops label body }
  | .op (.sleep _ due) => some { number, due, job := .settle s.reactor.promises.length (.done none) }
  | .op (.runTask ref _) =>
    match s.reactor.findTask? ref with
    | some (t, task) =>
      if task.status = .new && task.parts.isEmpty then some { number, due := none, job := .finish t } else none
    | none => none
  | _ => none

/--
The time of a tick.
-/
def now? (s : Stroke α) : Option Nat :=
  match s.work with
  | .op (.tick now) => some now
  | _ => none

def takes (a : Appointment α) (s : Stroke α) : Bool :=
  s.now?.any a.ready

end Stroke

/--
All jobs that have been put off, in this order.
-/
def appointments (past : List (Stroke α)) : List (Appointment α) :=
  past.zipIdx.filterMap fun (s, number) => s.putOff? number

/--
The jobs that no tick has taken so far.
-/
def waiting (past : List (Stroke α)) : List (Appointment α) :=
  (appointments past).filter fun a => (past.drop (a.number + 1)).all fun s => !s.takes a

/--
The tick that takes a job: the first one after the job was put off that finds it due.
-/
structure Takes (past : List (Stroke α)) (k : Nat) (a : Appointment α) : Prop where
  made : a ∈ appointments past
  later : a.number < k
  takes : ∃ s, past[k]? = some s ∧ s.takes a
  first : ∀ j s, a.number < j → j < k → past[j]? = some s → s.takes a = false

/--
A piece of work has been set off by a tick.
-/
def SetOffByTick (past : List (Stroke α)) (piece : Piece α) : Prop :=
  ∃ k s, piece.cause = some k ∧ past[k]? = some s ∧ ∃ now, s.work = .op (.tick now)

theorem SetOffByTick.append {past : List (Stroke α)} {piece : Piece α} (h : SetOffByTick past piece)
    (more : List (Stroke α)) : SetOffByTick (past ++ more) piece := by
  obtain ⟨k, s, hcause, hs, hnow⟩ := h
  refine ⟨k, s, hcause, ?_, hnow⟩
  rw [List.getElem?_append_left (List.getElem?_eq_some_iff.1 hs).1, hs]

/-! ### Work that is no job -/

def Work.isJob : Work α → Bool
  | .job .. => true
  | _ => false

/--
What comes of a piece of work that takes no jobs, but puts off the given ones.
-/
structure Books (r : Reactor α) (made : List (Appointment α)) (e : Effect α) : Prop where
  queue : e.reactor.queue = r.queue ++ made.filterMap Appointment.queued?
  timers : e.reactor.timers = r.timers ++ made.filterMap Appointment.timer?
  work : ∀ w ∈ e.work, w.isJob = false

namespace Books

variable {r : Reactor α} {made : List (Appointment α)} {e : Effect α}

theorem of_eq (hqueue : e.reactor.queue = r.queue) (htimers : e.reactor.timers = r.timers)
    (hwork : ∀ w ∈ e.work, w.isJob = false) : Books r [] e :=
  ⟨by simp [hqueue], by simp [htimers], hwork⟩

theorem idle (r : Reactor α) : Books r [] { reactor := r } :=
  of_eq rfl rfl nofun

theorem append (h : Books r made e) {last : List (Work α)} (hlast : ∀ w ∈ last, w.isJob = false)
    : Books r made { e with work := e.work ++ last } :=
  { h with work := fun w hw => (List.mem_append.1 hw).elim (h.work w) (hlast w) }

theorem trans {e' : Effect α} (h : Books r [] e) (h' : Books e.reactor [] e')
    : Books r [] { work := e.work ++ e'.work, reactor := e'.reactor } where
  queue := by rw [h'.queue, h.queue, List.append_assoc]; rfl
  timers := by rw [h'.timers, h.timers, List.append_assoc]; rfl
  work := fun w hw => (List.mem_append.1 hw).elim (h.work w) (h'.work w)

end Books

theorem isJob_waiting (promise : Promise α) (o : Outcome α) : ∀ w ∈ promise.waiting o, w.isJob = false := by
  intro w hw
  simp only [Promise.waiting, List.mem_append, List.mem_map] at hw
  obtain ⟨_, _, rfl⟩ | ⟨_, _, rfl⟩ | ⟨_, _, rfl⟩ := hw <;> rfl

theorem isJob_forwards (part : Part α) : ∀ w ∈ part.forwards, w.isJob = false := by
  intro w hw
  obtain ⟨_, _, _, rfl⟩ := Part.exists_of_mem_forwards hw
  rfl

theorem isJob_ops (body : List (Op α)) : ∀ w ∈ body.map Work.op, w.isJob = false := by
  intro w hw
  obtain ⟨_, _, rfl⟩ := List.mem_map.1 hw
  rfl

namespace Reactor

variable (r : Reactor α)

theorem books_settle (p : Nat) (o : Outcome α) : Books r [] (r.settle p o) := by
  unfold settle
  split
  . exact .of_eq rfl rfl (isJob_waiting _ o)
  . exact .idle r

theorem books_listen (channel : Channel) (p : Nat) (reaction : Reaction α)
    : Books r [] (r.listen channel p reaction) := by
  unfold listen
  split
  . exact .idle r
  . split
    . exact .of_eq rfl rfl nofun
    . refine .of_eq rfl rfl ?_
      intro w hw
      dsimp only at hw
      split at hw
      . obtain rfl := List.mem_singleton.1 hw
        rfl
      . cases hw

theorem books_endTask (t : Nat) (status : TaskStatus) (o : Outcome α) : Books r [] (r.endTask t status o) := by
  unfold endTask
  split
  . split
    . exact { books_settle (r.setTask t _) _ o with }
    . exact .idle r
  . exact .idle r

theorem books_partDone (t : Nat) : Books r [] (r.partDone t) := by
  unfold partDone
  split
  . dsimp only
    split
    . exact { books_endTask (r.setTask t _) t .done _ with }
    . exact .of_eq rfl rfl nofun
  . exact .idle r

theorem books_abortTask (t : Nat) (task : Task α) : Books r [] (r.abortTask t task) := by
  unfold abortTask
  split
  . exact { books_settle (r.setTask t _) _ _ with }
  . exact .idle r

theorem books_startTask (t : Nat) (task : Task α) (parameters : Fields) (number : Nat)
    : Books r (if task.parts.isEmpty then [{ number, due := none, job := .finish t }] else [])
        (r.startTask t task parameters) := by
  unfold startTask
  dsimp only
  split
  . exact ⟨rfl, (List.append_nil _).symm, nofun⟩
  . refine .of_eq rfl rfl ?_
    intro w hw
    obtain ⟨_, _, rfl⟩ := List.mem_mapIdx.1 hw
    rfl

end Reactor

namespace Stroke

theorem putOff?_of_idles {r : Reactor α} {op : Op α} (h : r.Idles op) (cause : Option Nat) (number : Nat)
    : putOff? number { work := .op op, cause, reactor := r } = none := by
  cases op with
  | defer | schedule | sleep => cases h
  | runTask ref parameters =>
    simp only [putOff?]
    split
    . next t task hfind => simp [h t task hfind]
    . rfl
  | _ => rfl

theorem books_performs {r : Reactor α} (cause : Option Nat) {op : Op α} {e : Effect α} {answer : Work α} (number : Nat)
    (h : now? { work := .op op, cause, reactor := r } = none) (hperforms : r.Performs op e answer)
    : Books r (putOff? number { work := .op op, cause, reactor := r }).toList e := by
  cases hperforms with
  | idles hidles =>
    rw [putOff?_of_idles hidles]
    exact .idle r
  | tick => cases h
  | create | createTask | poll | addPart => exact .of_eq rfl rfl nofun
  | defer => exact ⟨rfl, (List.append_nil _).symm, nofun⟩
  | schedule | sleep => exact ⟨(List.append_nil _).symm, rfl, nofun⟩
  | listen => exact r.books_listen ..
  | settle => exact r.books_settle ..
  | @runTask ref t task hfind hnew parameters =>
    have hstart := r.books_startTask t task parameters number
    simpa [putOff?, hfind, hnew, apply_ite Option.toList] using hstart
  | abortTask => exact r.books_abortTask ..

theorem books_op (r : Reactor α) (cause : Option Nat) (op : Op α) (number : Nat)
    (h : now? { work := .op op, cause, reactor := r } = none)
    : Books r (putOff? number { work := .op op, cause, reactor := r }).toList (r.perform op) := by
  obtain ⟨e, answer, hperforms, heq⟩ := r.exists_performs op
  rw [heq]
  apply (books_performs cause number h hperforms).append
  rw [List.forall_mem_singleton]
  cases hperforms.answers <;> rfl

/--
Only a tick takes jobs.
-/
theorem books_effect (s : Stroke α) (h : s.now? = none) (number : Nat)
    : Books s.reactor (s.putOff? number).toList s.effect := by
  obtain ⟨⟨work, cause⟩, r⟩ := s
  cases work with
  | op op => exact books_op r cause op number h
  | answer | answerOutcome | wake => exact .idle _
  | react reaction o =>
    cases reaction with
    | listener channel label body => exact .of_eq rfl rfl (isJob_ops body)
    | forward p => exact r.books_settle ..
    | partDone t => exact r.books_partDone t
    | partFailed t => exact r.books_endTask ..
  | job timed job =>
    cases job with
    | ops label body => exact .of_eq rfl rfl (isJob_ops body)
    | settle p o => exact r.books_settle p o
    | finish t => exact r.books_endTask ..
  | start t index part parameters =>
    have hbody : Books r [] { work := part.body.map .op, reactor := r } :=
      .of_eq rfl rfl (isJob_ops part.body)
    exact hbody.append (List.forall_mem_append.2 ⟨isJob_forwards part, List.forall_mem_singleton.2 rfl⟩)
  | forward channel p target => exact r.books_listen ..
  | join t p => exact (r.books_listen ..).trans (Reactor.books_listen ..)

theorem number_of_putOff {s : Stroke α} {number : Nat} {a : Appointment α} (h : s.putOff? number = some a)
    : a.number = number := by
  unfold putOff? at h
  split at h
  . cases h; rfl
  . cases h; rfl
  . cases h; rfl
  . split at h
    . split at h
      . cases h; rfl
      . cases h
    . cases h
  . cases h

end Stroke

/-! ### What waits -/

section Waiting

variable {past : List (Stroke α)} {a : Appointment α}

theorem mem_appointments
    : a ∈ appointments past ↔ ∃ s, past[a.number]? = some s ∧ s.putOff? a.number = some a := by
  simp only [appointments, List.mem_filterMap, Prod.exists, List.mem_zipIdx_iff_getElem?]
  constructor
  . rintro ⟨s, number, hs, hput⟩
    obtain rfl := Stroke.number_of_putOff hput
    exact ⟨s, hs, hput⟩
  . rintro ⟨s, hs, hput⟩
    exact ⟨s, a.number, hs, hput⟩

theorem number_lt_of_mem (h : a ∈ appointments past) : a.number < past.length := by
  obtain ⟨s, hs, _⟩ := mem_appointments.1 h
  exact (List.getElem?_eq_some_iff.1 hs).1

theorem appointments_append (past : List (Stroke α)) (s : Stroke α)
    : appointments (past ++ [s]) = appointments past ++ (s.putOff? past.length).toList := by
  simp only [appointments, List.zipIdx_append, List.filterMap_append, List.zipIdx_singleton, Nat.zero_add]
  cases h : s.putOff? past.length <;> simp [h]

/--
The jobs are numbered in the order in which they were put off.
-/
theorem pairwise_appointments (past : List (Stroke α))
    : (appointments past).Pairwise (·.number < ·.number) := by
  induction past using List.reverseRecOn with
  | nil => exact .nil
  | append_singleton past s ih =>
    rw [appointments_append, List.pairwise_append]
    refine ⟨ih, by cases s.putOff? past.length <;> simp, ?_⟩
    intro a ha b hb
    rw [Stroke.number_of_putOff (Option.mem_toList.1 hb)]
    exact number_lt_of_mem ha

theorem mem_waiting
    : a ∈ waiting past
        ↔
      a ∈ appointments past ∧ ∀ j s, a.number < j → past[j]? = some s → s.takes a = false := by
  rw [waiting, List.mem_filter, List.all_eq_true]
  apply and_congr_right
  intro _
  constructor
  . intro h j s hj hs
    have hmem : s ∈ past.drop (a.number + 1) := by
      apply List.mem_of_getElem? (i := j - (a.number + 1))
      rw [List.getElem?_drop, Nat.add_sub_cancel' hj, hs]
    simpa using h s hmem
  . intro h s hs
    obtain ⟨i, hi⟩ := List.mem_iff_getElem?.1 hs
    rw [List.getElem?_drop] at hi
    simp [h _ s (by omega) hi]

theorem waiting_append (past : List (Stroke α)) (s : Stroke α)
    : waiting (past ++ [s]) = (waiting past).filter (!s.takes ·) ++ (s.putOff? past.length).toList := by
  rw [waiting, appointments_append, List.filter_append, waiting, List.filter_filter]
  congr 1
  . apply List.filter_congr
    intro a ha
    rw [List.drop_append_of_le_length (number_lt_of_mem ha), List.all_append]
    simp [Bool.and_comm]
  . apply List.filter_eq_self.2
    intro a ha
    rw [Stroke.number_of_putOff (Option.mem_toList.1 ha)]
    simp

theorem exists_takes (ha : a ∈ appointments past) {k : Nat} {s : Stroke α} (hk : a.number < k)
    (hs : past[k]? = some s) (htakes : s.takes a) : ∃ j, Takes past j a := by
  induction k using Nat.strongRecOn generalizing s with
  | ind k ih =>
    by_cases hfirst : ∃ j s, a.number < j ∧ j < k ∧ past[j]? = some s ∧ s.takes a
    . obtain ⟨j, s, hj, hjk, hs, htakes⟩ := hfirst
      exact ih j hjk hj hs htakes
    . refine ⟨k, ha, hk, ⟨s, hs, htakes⟩, ?_⟩
      intro j s hj hjk hs
      apply Bool.eq_false_iff.2
      intro htakes
      exact hfirst ⟨j, s, hj, hjk, hs, htakes⟩

/--
The jobs that wait are those that no tick has taken.
-/
theorem mem_waiting_iff : a ∈ waiting past ↔ a ∈ appointments past ∧ ∀ k, ¬Takes past k a := by
  rw [mem_waiting]
  apply and_congr_right
  intro ha
  constructor
  . intro h k hk
    obtain ⟨s, hs, htakes⟩ := hk.takes
    simp [h k s hk.later hs] at htakes
  . intro h j s hj hs
    apply Bool.eq_false_iff.2
    intro htakes
    obtain ⟨k, hk⟩ := exists_takes ha hj hs htakes
    exact h k hk

theorem Takes.unique {j k : Nat} (hj : Takes past j a) (hk : Takes past k a) : j = k := by
  have hle {j k : Nat} (hj : Takes past j a) (hk : Takes past k a) : k ≤ j := by
    apply Nat.le_of_not_lt
    intro hlt
    obtain ⟨s, hs, htakes⟩ := hj.takes
    simp [hk.first j s hj.later hlt hs] at htakes
  exact Nat.le_antisymm (hle hk hj) (hle hj hk)

end Waiting

/-! ### What a tick takes -/

/--
Sorting keeps the order in which elements that are as good as equal stand.
-/
theorem pairwise_mergeSort_stable {β : Type} {le : β → β → Bool} (trans : ∀ a b c, le a b → le b c → le a c)
    (total : ∀ a b, le a b || le b a) {R : β → β → Prop} {l : List β} (h : l.Pairwise R)
    : (l.mergeSort le).Pairwise fun a b => le a b ∧ (le b a → R a b) := by
  -- with their positions, the elements are sorted by one more key, which no two of them share
  have hsorted := List.pairwise_mergeSort (List.zipIdxLE_trans trans) (List.zipIdxLE_total total) l.zipIdx
  have hdistinct : (l.zipIdx.mergeSort (List.zipIdxLE le)).Pairwise (·.2 ≠ ·.2) := by
    refine ((List.mergeSort_perm _ _).pairwise_iff fun h => h.symm).2 ?_
    rw [← List.pairwise_map, List.zipIdx_map_snd]
    exact List.nodup_range'
  rw [← List.mergeSort_zipIdx, List.pairwise_map]
  refine (hsorted.and hdistinct).imp_of_mem ?_
  rintro ⟨a, i⟩ ⟨b, j⟩ ha hb ⟨hle, hne⟩
  rw [List.mem_mergeSort, List.mem_zipIdx_iff_getElem?] at ha hb
  simp only [List.zipIdxLE] at ha hb hle hne ⊢
  obtain ⟨hi, rfl⟩ := List.getElem?_eq_some_iff.1 ha
  obtain ⟨hj, rfl⟩ := List.getElem?_eq_some_iff.1 hb
  split at hle
  . next hab =>
    refine ⟨hab, fun hba => ?_⟩
    simp only [hba, ↓reduceIte, decide_eq_true_eq] at hle
    exact List.pairwise_iff_getElem.1 h i j hi hj (Nat.lt_of_le_of_ne hle hne)
  . cases hle

/--
The jobs that a tick takes of those that wait: all that are queued, then those that are due, the earliest first.
-/
def batch (now : Nat) (waiting : List (Appointment α)) : List (Appointment α) :=
  waiting.filter (·.due.isNone)
    ++ (waiting.filter (·.due.any (· ≤ now))).mergeSort Appointment.noLater

section Batch

variable {now : Nat} {waiting : List (Appointment α)} {a : Appointment α}

theorem mem_batch : a ∈ batch now waiting ↔ a ∈ waiting ∧ a.ready now := by
  simp only [batch, List.mem_append, List.mem_filter, List.mem_mergeSort, ← and_or_left, Appointment.ready]
  cases a.due <;> simp

theorem pairwise_batch (h : waiting.Pairwise (·.number < ·.number))
    : (batch now waiting).Pairwise Appointment.Precedes := by
  rw [batch, List.pairwise_append]
  refine ⟨?_, ?_, ?_⟩
  . refine (h.filter _).imp_of_mem ?_
    intro a b ha hb hlt
    have ha := (List.mem_filter.1 ha).2
    have hb := (List.mem_filter.1 hb).2
    rw [Option.isNone_iff_eq_none] at ha hb
    simpa [Appointment.Precedes, ha, hb] using hlt
  . refine (pairwise_mergeSort_stable Appointment.noLater_trans Appointment.noLater_total
      (h.filter (·.due.any (· ≤ now)))).imp_of_mem ?_
    intro a b ha hb ⟨hle, hlt⟩
    obtain ⟨due, ha, _⟩ := (Option.any_eq_true _ _).1 (List.mem_filter.1 (List.mem_mergeSort.1 ha)).2
    obtain ⟨due', hb, _⟩ := (Option.any_eq_true _ _).1 (List.mem_filter.1 (List.mem_mergeSort.1 hb)).2
    simp only [Appointment.noLater, Appointment.timer, ha, hb, Option.getD_some, decide_eq_true_eq] at hle hlt
    simp only [Appointment.Precedes, ha, hb]
    omega
  . intro a ha b hb
    have ha := (List.mem_filter.1 ha).2
    obtain ⟨due, hb, _⟩ := (Option.any_eq_true _ _).1 (List.mem_filter.1 (List.mem_mergeSort.1 hb)).2
    rw [Option.isNone_iff_eq_none] at ha
    simp [Appointment.Precedes, ha, hb]

theorem work_takeJobs {r : Reactor α} (hqueue : r.queue = waiting.filterMap Appointment.queued?)
    (htimers : r.timers = waiting.filterMap Appointment.timer?) (now : Nat)
    : (r.takeJobs now).work = (batch now waiting).map Appointment.turn := by
  have hqueued
      : r.queue.map (.job false) = (waiting.filter (·.due.isNone)).map Appointment.turn := by
    rw [hqueue, List.map_filterMap, ← List.filterMap_eq_map, List.filterMap_filter]
    congr
    funext a
    cases hdue : a.due <;> simp [Appointment.queued?, Appointment.turn, hdue]
  have hdue
      : r.timers.filter (·.due ≤ now) = (waiting.filter (·.due.any (· ≤ now))).map Appointment.timer := by
    rw [htimers, List.filter_filterMap, ← List.filterMap_eq_map, List.filterMap_filter]
    congr
    funext a
    cases hdue : a.due <;> simp [Appointment.timer?, Appointment.timer, Option.filter, hdue]
  have hsorted
      : ((waiting.filter (·.due.any (· ≤ now))).mergeSort Appointment.noLater).map Appointment.timer
          =
        ((waiting.filter (·.due.any (· ≤ now))).map Appointment.timer).mergeSort fun a b => a.due ≤ b.due :=
    List.map_mergeSort fun _ _ _ _ => rfl
  unfold Reactor.takeJobs batch
  dsimp only
  rw [List.map_append, hqueued, hdue, ← hsorted, List.map_map]
  congr 1
  apply List.map_congr_left
  intro a ha
  have ha := (List.mem_filter.1 (List.mem_mergeSort.1 ha)).2
  cases hdue : a.due <;> simp_all [Appointment.turn, Appointment.timer]

theorem agenda_takeJobs {r : Reactor α} (htimers : r.timers = waiting.filterMap Appointment.timer?) (now : Nat)
    : (r.takeJobs now).reactor.queue = (waiting.filter (!·.ready now)).filterMap Appointment.queued? ∧
      (r.takeJobs now).reactor.timers = (waiting.filter (!·.ready now)).filterMap Appointment.timer? := by
  unfold Reactor.takeJobs
  dsimp only
  constructor
  . rw [eq_comm, List.filterMap_eq_nil_iff]
    intro a ha
    have ha := (List.mem_filter.1 ha).2
    cases hdue : a.due <;> simp_all [Appointment.ready, Appointment.queued?]
  . rw [htimers, List.filter_filterMap, List.filterMap_filter]
    congr
    funext a
    cases hdue : a.due <;>
      simp [Appointment.ready, Appointment.timer?, Appointment.timer, Option.filter, hdue]

end Batch

theorem Stroke.now?_eq_some {s : Stroke α} {now : Nat} : s.now? = some now ↔ s.work = .op (.tick now) := by
  unfold now?
  split <;> simp_all

namespace Course

variable {ops : List (Op α)} {past : List (Stroke α)} {r : Reactor α} {left : List (Piece α)}

/--
At every point the loop holds the jobs that wait.
-/
theorem agenda (h : Course ops past r left)
    : r.queue = (waiting past).filterMap Appointment.queued? ∧
      r.timers = (waiting past).filterMap Appointment.timer? := by
  induction h with
  | start => exact ⟨rfl, rfl⟩
  | @stroke past r piece left h ih =>
    obtain ⟨hqueue, htimers⟩ := ih
    let s : Stroke α := { piece with reactor := r }
    change s.effect.reactor.queue = _ ∧ s.effect.reactor.timers = _
    cases hnow : s.now? with
    | none =>
      have hbooks := s.books_effect hnow past.length
      have htakes : (waiting past).filter (!s.takes ·) = waiting past := by
        simp [Stroke.takes, hnow]
      rw [waiting_append, htakes, List.filterMap_append, List.filterMap_append, ← hqueue, ← htimers]
      exact ⟨hbooks.queue, hbooks.timers⟩
    | some now =>
      have hwork : piece.work = .op (.tick now) := Stroke.now?_eq_some.1 hnow
      have hput : s.putOff? past.length = none := by
        simp [Stroke.putOff?, s, hwork]
      have htakes : (fun a => !s.takes a) = fun a : Appointment α => !a.ready now := by
        simp [Stroke.takes, hnow]
      have hreactor : s.effect.reactor = (r.takeJobs now).reactor := by
        simp [Stroke.effect, s, hwork, Reactor.step, Reactor.perform]
      rw [waiting_append, hput, htakes, hreactor, Option.toList_none, List.append_nil]
      exact agenda_takeJobs htimers now

/--
Only a tick sets off jobs.
-/
theorem setOffByTick (h : Course ops past r left)
    : (∀ s ∈ past, s.work.isJob → SetOffByTick past s.toPiece) ∧
      ∀ piece ∈ left, piece.work.isJob → SetOffByTick past piece := by
  induction h with
  | start => simp [Work.isJob]
  | @stroke past r piece left h ih =>
    obtain ⟨hpast, hleft⟩ := ih
    rw [List.forall_mem_cons] at hleft
    constructor
    . intro s hs hjob
      rw [List.mem_append, List.mem_singleton] at hs
      obtain hs | rfl := hs
      . exact (hpast s hs hjob).append _
      . exact (hleft.1 hjob).append _
    . intro other hother hjob
      rw [List.mem_append, List.mem_map] at hother
      obtain ⟨w, hw, rfl⟩ | hother := hother
      -- the new stroke has set off a job, which nothing but a tick does
      . let s : Stroke α := { piece with reactor := r }
        refine ⟨past.length, s, rfl, List.getElem?_concat_length, ?_⟩
        cases hnow : s.now? with
        | none => simp [(s.books_effect hnow past.length).work w hw] at hjob
        | some now => exact ⟨now, Stroke.now?_eq_some.1 hnow⟩
      . exact (hleft.2 other hother hjob).append _

theorem mem_batch_iff {k : Nat} {s : Stroke α} {now : Nat} (hs : past[k]? = some s)
    (hnow : s.work = .op (.tick now)) {a : Appointment α}
    : a ∈ batch now (waiting (past.take k)) ↔ Takes past k a := by
  have htakes : s.takes a = a.ready now := by
    simp [Stroke.takes, Stroke.now?_eq_some.2 hnow]
  rw [mem_batch, mem_waiting, mem_appointments]
  simp only [List.getElem?_take]
  constructor
  . rintro ⟨⟨⟨maker, hmaker, hput⟩, hfirst⟩, hready⟩
    split at hmaker
    . next hlater =>
      refine ⟨mem_appointments.2 ⟨maker, hmaker, hput⟩, hlater, ⟨s, hs, htakes ▸ hready⟩, ?_⟩
      intro j tick hj hjk htick
      exact hfirst j tick hj (by rw [if_pos hjk, htick])
    . cases hmaker
  . rintro ⟨hmade, hlater, ⟨tick, htick, hready⟩, hfirst⟩
    obtain ⟨maker, hmaker, hput⟩ := mem_appointments.1 hmade
    rw [hs] at htick
    cases htick
    refine ⟨⟨⟨maker, by rw [if_pos hlater, hmaker], hput⟩, ?_⟩, htakes ▸ hready⟩
    intro j other hj hother
    split at hother
    . next hjk => exact hfirst j other hj hjk hother
    . cases hother

/--
What a tick sets off is the jobs it takes, each once, and its answer is their number.
-/
theorem caused_tick (h : Course ops past r left) {k : Nat} {s : Stroke α} {now : Nat} (hs : past[k]? = some s)
    (hnow : s.work = .op (.tick now))
    : (past.filter (·.cause = some k)).map (·.work) ++ (left.filter (·.cause = some k)).map (·.work)
        =
      (batch now (waiting (past.take k))).map Appointment.turn
        ++ [.answer (.tick now) (.count (batch now (waiting (past.take k))).length)] := by
  obtain ⟨rest, hbefore⟩ := h.before hs
  obtain ⟨hqueue, htimers⟩ := hbefore.agenda
  have hwork := work_takeJobs hqueue htimers now
  have hlength := congrArg List.length hwork
  rw [List.length_map] at hlength
  rw [h.caused, hs, Option.map_some, Option.getD_some, Stroke.effect, hnow, ← hwork, ← hlength]
  rfl

/--
Whatever is put off, and whenever the loop ticks, at every point of a run: what a tick sets off is the jobs it takes,
each once, in their order, and its answer is their number. All jobs are set off by ticks, and no job by two of them.
The loop knows the first deadline of the timers that wait, and whether nothing does. What has been set off is done
in the end.
-/
theorem jobs_in_order (h : Course ops past r left)
    : (∀ k s now, past[k]? = some s → s.work = .op (.tick now) →
        ∃ jobs : List (Appointment α), (∀ a, a ∈ jobs ↔ Takes past k a) ∧ jobs.Pairwise Appointment.Precedes ∧
          (past.filter (·.cause = some k)).map (·.work) ++ (left.filter (·.cause = some k)).map (·.work)
            =
          jobs.map Appointment.turn ++ [.answer (.tick now) (.count jobs.length)]) ∧
      (∀ s ∈ past, s.work.isJob → SetOffByTick past s.toPiece) ∧
      (∀ a j k, Takes past j a → Takes past k a → j = k) ∧
      (∃ jobs : List (Appointment α), (∀ a, a ∈ jobs ↔ a ∈ appointments past ∧ ∀ k, ¬Takes past k a) ∧
        r.nextDeadline? = (jobs.filterMap (·.due)).min? ∧ (r.isIdle ↔ jobs = [])) ∧
      ∃ more, Course ops (past ++ more) (({} : Reactor α).exec ops).2 [] := by
  obtain ⟨hqueue, htimers⟩ := h.agenda
  refine ⟨?_, h.setOffByTick.1, fun a j k => Takes.unique, ⟨waiting past, fun a => mem_waiting_iff, ?_, ?_⟩,
    h.exists_end⟩
  . intro k s now hs hnow
    have hpairwise : (batch now (waiting (past.take k))).Pairwise Appointment.Precedes :=
      pairwise_batch ((pairwise_appointments _).filter _)
    exact ⟨_, fun a => mem_batch_iff hs hnow, hpairwise, h.caused_tick hs hnow⟩
  . rw [Reactor.nextDeadline?, htimers, List.map_filterMap]
    congr
    funext a
    cases hdue : a.due <;> simp [Appointment.timer?, Appointment.timer, hdue]
  . rw [Reactor.isIdle, hqueue, htimers, Bool.and_eq_true, List.isEmpty_iff, List.isEmpty_iff,
      List.filterMap_eq_nil_iff, List.filterMap_eq_nil_iff, List.eq_nil_iff_forall_not_mem]
    constructor
    . rintro ⟨hqueued, htimed⟩ a ha
      have hqueued := hqueued a ha
      have htimed := htimed a ha
      cases hdue : a.due <;> simp [Appointment.queued?, Appointment.timer?, hdue] at hqueued htimed
    . intro hnone
      exact ⟨fun a ha => absurd ha (hnone a), fun a ha => absurd ha (hnone a)⟩

section Sample

def putOffSample : List (Op Unit) := [
  .schedule 1 "timer" [],
  .defer "job" [.defer "next" []],
  .tick 1
]

theorem jobs_of_putOffSample
    : ∃ past r, Course putOffSample past r [] ∧ r.isIdle = false ∧
        ∃ jobs : List (Appointment Unit), (∀ a, a ∈ jobs ↔ Takes past 4 a) ∧ jobs.Pairwise Appointment.Precedes ∧
          [.job false (.ops "job" [.defer "next" []]), .job true (.ops "timer" []), .answer (.tick 1) (.count 2)]
            =
          jobs.map Appointment.turn ++ [.answer (.tick 1) (.count jobs.length)] := by
  have hstart : Course putOffSample [] {} _ := .start
  have hbefore := hstart.stroke.stroke.stroke.stroke
  have htick := hbefore.stroke
  simp [Reactor.step, Reactor.perform, Reactor.takeJobs, Reactor.addTimer, Reactor.enqueue] at htick
  have hend := htick.stroke.stroke.stroke.stroke.stroke
  exact ⟨_, _, hend, rfl, hend.jobs_in_order.1 4 _ 1 rfl rfl⟩

end Sample

end Course
end VisualNovel
