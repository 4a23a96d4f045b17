import VisualNovel.Proofs.Reacting.Joined

/-!
This module contains that a task is told of its parts what becomes of them. Of every part that has been joined it is
told the outcome once there is one, and nothing else.
-/

namespace VisualNovel

variable {α : Type}

/--
What a task is told of a part with the given outcome.
-/
def Outcome.notice : Outcome α → Notice α
  | .done _ => .done
  | .failed fault => .failed (.failed fault)

def Work.tells? (t : Nat) : Work α → Option (Notice α)
  | .react (.partDone t') _ => if t' = t then some .done else none
  | .react (.partFailed t') o => if t' = t then some (.failed o) else none
  | _ => none

/--
What a task has been told of its parts.
-/
def told (t : Nat) (past : List (Stroke α)) : List (Notice α) :=
  past.filterMap (·.work.tells? t)

/--
What a task is about to be told of its parts.
-/
def underWay (t : Nat) (left : List (Piece α)) : List (Notice α) :=
  left.filterMap (·.work.tells? t)

namespace Reaction

def tellsDone (t : Nat) : Reaction α → Bool
  | .partDone t' => t' = t
  | _ => false

def tellsFailed (t : Nat) : Reaction α → Bool
  | .partFailed t' => t' = t
  | _ => false

end Reaction

/--
A task waits for a promise as that of the given number of its parts.
-/
structure Promise.Awaits (t n : Nat) (promise : Promise α) : Prop where
  done : promise.done.countP (Reaction.tellsDone t) = n
  fail : promise.fail.countP (Reaction.tellsFailed t) = n
  notDone : (promise.fail ++ promise.always).countP (Reaction.tellsDone t) = 0
  notFailed : (promise.done ++ promise.always).countP (Reaction.tellsFailed t) = 0

namespace Reactor

variable {r : Reactor α} {q : Nat}

theorem pending?_eq_some {promise : Promise α}
    : r.pending? q = some promise ↔ r.promises[q]? = some promise ∧ promise.outcome = none := by
  rw [pending?, Option.filter_eq_some_iff, Option.isNone_iff_eq_none]

theorem pending?_setPromise (r : Reactor α) (q : Nat) (promise : Promise α) (p : Nat)
    : (r.setPromise q promise).pending? p
        =
      if q = p ∧ q < r.promises.length then (some promise).filter (·.outcome.isNone) else r.pending? p := by
  unfold pending? setPromise
  rw [List.getElem?_set]
  by_cases hq : q = p
  . subst hq
    by_cases hlt : q < r.promises.length
    . simp [hlt]
    . simp [hlt]
  . simp [hq]

/--
While a promise remains pending nothing becomes of the outcomes.
-/
theorem outcome?_setPromise_of_pending {old new : Promise α} (hpending : r.pending? q = some old)
    (hnew : new.outcome = none) (p : Nat) : (r.setPromise q new).outcome? p = r.outcome? p := by
  rw [outcome?_setPromise]
  split
  . next hq => rw [← hq.1, hnew, outcome?_of_pending hpending]
  . rfl

theorem listen_of_pending {promise : Promise α} (h : r.pending? q = some promise) (channel : Channel)
    (reaction : Reaction α)
    : r.listen channel q reaction = { reactor := r.setPromise q (promise.addListener channel reaction) } := by
  obtain ⟨hq, hnone⟩ := pending?_eq_some.1 h
  simp only [listen, hq, hnone]

theorem listen_of_outcome {o : Outcome α} (h : r.outcome? q = some o) (channel : Channel) (reaction : Reaction α)
    : r.listen channel q reaction
        =
      { work := if channel.hears o then [.react reaction o] else [], reactor := r } := by
  obtain ⟨promise, hq, ho⟩ := Option.bind_eq_some_iff.1 h
  simp only [listen, hq, ho]

/--
A part that is pending makes the task wait for either outcome.
-/
theorem step_join_of_pending {promise : Promise α} (h : r.pending? q = some promise) (t : Nat)
    : r.step (.join t q)
        =
      { reactor := r.setPromise q
          { promise with done := promise.done ++ [.partDone t], fail := promise.fail ++ [.partFailed t] } } := by
  obtain ⟨hq, hnone⟩ := pending?_eq_some.1 h
  have hlt := (List.getElem?_eq_some_iff.1 hq).1
  have hlater
      : (r.setPromise q (promise.addListener .done (.partDone t))).pending? q
          =
        some (promise.addListener .done (.partDone t)) := by
    rw [pending?_setPromise, if_pos ⟨rfl, hlt⟩]
    exact Option.filter_eq_some_iff.2 ⟨rfl, Option.isNone_iff_eq_none.2 hnone⟩
  simp only [step, listen_of_pending h, listen_of_pending hlater]
  simp [setPromise, Promise.addListener]

/--
Of a part that is settled the task is told next.
-/
theorem step_join_of_outcome {o : Outcome α} (h : r.outcome? q = some o) (t : Nat)
    : r.step (.join t q)
        =
      { work :=
          match o with
          | .done value => [.react (.partDone t) (.done value)]
          | .failed fault => [.react (.partFailed t) (.failed fault)]
        reactor := r } := by
  simp only [step, listen_of_outcome h]
  cases o <;> rfl

end Reactor

theorem Work.tells?_of_isAside {w : Work α} (h : w.isAside) (t : Nat) : w.tells? t = none := by
  cases w with
  | react reaction => cases reaction <;> first | rfl | cases h
  | _ => rfl

section Told

variable {t : Nat} {o : Outcome α}

theorem filterMap_eq_replicate {β γ : Type} {f : β → Option γ} {p : β → Bool} {c : γ} {l : List β}
    (h : ∀ b ∈ l, f b = if p b then some c else none) : l.filterMap f = List.replicate (l.countP p) c := by
  induction l with
  | nil => rfl
  | cons b l ih =>
    obtain ⟨hb, hl⟩ := List.forall_mem_cons.1 h
    rw [List.filterMap_cons, hb, List.countP_cons, ih hl]
    cases p b <;> simp [List.replicate_succ]

theorem told_done {reactions : List (Reaction α)} (h : reactions.countP (Reaction.tellsFailed t) = 0)
    : (reactions.map (Work.react · o)).filterMap (Work.tells? t)
        =
      List.replicate (reactions.countP (Reaction.tellsDone t)) .done := by
  rw [List.filterMap_map]
  apply filterMap_eq_replicate
  intro reaction hreaction
  have hnot := List.countP_eq_zero.1 h reaction hreaction
  cases reaction <;> simp_all [Work.tells?, Reaction.tellsDone, Reaction.tellsFailed]

theorem told_failed {reactions : List (Reaction α)} (h : reactions.countP (Reaction.tellsDone t) = 0)
    : (reactions.map (Work.react · o)).filterMap (Work.tells? t)
        =
      List.replicate (reactions.countP (Reaction.tellsFailed t)) (.failed o) := by
  rw [List.filterMap_map]
  apply filterMap_eq_replicate
  intro reaction hreaction
  have hnot := List.countP_eq_zero.1 h reaction hreaction
  cases reaction <;> simp_all [Work.tells?, Reaction.tellsDone, Reaction.tellsFailed]

theorem told_wakers (wakers : List String)
    : (wakers.map (Work.wake : String → Work α)).filterMap (Work.tells? t) = [] := by
  simp [Function.comp_def, Work.tells?]

/--
When a promise is settled, the task is told of all parts for which it awaits the promise.
-/
theorem told_waiting {promise : Promise α} {n : Nat} (h : promise.Awaits t n) (o : Outcome α)
    : (promise.waiting o).filterMap (Work.tells? t) = List.replicate n o.notice := by
  obtain ⟨hdone, hfail, hnotDone, hnotFailed⟩ := h
  rw [List.countP_append] at hnotDone hnotFailed
  unfold Promise.waiting
  cases o with
  | done value =>
    dsimp only
    rw [List.filterMap_append, List.filterMap_append, told_done (by omega), told_done (by omega), told_wakers, hdone]
    have halways : promise.always.countP (Reaction.tellsDone t) = 0 := by omega
    simp [halways, Outcome.notice]
  | failed fault =>
    dsimp only
    rw [List.filterMap_append, List.filterMap_append, told_failed (by omega), told_failed (by omega), told_wakers,
      hfail]
    have halways : promise.always.countP (Reaction.tellsFailed t) = 0 := by omega
    simp [halways, Outcome.notice]

end Told

/--
Of the parts that have been joined into a task, it awaits those whose promises are pending, and it has been told the
outcomes of the others.
-/
structure Tally (t : Nat) (r : Reactor α) (joined : List Nat) (told : List (Notice α)) : Prop where
  made : ∀ q ∈ joined, q < r.promises.length
  awaits : ∀ q promise, r.pending? q = some promise → promise.Awaits t (joined.count q)
  told : told.Perm (joined.filterMap fun q => (r.outcome? q).map Outcome.notice)

namespace Tally

variable {t : Nat} {r r' : Reactor α} {joined : List Nat} {told : List (Notice α)}

theorem of_promises_eq (h : Tally t r joined told) (hpromises : r'.promises = r.promises)
    : Tally t r' joined told := by
  obtain ⟨hmade, hawaits, htold⟩ := h
  unfold Reactor.pending? at hawaits
  unfold Reactor.outcome? at htold
  rw [← hpromises] at hmade hawaits htold
  exact ⟨hmade, hawaits, htold⟩

theorem of_perm (h : Tally t r joined told) {told' : List (Notice α)} (hperm : told'.Perm told)
    : Tally t r joined told' :=
  { h with told := hperm.trans h.told }

theorem create (h : Tally t r joined told) (hpromises : r'.promises = r.promises ++ [({} : Promise α)])
    : Tally t r' joined told := by
  have houtcome (q : Nat) : r'.outcome? q = r.outcome? q := by
    rw [← r.outcome?_create, Reactor.outcome?, Reactor.outcome?, hpromises]
    rfl
  constructor
  . intro q hq
    rw [hpromises, List.length_append]
    exact Nat.lt_add_right _ (h.made q hq)
  . intro q promise hpending
    obtain ⟨hq, hnone⟩ := Reactor.pending?_eq_some.1 hpending
    rw [hpromises, List.getElem?_append] at hq
    split at hq
    . exact h.awaits q promise (Reactor.pending?_eq_some.2 ⟨hq, hnone⟩)
    . next hlt =>
      rw [List.getElem?_singleton] at hq
      split at hq
      . cases hq
        have hcount : joined.count q = 0 := List.count_eq_zero_of_not_mem fun hmem => hlt (h.made q hmem)
        rw [hcount]
        exact ⟨rfl, rfl, rfl, rfl⟩
      . cases hq
  . simpa only [houtcome] using h.told

/--
The promise changes, but remains pending and is awaited as before.
-/
theorem setPromise (h : Tally t r joined told) {q : Nat} {old new : Promise α} (hpending : r.pending? q = some old)
    (hnew : new.outcome = none) (hawaits : ∀ n, old.Awaits t n → new.Awaits t n)
    (hpromises : r'.promises = r.promises.set q new) : Tally t r' joined told := by
  have hset : Tally t (r.setPromise q new) joined told := by
    constructor
    . intro p hp
      rw [Reactor.setPromise, List.length_set]
      exact h.made p hp
    . intro p promise hp
      rw [Reactor.pending?_setPromise] at hp
      split at hp
      . next hq =>
        obtain ⟨rfl, _⟩ := hq
        cases (Option.filter_eq_some_iff.1 hp).1
        exact hawaits _ (h.awaits q old hpending)
      . exact h.awaits p promise hp
    . simpa only [Reactor.outcome?_setPromise_of_pending hpending hnew] using h.told
  exact hset.of_promises_eq hpromises

theorem awaits_waits {n : Nat} {old new : Promise α} (hwaits : old.Waits new) (h : old.Awaits t n)
    : new.Awaits t n := by
  obtain ⟨hdone, hfail, hnotDone, hnotFailed⟩ := h
  cases hwaits with
  | listener channel reaction haside =>
    cases reaction with
    | listener | forward =>
      cases channel <;>
        constructor <;>
        simp_all [Promise.addListener, Reaction.tellsDone, Reaction.tellsFailed]
    | partDone | partFailed => cases haside
  | waker waker => exact ⟨hdone, hfail, hnotDone, hnotFailed⟩

theorem filterMap_perm_of_settled {β : Type} {f f' : Nat → Option β} {q : Nat} {b : β} (hf : f q = none)
    (hf' : f' q = some b) (hne : ∀ p, p ≠ q → f' p = f p) (l : List Nat)
    : (l.filterMap f').Perm (l.filterMap f ++ List.replicate (l.count q) b) := by
  induction l with
  | nil => exact .rfl
  | cons p l ih =>
    by_cases hp : p = q
    . subst hp
      rw [List.filterMap_cons, List.filterMap_cons, hf, hf', List.count_cons_self, List.replicate_succ]
      exact (ih.cons b).trans List.perm_middle.symm
    . rw [List.filterMap_cons, List.filterMap_cons, hne p hp, List.count_cons_of_ne hp]
      cases f p with
      | none => exact ih
      | some c => exact ih.cons c

theorem settle (h : Tally t r joined told) (q : Nat) (o : Outcome α)
    : Tally t (r.settle q o).reactor joined (told ++ (r.settle q o).work.filterMap (Work.tells? t)) := by
  unfold Reactor.settle
  split
  . next promise hpending =>
    have hlt := (List.getElem?_eq_some_iff.1 (Reactor.pending?_eq_some.1 hpending).1).1
    constructor
    . intro p hp
      rw [Reactor.setPromise, List.length_set]
      exact h.made p hp
    . intro p other hp
      rw [Reactor.pending?_setPromise] at hp
      split at hp
      . cases hp
      . exact h.awaits p other hp
    -- each part that has this promise is told now, and its outcome was missing before
    . rw [told_waiting (h.awaits q promise hpending) o]
      have hperm
          : (joined.filterMap fun p => ((r.setPromise q { outcome := some o }).outcome? p).map Outcome.notice).Perm
              ((joined.filterMap fun p => (r.outcome? p).map Outcome.notice)
                ++ List.replicate (joined.count q) o.notice) := by
        apply filterMap_perm_of_settled
        . rw [Reactor.outcome?_of_pending hpending]
          rfl
        . simp [Reactor.outcome?_setPromise, hlt]
        . intro p hp
          simp [Reactor.outcome?_setPromise, Ne.symm hp]
      exact (h.told.append_right _).trans hperm.symm
  . simpa using h

theorem join_pending (h : Tally t r joined told) (t' : Nat) {q : Nat} {promise : Promise α}
    (hpending : r.pending? q = some promise)
    : Tally t
        (r.setPromise q
          { promise with done := promise.done ++ [.partDone t'], fail := promise.fail ++ [.partFailed t'] })
        (joined ++ if t' = t then [q] else []) told := by
  obtain ⟨hq, hnone⟩ := Reactor.pending?_eq_some.1 hpending
  have hlt := (List.getElem?_eq_some_iff.1 hq).1
  constructor
  . intro p hp
    rw [Reactor.setPromise, List.length_set]
    rw [List.mem_append] at hp
    obtain hp | hp := hp
    . exact h.made p hp
    . split at hp
      . obtain rfl := List.mem_singleton.1 hp
        exact hlt
      . cases hp
  . intro p other hp
    rw [Reactor.pending?_setPromise] at hp
    rw [List.count_append]
    split at hp
    . next hqp =>
      obtain ⟨rfl, _⟩ := hqp
      cases (Option.filter_eq_some_iff.1 hp).1
      obtain ⟨hdone, hfail, hnotDone, hnotFailed⟩ := h.awaits q promise hpending
      by_cases ht : t' = t
      . constructor <;> simp_all [Reaction.tellsDone, Reaction.tellsFailed]
      . constructor <;> simp_all [Reaction.tellsDone, Reaction.tellsFailed]
    . next hqp =>
      have hcount : (if t' = t then [q] else []).count p = 0 := by
        have hne : q ≠ p := fun heq => hqp ⟨heq, hlt⟩
        split <;> simp [hne]
      rw [hcount]
      exact h.awaits p other hp
  . have hnew
        : ({ promise with done := promise.done ++ [.partDone t'], fail := promise.fail ++ [.partFailed t'] }
            : Promise α).outcome = none :=
      hnone
    have hmore : (if t' = t then [q] else []).filterMap (fun q => (r.outcome? q).map Outcome.notice) = [] := by
      split <;> simp [Reactor.outcome?_of_pending hpending]
    simp only [Reactor.outcome?_setPromise_of_pending hpending hnew, List.filterMap_append, hmore, List.append_nil]
    exact h.told

theorem join_settled (h : Tally t r joined told) {q : Nat} {o : Outcome α} (ho : r.outcome? q = some o)
    : Tally t r (joined ++ [q]) (told ++ [o.notice]) := by
  have hlt : q < r.promises.length := by
    obtain ⟨promise, hq, _⟩ := Option.bind_eq_some_iff.1 ho
    exact (List.getElem?_eq_some_iff.1 hq).1
  constructor
  . intro p hp
    rw [List.mem_append, List.mem_singleton] at hp
    obtain hp | rfl := hp
    . exact h.made p hp
    . exact hlt
  . intro p promise hp
    have hne : q ≠ p := by
      rintro rfl
      rw [Reactor.outcome?_of_pending hp] at ho
      cases ho
    rw [List.count_append, List.count_singleton, beq_eq_false_iff_ne.2 hne]
    exact h.awaits p promise hp
  . rw [List.filterMap_append]
    simpa [ho] using h.told.append_right [o.notice]

theorem join (h : Tally t r joined told) (t' : Nat) {q : Nat} (hq : q < r.promises.length)
    : Tally t (r.step (.join t' q)).reactor (joined ++ if t' = t then [q] else [])
        (told ++ (r.step (.join t' q)).work.filterMap (Work.tells? t)) := by
  have hget := List.getElem?_eq_getElem hq
  cases ho : r.promises[q].outcome with
  | none =>
    have hpending : r.pending? q = some r.promises[q] := by
      simp [Reactor.pending?, hget, Option.filter, ho]
    rw [Reactor.step_join_of_pending hpending]
    simpa using h.join_pending t' hpending
  | some o =>
    have houtcome : r.outcome? q = some o := by
      rw [Reactor.outcome?, hget, Option.bind_some, ho]
    rw [Reactor.step_join_of_outcome houtcome]
    by_cases ht : t' = t
    . cases o <;> simpa [ht, Work.tells?, Outcome.notice] using h.join_settled houtcome
    . cases o <;> simpa [ht, Work.tells?] using h

theorem step (h : Tally t r joined told) {w : Work α} (hw : ∀ t q, w.part? t = some q → q < r.promises.length)
    : Tally t (r.step w).reactor (joined ++ (w.joined? t).toList)
        (told ++ (r.step w).work.filterMap (Work.tells? t)) := by
  let s : Stroke α := { work := w, reactor := r }
  change Tally t s.effect.reactor _ (told ++ s.effect.work.filterMap _)
  have haside {work : List (Work α)} (hwork : ∀ w ∈ work, w.isAside) : work.filterMap (Work.tells? t) = [] := by
    rw [List.filterMap_eq_nil_iff]
    exact fun w hw => Work.tells?_of_isAside (hwork w hw) t
  have hrests (hpart : w.part? t = none) (hpromises : s.effect.reactor.promises = r.promises)
      (htells : s.effect.work.filterMap (Work.tells? t) = [])
      : Tally t s.effect.reactor (joined ++ (w.joined? t).toList)
          (told ++ s.effect.work.filterMap (Work.tells? t)) := by
    rw [htells, Work.joined?_eq_none hpart]
    simpa using h.of_promises_eq hpromises
  have hsettles {q : Nat} {o : Outcome α} (hpart : w.part? t = none) (heffect : s.effect.Settles r q o)
      : Tally t s.effect.reactor (joined ++ (w.joined? t).toList)
          (told ++ s.effect.work.filterMap (Work.tells? t)) := by
    obtain ⟨rest, hrest, hwork⟩ := heffect.work
    rw [hwork, List.filterMap_append, haside hrest, List.append_nil, Work.joined?_eq_none hpart]
    simpa using (h.settle q o).of_promises_eq heffect.promises
  cases s.deed with
  | rests _ hpart heffect => exact hrests (hpart t) heffect.promises (haside heffect.work)
  | makes name hpart _ hpromises _ _ hwork =>
    rw [haside hwork, Work.joined?_eq_none (hpart t)]
    simpa using h.create hpromises
  | waits _ hpart q old new hpending hwaits hpromises _ hwork =>
    have hnew : new.outcome = none := hwaits.outcome_eq.trans (Reactor.pending?_eq_some.1 hpending).2
    rw [haside hwork, Work.joined?_eq_none (hpart t)]
    simpa using h.setPromise hpending hnew (fun _ => awaits_waits hwaits) hpromises
  | settles _ hpart q o _ heffect => exact hsettles (hpart t) heffect
  | joins _ t' q hwork =>
    obtain rfl : w = .join t' q := hwork
    have hjoined : ((Work.join t' q : Work α).joined? t).toList = if t' = t then [q] else [] := by
      rw [Work.joined?]
      split <;> rfl
    rw [hjoined]
    exact h.join t' (hw t' q (by simp [Work.part?]))
  | starts _ t' i part parameters hwork =>
    obtain rfl : w = .start t' i part parameters := hwork
    have htells : s.effect.work.filterMap (Work.tells? t) = [] := by
      have hforwards := haside part.isAside_forwards
      simp [s, Stroke.effect, Reactor.step, Work.tells?, Function.comp_def, hforwards]
    have hkept : Tally t s.effect.reactor joined told := h.of_promises_eq rfl
    rw [htells]
    simpa [Work.joined?] using hkept
  | tells hpart t' task notice _ _ _ _ hends =>
    split at hends
    . exact hsettles (hpart t) hends
    . exact hrests (hpart t) hends.promises (haside hends.work)
  | runs hpart t' task op parameters _ _ _ _ hpromises _ hwork =>
    apply hrests (hpart t) hpromises
    rw [hwork, List.filterMap_eq_nil_iff]
    intro w hw
    rw [List.mem_append, List.mem_mapIdx, List.mem_singleton] at hw
    obtain ⟨_, _, rfl⟩ | rfl := hw <;> rfl

end Tally

/--
At every point of a run, of the parts that have been joined a task has been told the outcomes of those that are
settled, or is about to be.
-/
theorem Course.tally {ops : List (Op α)} {past : List (Stroke α)} {r : Reactor α} {left : List (Piece α)}
    (h : Course ops past r left) (t : Nat) : Tally t r (joined t past) (told t past ++ underWay t left) := by
  induction h with
  | start =>
    have hnone : underWay t (ops.map fun op => ({ work := .op op } : Piece α)) = [] := by
      simp [underWay, Work.tells?]
    rw [hnone]
    exact ⟨nofun, nofun, .nil⟩
  | @stroke past r piece left h ih =>
    have htold : told t (past ++ [{ piece with reactor := r }]) = told t past ++ (piece.work.tells? t).toList :=
      filterMap_concat ..
    have hnext : underWay t (piece :: left) = (piece.work.tells? t).toList ++ underWay t left :=
      filterMap_cons_toList ..
    have hlater (work : List (Work α))
        : underWay t (work.map (fun w => { work := w, cause := some past.length }) ++ left)
            =
          work.filterMap (Work.tells? t) ++ underWay t left := by
      rw [underWay, List.filterMap_append, filterMap_pieces]
      rfl
    rw [joined_append, htold, hlater]
    rw [hnext, ← List.append_assoc] at ih
    have hstep := ih.step (h.grounded.left piece (List.mem_cons_self ..))
    apply hstep.of_perm
    rw [List.append_assoc _ (underWay t left)]
    exact List.perm_append_comm.append_left _

end VisualNovel
