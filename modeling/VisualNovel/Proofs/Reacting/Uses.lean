import VisualNovel.Proofs.Promises
import VisualNovel.Proofs.Reacting.Course

/-!
This module contains the life of one promise: what shows when it is used in any way, and when the listeners that
are heard use it again, to any depth. It is settled once, and every listener is heard once or never.
-/

namespace VisualNovel

variable {α : Type}

/--
A way to use a promise. When the turn of a listener comes, it goes on to use the promise.
-/
inductive Use (α : Type) where
  | listen (channel : Channel) (label : String) (body : List (Use α))
  | poll (waker : String)
  | inspect
  | settle (outcome : Outcome α)

/--
The channel on which an outcome is heard, besides the one on which any outcome is.
-/
def Outcome.channel : Outcome α → Channel
  | .done _ => .done
  | .failed _ => .fail

namespace Use

mutual

/--
The operation that uses a promise.
-/
def op (promise : Ref) : Use α → Op α
  | .listen channel label body => .listen channel promise label (ops promise body)
  | .poll waker => .poll promise waker
  | .inspect => .inspect promise
  | .settle outcome => .settle promise outcome

def ops (promise : Ref) : List (Use α) → List (Op α)
  | [] => []
  | use :: uses => use.op promise :: ops promise uses

end

mutual

/--
What shows of a use when the promise has an outcome. A listener that waits for it is heard, and what it does is
done, before the answer.
-/
def late (promise : Ref) (o : Outcome α) : Use α → List (Event α)
  | .listen channel label body =>
    (if channel.hears o then .heard label (Heard.ofOutcome channel o) :: allLate promise o body else [])
      ++ [.answered (.listen channel promise label (ops promise body)) .ok]
  | .poll waker => [.answered (.poll promise waker) (.outcome (some o))]
  | .inspect => [.answered (.inspect promise) (.outcome (some o))]
  | .settle outcome => [.answered (.settle promise outcome) (.flag false)]

def allLate (promise : Ref) (o : Outcome α) : List (Use α) → List (Event α)
  | [] => []
  | use :: uses => use.late promise o ++ allLate promise o uses

end

/--
The answer to a use when the promise has no outcome and does not get one by it.
-/
def early : Use α → Answer α
  | .listen .. => .ok
  | _ => .outcome none

def listens (channel : Channel) : Use α → Bool
  | .listen other .. => other = channel
  | _ => false

def waker? : Use α → Option String
  | .poll waker => some waker
  | _ => none

/--
What shows of a listener when its turn comes.
-/
def turn (promise : Ref) (o : Outcome α) : Use α → List (Event α)
  | .listen channel label body => .heard label (Heard.ofOutcome channel o) :: allLate promise o body
  | _ => []

/--
What shows when a promise is settled after some uses: first the listeners that wait for this outcome, in their
order, then those that wait for any, and the wakers last.
-/
def settled (promise : Ref) (waiting : List (Use α)) (o : Outcome α) : List (Event α) :=
  (waiting.filter (listens o.channel)).flatMap (turn promise o)
    ++ ((waiting.filter (listens .always)).flatMap (turn promise o) ++ (waiting.filterMap waker?).map .woken)

/--
What shows of the uses of a promise that has had some uses already, but no outcome.
-/
def history (promise : Ref) (waiting : List (Use α)) : List (Use α) → List (Event α)
  | [] => []
  | .settle o :: later =>
    settled promise waiting o ++ .answered (.settle promise o) (.flag true) :: allLate promise o later
  | use :: later => .answered (use.op promise) use.early :: history promise (waiting ++ [use]) later

def reaction? (promise : Ref) (channel : Channel) : Use α → Option (Reaction α)
  | .listen other label body => if other = channel then some (.listener other label (ops promise body)) else none
  | _ => none

/--
The promise that has had some uses, but no outcome.
-/
def holding (promise : Ref) (waiting : List (Use α)) : Promise α where
  done := waiting.filterMap (reaction? promise .done)
  fail := waiting.filterMap (reaction? promise .fail)
  always := waiting.filterMap (reaction? promise .always)
  wakers := waiting.filterMap waker?

/--
The promise after further uses. All that the first outcome leaves is the outcome.
-/
def leaves (promise : Ref) (waiting : List (Use α)) : List (Use α) → Promise α
  | [] => holding promise waiting
  | .settle o :: _ => { outcome := some o }
  | use :: later => leaves promise (waiting ++ [use]) later

end Use

namespace Reactor

section Running

variable {r r' r'' : Reactor α}

theorem run_append_of_eq {first second : List (Work α)} {events later : List (Event α)}
    (h : r.run first = (events, r')) (h' : r'.run second = (later, r''))
    : r.run (first ++ second) = (events ++ later, r'') := by
  rw [run_append, h, h']

theorem run_answer (r : Reactor α) (op : Op α) (answer : Answer α)
    : r.run [.answer op answer] = ([.answered op answer], r) := by
  simp [run_cons, run_nil, events, step]

theorem run_wakes (r : Reactor α) (wakers : List String)
    : r.run (wakers.map .wake) = (wakers.map .woken, r) := by
  induction wakers with
  | nil => exact r.run_nil
  | cons waker wakers ih => simp [run_cons, events, step, ih]

theorem run_listener {channel : Channel} {label : String} {body : List (Op α)} {o : Outcome α}
    {history : List (Event α)} (h : r.run (body.map .op) = (history, r'))
    : r.run [.react (.listener channel label body) o]
        =
      (.heard label (Heard.ofOutcome channel o) :: history, r') := by
  simp [run_cons, events, step, h]

/--
An operation that comes to some work and an answer.
-/
theorem run_op {op : Op α} {work : List (Work α)} {answer : Answer α} {history : List (Event α)}
    (hop : r.perform op = { work := work ++ [.answer op answer], reactor := r' })
    (h : r'.run work = (history, r'')) : r.run [.op op] = (history ++ [.answered op answer], r'') := by
  rw [run_cons]
  simp only [step, hop, events, List.nil_append, List.append_nil]
  exact run_append_of_eq h (run_answer ..)

theorem run_answered {op : Op α} {answer : Answer α}
    (hop : r.perform op = { work := [.answer op answer], reactor := r' })
    : r.run [.op op] = ([.answered op answer], r') :=
  run_op hop r'.run_nil

end Running

section Late

variable {r : Reactor α} {ref : Ref} {p : Nat} {o : Outcome α}

mutual

theorem run_late (href : r.promise? ref = some p) (hp : r.promises[p]? = some { outcome := some o })
    (use : Use α) : r.run [.op (use.op ref)] = (use.late ref o, r) := by
  cases use with
  | listen channel label body =>
    apply run_op
    . simp only [Use.op, perform, href, listen, hp]
      rfl
    . split
      . exact run_listener (run_allLate href hp body)
      . exact r.run_nil
  | poll waker => exact run_answered (by simp [Use.op, perform, findPromise?, href, hp])
  | inspect => exact run_answered (by simp [Use.op, perform, findPromise?, href, hp])
  | settle outcome => exact run_answered (by simp [Use.op, perform, href, settle, pending?, hp, Option.filter])

theorem run_allLate (href : r.promise? ref = some p) (hp : r.promises[p]? = some { outcome := some o })
    (uses : List (Use α)) : r.run ((Use.ops ref uses).map .op) = (Use.allLate ref o uses, r) := by
  cases uses with
  | nil => exact r.run_nil
  | cons use uses => exact run_append_of_eq (run_late href hp use) (run_allLate href hp uses)

end

theorem run_turns (href : r.promise? ref = some p) (hp : r.promises[p]? = some { outcome := some o })
    (channel : Channel) (waiting : List (Use α))
    : r.run ((waiting.filterMap (Use.reaction? ref channel)).map (.react · o))
        =
      ((waiting.filter (Use.listens channel)).flatMap (Use.turn ref o), r) := by
  induction waiting with
  | nil => exact r.run_nil
  | cons use waiting ih =>
    cases use with
    | listen other label body =>
      by_cases hother : other = channel
      . simp only [Use.reaction?, Use.listens, hother, List.filterMap_cons, List.filter_cons, decide_true, ↓reduceIte]
        exact run_append_of_eq (run_listener (run_allLate href hp body)) ih
      . simpa [Use.reaction?, Use.listens, hother] using ih
    | poll | inspect | settle => exact ih

/--
Everything that waits for an outcome has its turn, and by then the promise has the outcome.
-/
theorem run_waiting (href : r.promise? ref = some p) (hp : r.promises[p]? = some { outcome := some o })
    (waiting : List (Use α))
    : r.run ((Use.holding ref waiting).waiting o) = (Use.settled ref waiting o, r) := by
  have hmatching (channel : Channel) := run_turns href hp channel waiting
  unfold Promise.waiting Use.settled
  cases o with
  | done value =>
    exact run_append_of_eq (hmatching .done) (run_append_of_eq (hmatching .always) (run_wakes ..))
  | failed fault =>
    exact run_append_of_eq (hmatching .fail) (run_append_of_eq (hmatching .always) (run_wakes ..))

end Late

section Early

variable {r : Reactor α} {ref : Ref} {p : Nat}

theorem getElem?_setPromise {old : Promise α} (hp : r.promises[p]? = some old) (promise : Promise α)
    : (r.setPromise p promise).promises[p]? = some promise := by
  obtain ⟨hlt, _⟩ := List.getElem?_eq_some_iff.1 hp
  simp [setPromise, hlt]

theorem promise?_setPromise (promise : Promise α) : (r.setPromise p promise).promise? ref = r.promise? ref := by
  cases ref <;> simp [promise?, setPromise]

theorem setPromise_setPromise (first second : Promise α)
    : (r.setPromise p first).setPromise p second = r.setPromise p second := by
  simp [setPromise]

theorem setPromise_self {promise : Promise α} (hp : r.promises[p]? = some promise)
    : r.setPromise p promise = r := by
  obtain ⟨hlt, rfl⟩ := List.getElem?_eq_some_iff.1 hp
  simp [setPromise]

theorem run_early (href : r.promise? ref = some p) {waiting : List (Use α)}
    (hp : r.promises[p]? = some (Use.holding ref waiting)) {use : Use α} (huse : ∀ o, use ≠ .settle o)
    : r.run [.op (use.op ref)]
        =
      ([.answered (use.op ref) use.early], r.setPromise p (Use.holding ref (waiting ++ [use]))) := by
  cases use with
  | listen channel label body =>
    apply run_answered
    cases channel <;>
      simp [Use.op, Use.early, perform, href, listen, hp, Use.holding, Promise.addListener, Use.reaction?,
        Use.waker?, List.filterMap_cons]
  | poll waker =>
    apply run_answered
    simp [Use.op, Use.early, perform, findPromise?, href, hp, Use.holding, Use.reaction?, Use.waker?,
      List.filterMap_cons]
  | inspect =>
    have hsame : Use.holding ref (waiting ++ [.inspect]) = Use.holding ref waiting := by
      simp [Use.holding, Use.reaction?, Use.waker?, List.filterMap_cons]
    rw [hsame, setPromise_self hp]
    apply run_answered
    simp [Use.op, Use.early, perform, findPromise?, href, hp, Use.holding]
  | settle o => exact absurd rfl (huse o)

theorem run_settle (href : r.promise? ref = some p) {waiting : List (Use α)}
    (hp : r.promises[p]? = some (Use.holding ref waiting)) (o : Outcome α)
    : r.run [.op ((Use.settle o).op ref)]
        =
      (Use.settled ref waiting o ++ [.answered ((Use.settle o).op ref) (.flag true)],
        r.setPromise p { outcome := some o }) := by
  have hpending : r.pending? p = some (Use.holding ref waiting) := by
    simp [pending?, hp, Option.filter, Use.holding]
  refine run_op ?_ (run_waiting (by rw [promise?_setPromise, href]) (getElem?_setPromise hp _) waiting)
  simp [Use.op, perform, href, settle, hpending]

theorem run_uses (href : r.promise? ref = some p) {waiting : List (Use α)}
    (hp : r.promises[p]? = some (Use.holding ref waiting)) (uses : List (Use α))
    : r.run ((Use.ops ref uses).map .op)
        =
      (Use.history ref waiting uses, r.setPromise p (Use.leaves ref waiting uses)) := by
  fun_induction Use.history ref waiting uses generalizing r with
  | case1 waiting => rw [Use.leaves, setPromise_self hp]; exact r.run_nil
  | case2 waiting o later =>
    have hlate := run_allLate (by rw [promise?_setPromise, href]) (getElem?_setPromise hp { outcome := some o })
      later
    have h := run_append_of_eq (run_settle href hp o) hlate
    rw [List.append_assoc] at h
    exact h
  | case3 waiting use later huse ih =>
    have hlater := ih (by rw [promise?_setPromise, href])
      (getElem?_setPromise hp (Use.holding ref (waiting ++ [use])))
    rw [setPromise_setPromise] at hlater
    rw [Use.leaves]
    . exact run_append_of_eq (run_early href hp huse) hlater
    . exact huse

end Early
end Reactor

/-! ### Reading a history -/

namespace Event

def registered? : Event α → Option (Channel × String)
  | .answered (.listen channel _ label _) .ok => some (channel, label)
  | _ => none

def heard? : Event α → Option (String × Heard α)
  | .heard label what => some (label, what)
  | _ => none

/--
The waker that a poll leaves with a promise that is not settled.
-/
def kept? : Event α → Option String
  | .answered (.poll _ waker) (.outcome none) => some waker
  | _ => none

def woken? : Event α → Option String
  | .woken waker => some waker
  | _ => none

/--
Whether it was this attempt that settled the promise.
-/
def settled? : Event α → Option Bool
  | .answered (.settle ..) (.flag b) => some b
  | _ => none

/--
What a listener hears of an outcome, if it waits for it.
-/
def hearing? (o : Outcome α) (listener : Channel × String) : Option (String × Heard α) :=
  if listener.1.hears o then some (listener.2, Heard.ofOutcome listener.1 o) else none

/--
The promise has no outcome: no listener has been heard, no waker woken and no attempt to settle made.
-/
structure Quiet (history : List (Event α)) : Prop where
  heard : history.filterMap heard? = []
  woken : history.filterMap woken? = []
  settled : history.filterMap settled? = []

/--
The promise has an outcome. As often as a listener that waits for this outcome has been registered under a label it
has been heard, with the outcome, and the others never. Each waker that was kept has been woken, and one attempt
to settle the promise was the one that did. The given listeners and wakers had been there before.
-/
structure Settled (o : Outcome α) (listeners : List (Channel × String)) (wakers : List String)
    (history : List (Event α)) : Prop where
  heard : (history.filterMap heard?).Perm ((listeners ++ history.filterMap registered?).filterMap (hearing? o))
  woken : history.filterMap woken? = wakers ++ history.filterMap kept?
  settled : (history.filterMap settled?).count true = 1

/--
The promise has had its outcome before, and the given listeners had been registered by then.
-/
structure Late (o : Outcome α) (listeners : List (Channel × String)) (history : List (Event α)) : Prop where
  heard : (history.filterMap heard?).Perm ((listeners ++ history.filterMap registered?).filterMap (hearing? o))
  woken : history.filterMap woken? = []
  kept : history.filterMap kept? = []
  settled : (history.filterMap settled?).count true = 0

namespace Late

variable {o : Outcome α} {listeners others : List (Channel × String)} {history later : List (Event α)}

theorem nil : Late o [] ([] : List (Event α)) :=
  ⟨.rfl, rfl, rfl, rfl⟩

theorem append (h : Late o listeners history) (h' : Late o others later)
    : Late o (listeners ++ others) (history ++ later) where
  heard := by
    have hheard := h.heard.append h'.heard
    simp only [List.filterMap_append, List.append_assoc] at hheard ⊢
    refine hheard.trans (.append_left _ ?_)
    rw [← List.append_assoc, ← List.append_assoc]
    exact List.perm_append_comm.append_right _
  woken := by rw [List.filterMap_append, h.woken, h'.woken]; rfl
  kept := by rw [List.filterMap_append, h.kept, h'.kept]; rfl
  settled := by rw [List.filterMap_append, List.count_append, h.settled, h'.settled]

theorem heard_cons (h : Late o [] history) (channel : Channel) (hhears : channel.hears o) (label : String)
    : Late o [(channel, label)] (.heard label (Heard.ofOutcome channel o) :: history) where
  heard := by
    simp only [List.filterMap_cons, List.cons_append, List.nil_append, heard?, registered?,
      hearing?, hhears, ↓reduceIte]
    exact h.heard.cons _
  woken := h.woken
  kept := h.kept
  settled := h.settled

theorem of_perm (h : Late o listeners history)
    (hperm : (listeners.filterMap (hearing? o)).Perm (others.filterMap (hearing? o))) : Late o others history :=
  { h with
    heard := by
      have hheard := h.heard
      rw [List.filterMap_append] at hheard ⊢
      exact hheard.trans (hperm.append_right _) }

/--
A listener that is heard when it is registered is heard before this is answered.
-/
theorem registered {channel : Channel} {label : String} (h : Late o [(channel, label)] history) (promise : Ref)
    (body : List (Op α)) : Late o [] (history ++ [.answered (.listen channel promise label body) .ok]) where
  heard := by
    rw [List.nil_append, List.filterMap_append, List.filterMap_append]
    change (history.filterMap heard? ++ []).Perm ((_ ++ [(channel, label)]).filterMap _)
    rw [List.append_nil]
    exact h.heard.trans (List.perm_append_comm.filterMap _)
  woken := by rw [List.filterMap_append, h.woken]; rfl
  kept := by rw [List.filterMap_append, h.kept]; rfl
  settled := by rw [List.filterMap_append, List.count_append, h.settled]; rfl

/--
The listeners are heard and the wakers woken before the attempt that settles the promise is answered.
-/
theorem settle (h : Late o listeners (history ++ later)) (wakers : List String) (promise : Ref)
    : Settled o listeners wakers
        (history ++ wakers.map .woken ++ .answered (.settle promise o) (.flag true) :: later) := by
  obtain ⟨hheard, hwoken, hkept, hsettled⟩ := h
  rw [List.filterMap_append] at hheard hwoken hkept hsettled
  obtain ⟨hwoken, hwoken'⟩ := List.append_eq_nil_iff.1 hwoken
  obtain ⟨hkept, hkept'⟩ := List.append_eq_nil_iff.1 hkept
  rw [List.count_append] at hsettled
  have hnone {β : Type} : wakers.filterMap (fun _ => (none : Option β)) = [] := by simp
  constructor
  . simpa [heard?, registered?, List.filterMap_cons, Function.comp_def, hnone] using hheard
  . simp [woken?, kept?, hwoken, hwoken', hkept, hkept', List.filterMap_cons, Function.comp_def, hnone]
  . simp [settled?, Function.comp_def, hnone]
    omega

end Late
end Event

namespace Use

def listener? : Use α → Option (Channel × String)
  | .listen channel label _ => some (channel, label)
  | _ => none

section Laws

variable (ref : Ref) (o : Outcome α)

mutual

theorem late_late (use : Use α) : Event.Late o [] (use.late ref o) := by
  cases use with
  | listen channel label body =>
    unfold late
    split
    . next hhears => exact ((late_allLate body).heard_cons channel hhears label).registered ref _
    . next hhears => exact ⟨by simp [Event.heard?, Event.registered?, Event.hearing?, hhears], rfl, rfl, rfl⟩
  | poll | inspect | settle => exact ⟨.rfl, rfl, rfl, rfl⟩

theorem late_allLate (uses : List (Use α)) : Event.Late o [] (allLate ref o uses) := by
  cases uses with
  | nil => exact .nil
  | cons use uses => exact (late_late use).append (late_allLate uses)

end

theorem late_turns {o : Outcome α} {channel : Channel} (hhears : channel.hears o) (waiting : List (Use α))
    : Event.Late o ((waiting.filter (listens channel)).filterMap listener?)
        ((waiting.filter (listens channel)).flatMap (turn ref o)) := by
  induction waiting with
  | nil => exact .nil
  | cons use waiting ih =>
    cases use with
    | listen other label body =>
      by_cases hother : other = channel
      . subst hother
        simp only [listens, List.filter_cons, decide_true, ↓reduceIte]
        exact ((late_allLate ref o body).heard_cons other hhears label).append ih
      . simpa [listens, hother] using ih
    | poll | inspect | settle => exact ih

theorem filterMap_listens (channel : Channel) (waiting : List (Use α))
    : (waiting.filter (listens channel)).filterMap listener?
        =
      (waiting.filterMap listener?).filter (·.1 = channel) := by
  rw [List.filterMap_filter, List.filter_filterMap]
  congr
  funext use
  cases use <;> simp [listens, listener?, Option.filter]

/--
The listeners on two channels are all that wait for an outcome.
-/
theorem perm_listeners (listeners : List (Channel × String))
    : ((listeners.filter (·.1 = o.channel) ++ listeners.filter (·.1 = .always)).filterMap (Event.hearing? o)).Perm
        (listeners.filterMap (Event.hearing? o)) := by
  have hothers
      : (listeners.filter (·.1 = .always)).filterMap (Event.hearing? o)
          =
        (listeners.filter fun l => !decide (l.1 = o.channel)).filterMap (Event.hearing? o) := by
    rw [List.filterMap_filter, List.filterMap_filter]
    congr
    funext ⟨channel, label⟩
    cases o <;> cases channel <;> simp [Event.hearing?, Channel.hears, Outcome.channel]
  rw [List.filterMap_append, hothers, ← List.filterMap_append]
  exact (List.filter_append_perm _ listeners).filterMap _

/--
What shows of all that waits for an outcome.
-/
theorem late_listeners (waiting : List (Use α))
    : Event.Late o (waiting.filterMap listener?)
        ((waiting.filter (listens o.channel)).flatMap (turn ref o)
          ++ (waiting.filter (listens .always)).flatMap (turn ref o)) := by
  have hmatching : o.channel.hears o := by cases o <;> rfl
  have halways : Channel.always.hears o := by cases o <;> rfl
  apply ((late_turns ref hmatching waiting).append (late_turns ref halways waiting)).of_perm
  rw [filterMap_listens, filterMap_listens]
  exact perm_listeners o _

theorem quiet_history {waiting uses : List (Use α)} (h : (leaves ref waiting uses).outcome = none)
    : Event.Quiet (history ref waiting uses) := by
  fun_induction history ref waiting uses with
  | case1 waiting => exact ⟨rfl, rfl, rfl⟩
  | case2 waiting first later => cases h
  | case3 waiting use later huse ih =>
    rw [leaves] at h
    . obtain ⟨hheard, hwoken, hsettled⟩ := ih h
      cases use with
      | settle first => exact absurd rfl (huse first)
      | listen | poll | inspect => exact ⟨hheard, hwoken, hsettled⟩
    . exact huse

theorem settled_history {o : Outcome α} {waiting uses : List (Use α)} (h : (leaves ref waiting uses).outcome = some o)
    : Event.Settled o (waiting.filterMap listener?) (waiting.filterMap waker?) (history ref waiting uses) := by
  fun_induction history ref waiting uses with
  | case1 waiting => cases h
  | case2 waiting first later =>
    obtain rfl : first = o := Option.some.inj h
    have hlater := (late_listeners ref first waiting).append (late_allLate ref first later)
    rw [List.append_nil] at hlater
    have hsettled := hlater.settle (waiting.filterMap waker?) ref
    simpa only [settled, List.append_assoc] using hsettled
  | case3 waiting use later huse ih =>
    rw [leaves] at h
    . obtain ⟨hheard, hwoken, hsettled⟩ := ih h
      have hlisteners : (waiting ++ [use]).filterMap listener? = _ := List.filterMap_append
      rw [hlisteners, List.append_assoc] at hheard
      rw [List.filterMap_append, List.append_assoc] at hwoken
      cases use with
      | settle first => exact absurd rfl (huse first)
      | listen | poll | inspect => exact ⟨hheard, hwoken, hsettled⟩
    . exact huse

end Laws
end Use

namespace Reactor

/--
Whatever is done with a new promise, and whatever its listeners go on to do with it: what shows is the history of
the uses, and all that the reactor keeps of them is what the promise holds. It is settled once, for good.
-/
theorem exec_uses {r : Reactor α} {ref : Ref} {p : Nat} (href : r.promise? ref = some p)
    (hnew : r.promises[p]? = some {}) (uses : List (Use α))
    : r.exec (Use.ops ref uses)
          =
        (Use.history ref [] uses, r.setPromise p (Use.leaves ref [] uses)) ∧
      match (Use.leaves ref [] uses).outcome with
      | none => Event.Quiet (Use.history ref [] uses)
      | some o =>
        Event.Settled o [] [] (Use.history ref [] uses) ∧
          ∀ work, ((r.exec (Use.ops ref uses)).2.run work).2.outcome? p = some o := by
  have hexec : r.exec (Use.ops ref uses) = (Use.history ref [] uses, r.setPromise p (Use.leaves ref [] uses)) :=
    run_uses href (show r.promises[p]? = some (Use.holding ref []) from hnew) uses
  refine ⟨hexec, ?_⟩
  rw [hexec]
  split
  . next hnone => exact Use.quiet_history ref hnone
  . next o ho =>
    refine ⟨Use.settled_history ref ho, fun work => ?_⟩
    have hlast : (r.setPromise p (Use.leaves ref [] uses)).outcome? p = some o := by
      rw [outcome?, getElem?_setPromise hnew]
      exact ho
    exact (run_extends _ work).settled p o hlast

section Sample

def nested : List (Use Unit) := [
  .listen .done "first" [.settle (.failed .aborted), .listen .done "nested" [], .listen .fail "deaf" []],
  .listen .always "second" [],
  .listen .fail "never" [],
  .poll "waker",
  .settle (.done none),
  .listen .always "late" []
]

theorem exec_nested
    : let history := (({ promises := [{}] } : Reactor Unit).exec (Use.ops (.number 0) nested)).1
      history.filterMap Event.heard?
          =
        [("first", .done none), ("nested", .done none), ("second", .always), ("late", .always)] ∧
      history.filterMap Event.woken? = ["waker"] ∧
      history.filterMap Event.settled? = [false, true] := by
  have hexec : ({ promises := [{}] } : Reactor Unit).exec (Use.ops (.number 0) nested) = _ :=
    (exec_uses (p := 0) rfl rfl nested).1
  rw [hexec]
  exact ⟨rfl, rfl, rfl⟩

end Sample
end Reactor
end VisualNovel
