import VisualNovel.Proofs.Playing.Entering
import VisualNovel.Proofs.Playing.Parts
import VisualNovel.Proofs.Playing.Suspension
import VisualNovel.Proofs.Reading

/-!
This module contains calls. What is played in a call goes on in the same way whoever has called, and so the
cursor to which it comes back is the one that the call has left.
-/

namespace VisualNovel

variable {H : Type} {α β : Type}

namespace Conducting

/--
A computation that does not see from within which calls the first call has been made.
-/
def Shallow (x : Conducting H α) : Prop :=
  ∀ c others, x.run.run (c.above others) = ((x.run.run c).1, (x.run.run c).2.above others)

theorem Shallow.bind {x : Conducting H α} {f : α → Conducting H β} (h : Shallow x) (hnext : ∀ a, Shallow (f a))
    : Shallow (x >>= f) := by
  intro c others
  rw [run_bind, run_bind, h c others]
  cases x.run.run c with
  | mk result d =>
    cases result with
    | error e => rfl
    | ok a => exact hnext a d others

theorem shallow_get_bind {f : Conductor H → Conducting H α} (hsame : ∀ c others, f (c.above others) = f c)
    (h : ∀ c, Shallow (f c)) : Shallow (get >>= f) := by
  intro c others
  rw [run_get_bind, run_get_bind, hsame]
  exact h c c others

section Shallow

variable (H)

theorem shallow_pure (a : α) : Shallow (pure a : Conducting H α) :=
  fun _ _ => rfl

theorem shallow_throw (e : ConductorError) : Shallow (throw e : Conducting H α) :=
  fun _ _ => rfl

theorem shallow_modify {f : Conductor H → Conductor H} (h : ∀ c others, f (c.above others) = (f c).above others)
    : Shallow (modify f : Conducting H Unit) :=
  fun c others => congrArg (Except.ok (), ·) (h c others)

theorem shallow_onVariables (f : Option Fields → ExceptT CursorError (StateM Variables) α)
    : Shallow (onVariables f : Conducting H α) := by
  intro c others
  rw [run_onVariables, run_onVariables]
  rfl

theorem shallow_onScene (p : Play α) : Shallow (onScene p : Conducting H α) := by
  intro c others
  cases hcursor : c.cursor with
  | none => rw [run_onScene_none p hcursor, run_onScene_none p (c := c.above others) hcursor]
  | some cursor =>
    rw [run_onScene_some p hcursor, run_onScene_some p (c := c.above others) hcursor]
    rfl

theorem shallow_nextTag : Shallow (nextTag : Conducting H (Option Tag)) := by
  intro c others
  cases hprinted : c.printed with
  | cons tag printed =>
    rw [run_nextTag_printed hprinted, run_nextTag_printed (c := c.above others) hprinted]
    rfl
  | nil =>
    cases hcursor : c.cursor with
    | none => rw [run_nextTag_none hprinted hcursor, run_nextTag_none (c := c.above others) hprinted hcursor]
    | some cursor =>
      rw [run_nextTag_some hprinted hcursor, run_nextTag_some (c := c.above others) hprinted hcursor]
      rfl

theorem shallow_enter (cursor : Cursor) (target : Target) (mode : EntryMode)
    : Shallow (enter cursor target mode : Conducting H Unit) := by
  intro c others
  rw [Conductor.run_enter, Conductor.run_enter]
  cases target.find cursor with
  | error e => rfl
  | ok found =>
    cases mode with
    | jump => rfl
    | call => simp [Conductor.entered, Conductor.above]

theorem shallow_awaitScript (file : String) (target : Target) (mode : EntryMode) (game : Option Fields)
    : Shallow (awaitScript file target mode game : Conducting H Unit) := by
  intro c others
  rw [run_awaitScript, run_awaitScript]
  rfl

theorem shallow_jump (tag : Tag) (mode : EntryMode) : Shallow (jump tag mode : Conducting H Unit) := by
  unfold jump
  apply (shallow_onVariables H _).bind
  intro values
  apply shallow_get_bind (fun _ _ => rfl)
  intro c
  dsimp only
  split
  . exact shallow_awaitScript H _ _ _ _
  . exact shallow_enter H _ _ _
  . exact shallow_throw H _

theorem shallow_respond (tag : Tag) (response : Response)
    : Shallow (respond tag response : Conducting H Unit) := by
  cases response with
  | proceed => exact shallow_pure H _
  | pause => exact shallow_modify H fun _ _ => rfl
  | wait promise =>
    intro c others
    rw [run_respond_wait, run_respond_wait]
    have hreactor : (c.above others).reactor = c.reactor := rfl
    rw [hreactor]
    cases c.reactor.outcome? promise with
    | none => rfl
    | some outcome => cases outcome <;> rfl

theorem shallow_prepare (tag : Tag) : Shallow (prepare tag : Conducting H (Cue H)) := by
  unfold prepare
  apply shallow_get_bind (fun _ _ => rfl)
  intro c
  cases c.actions.lookup tag.name with
  | none => exact shallow_throw H _
  | some action =>
    apply (shallow_onVariables H _).bind
    intro values
    split
    . exact shallow_throw H _
    . exact shallow_pure H _

theorem shallow_invoke (cue : Cue H) : Shallow (invoke cue) := by
  intro c others
  rw [run_invoke, run_invoke]
  have hstage : Stage.mk (c.above others).host (c.above others).vars (c.above others).reactor
      = { host := c.host, vars := c.vars, reactor := c.reactor } := rfl
  rw [hstage]
  cases (cue.action.run cue.tag cue.values).run.run { host := c.host, vars := c.vars, reactor := c.reactor } with
  | mk result stage =>
    cases result with
    | error message => rfl
    | ok response =>
      exact shallow_respond H cue.tag response
        { c with host := stage.host, vars := stage.vars, reactor := stage.reactor } others

theorem compositional_shallow : Compositional fun _ (x : Conducting H _) => Shallow x where
  pure := shallow_pure H
  bind h hnext := h.bind hnext
  throw _ := shallow_throw H _
  modify hcallers _ := shallow_modify H hcallers
  onVariables := shallow_onVariables H
  onScene := shallow_onScene H
  jump := shallow_jump H
  runAction tag := by
    rw [runAction_eq_prepare]
    exact (shallow_prepare H tag).bind (shallow_invoke H)

theorem shallow_dispatch {tag : Tag} (h : tag.directive? ≠ some .back)
    : Shallow (dispatch tag : Conducting H Unit) :=
  (compositional_shallow H).dispatch fun hback => absurd hback h

end Shallow
end Conducting

namespace Conductor

variable {c d e : Conductor H}

/-! ### Turns within a call -/

/--
The next tag is a `return`.
-/
def Returns (c : Conductor H) : Prop :=
  ∃ tag d, Conducting.nextTag.run.run c = (.ok (some tag), d) ∧ tag.directive? = some .back

/--
The script of a save has come, and the save mark is in it, so the conductor goes on with the game of the save.
-/
def Restores (c : Conductor H) : Prop :=
  ∃ p file target mode game value, c.pending = some (.load p file target mode (some game)) ∧
    c.reactor.outcome? p = some (.done value) ∧
    ∀ cursor, value = some cursor → ∃ found, target.find cursor = .ok found

theorem play_of_return {tag : Tag} (hnext : Conducting.nextTag.run.run c = (.ok (some tag), d))
    (hback : tag.directive? = some .back)
    : c.play
        =
      match d.callers with
      | [] => (.error (.noCall tag.line), { d with status := .stopped })
      | caller :: callers => (.ok (), { d with cursor := some caller, callers }) := by
  rw [play_of_tag hnext]
  unfold Conducting.dispatch
  simp only [hback]
  unfold Conducting.back
  rw [run_get_bind]
  obtain ⟨host, actions, library, vars, reactor, cursor, callers, printed, status, pending, mark⟩ := d
  cases callers <;> rfl

theorem callers_nextTag {tag : Option Tag} (hnext : Conducting.nextTag.run.run c = (.ok tag, d))
    : d.callers = c.callers := by
  obtain ⟨cursor, vars, printed, rfl⟩ := exists_of_nextTag hnext
  rfl

theorem play_above (h : c.Returns → c.callers ≠ []) (others : List Cursor)
    : (c.above others).play = (c.play.1, c.play.2.above others) := by
  have hnext := Conducting.shallow_nextTag H c others
  by_cases hreturns : c.Returns
  . obtain ⟨tag, d, hd, hback⟩ := hreturns
    obtain ⟨caller, callers, hcallers⟩ := List.exists_cons_of_ne_nil (h ⟨tag, d, hd, hback⟩)
    have hsame := callers_nextTag hd
    rw [hd] at hnext
    have habove : (d.above others).callers = caller :: (callers ++ others) := by
      unfold above
      rw [hsame, hcallers, List.cons_append]
    rw [play_of_return hnext hback, play_of_return hd hback, habove, hsame, hcallers]
    rfl
  . unfold play Conducting.step
    rw [Conducting.run_orStop, Conducting.run_orStop, run_bind, run_bind, hnext]
    cases hd : Conducting.nextTag.run.run c with
    | mk result d =>
      cases result with
      | error e => rfl
      | ok tag =>
        cases tag with
        | none => rfl
        | some tag =>
          have hother : tag.directive? ≠ some .back := fun hback => hreturns ⟨tag, d, hd, hback⟩
          dsimp only
          rw [Conducting.shallow_dispatch H hother d others]
          cases (Conducting.dispatch tag).run.run d with
          | mk result e => cases result <;> rfl

theorem Wakes.above {answer : Except ConductorError Unit × Conductor H} (h : Wakes c answer)
    (hrestores : ¬c.Restores) (others : List Cursor)
    : Wakes (c.above others) (answer.1, answer.2.above others) := by
  cases h with
  | nothing hpending => exact .nothing hpending
  | unsettled hpending hunsettled => exact .unsettled hpending hunsettled
  | done hpending houtcome => exact .done hpending houtcome
  | failed hpending houtcome => exact .failed hpending houtcome
  | notLoaded hpending houtcome => exact .notLoaded hpending houtcome
  | notFound hpending houtcome hfind => exact .notFound hpending houtcome hfind
  | @noCursor p file target mode game hpending houtcome =>
    cases game with
    | some game => exact absurd ⟨p, file, target, mode, game, none, hpending, houtcome, nofun⟩ hrestores
    | none =>
      have habove := Wakes.noCursor (c := c.above others) hpending houtcome
      exact habove
  | @found p file target mode game cursor found hpending houtcome hfind =>
    cases game with
    | some game =>
      have hfound : ∀ other, some cursor = some other → ∃ found, target.find other = .ok found := by
        rintro other ⟨⟩
        exact ⟨found, hfind⟩
      exact absurd ⟨p, file, target, mode, game, some cursor, hpending, houtcome, hfound⟩ hrestores
    | none =>
      have habove := Wakes.found (c := c.above others) hpending houtcome hfind
      cases mode with
      | jump => exact habove
      | call => simpa [withGame, entered, Conductor.above] using habove

/--
A turn after which no less calls are open than at first does not depend on the first ones.
-/
theorem turn_above {t : Turn H} {base : List Cursor} (hbase : base ≠ [])
    (hstart : ∀ file label, t ≠ .startScript file label) (hrestore : t = .wake → ¬c.Restores)
    (hdepth : base.length ≤ ((c.above base).turn t).callers.length) (others : List Cursor)
    : (c.above others).turn t = (c.turn t).above others := by
  cases t with
  | wake =>
    have hstatus : (c.above others).status = c.status := rfl
    rw [turn_wake, turn_wake, hstatus]
    split
    . rw [((wakes_wake c).above (hrestore rfl) others).wake_eq]
    . rfl
  | play =>
    have hstatus (others : List Cursor) : (c.above others).status = c.status := rfl
    rw [turn_play, hstatus] at hdepth
    rw [turn_play, turn_play, hstatus]
    split
    . next hrunning =>
      rw [play_above]
      intro ⟨tag, d, hd, hback⟩ hnone
      -- otherwise the last of the first calls would be over
      obtain ⟨caller, callers, rfl⟩ := List.exists_cons_of_ne_nil hbase
      have hnext := Conducting.shallow_nextTag H c (caller :: callers)
      rw [hd] at hnext
      have hcallers : (d.above (caller :: callers)).callers = caller :: callers := by
        unfold above
        rw [callers_nextTag hd, hnone, List.nil_append]
      rw [if_pos hrunning, play_of_return hnext hback, hcallers, List.length_cons] at hdepth
      exact absurd hdepth (Nat.not_succ_le_self _)
    . rfl
  | startScript file label => exact absurd rfl (hstart file label)
  | resume =>
    change (c.above others).resume = c.resume.above others
    unfold resume
    have hstatus : (c.above others).status = c.status := rfl
    have hcursor : (c.above others).cursor = c.cursor := rfl
    rw [hstatus, hcursor]
    split <;> rfl
  | stop => rfl
  | restore save =>
    have hawait := Conducting.shallow_awaitScript H save.file (.saveMark save.mark) .jump (some save.game) c others
    exact congrArg Prod.snd hawait
  | tick | settle | arrange => rfl

/--
Turns in which no script is started, no game is restored, and no more calls come back than have been made.
-/
inductive Inside (depth : Nat) : Conductor H → List (Turn H) → Prop where
  | nil (c : Conductor H) : Inside depth c []
  | cons {c : Conductor H} {t : Turn H} {ts : List (Turn H)} (hstart : ∀ file label, t ≠ .startScript file label)
    (hrestore : t = .wake → ¬c.Restores) (hdepth : depth ≤ (c.turn t).callers.length)
    (later : Inside depth (c.turn t) ts) : Inside depth c (t :: ts)

theorem Inside.take {depth : Nat} {ts : List (Turn H)} (h : Inside depth c ts) (n : Nat)
    : Inside depth c (ts.take n) := by
  induction h generalizing n with
  | nil =>
    rw [List.take_nil]
    exact Inside.nil _
  | cons hstart hrestore hdepth _ ih =>
    cases n with
    | zero => exact Inside.nil _
    | succ n => exact Inside.cons hstart hrestore hdepth (ih n)

theorem turns_above {base : List Cursor} {ts : List (Turn H)} (hbase : base ≠ [])
    (h : Inside base.length (c.above base) ts) (others : List Cursor)
    : (c.above others).turns ts = (c.turns ts).above others := by
  induction ts generalizing c with
  | nil => rfl
  | cons t ts ih =>
    cases h with
    | cons hstart hrestore hdepth later =>
      have hturn := turn_above (c := c) hbase hstart hrestore hdepth
      rw [hturn base] at later
      rw [turns_cons, turns_cons, hturn others]
      exact ih later

/-! ### Calls -/

/--
A call comes to its target, at once or when its script has been loaded.
-/
inductive Enters (c : Conductor H) : Conductor H → Prop where
  | atOnce {d : Conductor H} (hplay : c.play = (.ok (), d)) (hrunning : d.status = .running) : Enters c d
  | loaded {d e : Conductor H} {p : Nat} {file : String} {target : Target} {mode : EntryMode} {cursor : Cursor}
    {ts : List (Turn H)} (hplay : c.play = (.ok (), d)) (hasleep : d.status = .asleep)
    (hload : d.pending = some (.load p file target mode none)) (hwaits : Waits d ts)
    (hdone : (d.turns ts).reactor.outcome? p = some (.done (some cursor)))
    (hwake : (d.turns ts).wake = (.ok (), e)) : Enters c e

theorem callers_entered {b : Conductor H} {caller : Cursor} (hcaller : b.cursor = some caller) (target : Target)
    (found : Cursor) : (b.entered target .call found).callers = caller :: b.callers := by
  change b.cursor.toList ++ b.callers = _
  rw [hcaller]
  rfl

theorem Enters.callers_eq {b : Conductor H} {tag : Tag} {caller : Cursor} (h : Enters c e)
    (hrunning : c.status = .running) (hnext : Conducting.nextTag.run.run c = (.ok (some tag), b))
    (hcall : tag.directive? = some .call) (hcaller : b.cursor = some caller)
    : e.callers = caller :: c.callers ∧ e.cursor.bind Cursor.parameters = none := by
  have hdirective : tag.directive? = some EntryMode.call.directive := hcall
  obtain ⟨vars, hplayed⟩ := play_of_jump_cases hnext hdirective hcaller
  have hcallers := callers_nextTag hnext
  have hawake : b.status = .running := by
    obtain ⟨_, _, _, rfl⟩ := exists_of_nextTag hnext
    exact hrunning
  cases h with
  | atOnce hplay hstays =>
    obtain ⟨target, found, hfind, heq⟩ | ⟨file, target, heq⟩ | ⟨e, heq⟩ := hplayed
    . cases hplay.symm.trans heq
      refine ⟨?_, Target.parameters_of_find hfind⟩
      rw [callers_entered (b := { b with vars }) hcaller, hcallers]
    . cases hplay.symm.trans heq
      cases hstays
    . cases hplay.symm.trans heq
  | @loaded _ _ _ _ place _ script _ hplay hasleep hload hwaits hdone hwake =>
    have hstays := hwaits.stays hasleep hload
    obtain ⟨target, found, hfind, heq⟩ | ⟨file, target, heq⟩ | ⟨e, heq⟩ := hplayed
    . cases hplay.symm.trans heq
      cases hawake.symm.trans hasleep
    . cases hplay.symm.trans heq
      cases hload
      -- while the script was being loaded, the conductor has stood where the call has left it
      cases hfind : place.find script with
      | error e => cases hwake.symm.trans (Wakes.notFound hstays.pending hdone hfind).wake_eq
      | ok found =>
        cases hwake.symm.trans (Wakes.found hstays.pending hdone hfind).wake_eq
        have hcursor := (congrArg Prod.fst hstays.standing).trans hcaller
        have hsame := congrArg (·.2.1) hstays.standing
        refine ⟨?_, Target.parameters_of_find hfind⟩
        exact (callers_entered hcursor place found).trans (congrArg (caller :: ·) (hsame.trans hcallers))
    . cases hplay.symm.trans heq

/--
What is played inside of a call goes on in the same way, whoever has called.
-/
theorem Inside.turns_eq {ts : List (Turn H)} (hcalled : e.callers ≠ []) (h : Inside e.callers.length e ts)
    : ∃ inner, (e.turns ts).callers = inner ++ e.callers ∧
        ∀ others, { e with callers := others }.turns ts = { e.turns ts with callers := inner ++ others } := by
  let alone : Conductor H := { e with callers := [] }
  have habove (others : List Cursor)
      : { e with callers := others }.turns ts = { alone.turns ts with callers := (alone.turns ts).callers ++ others } :=
    turns_above (c := alone) hcalled h others
  have hsame : e.turns ts = { alone.turns ts with callers := (alone.turns ts).callers ++ e.callers } :=
    habove e.callers
  refine ⟨(alone.turns ts).callers, congrArg Conductor.callers hsame, ?_⟩
  intro others
  rw [hsame]
  exact habove others

/--
A call has come to its target, and then in any turns no more calls have come back than have been made. The
`return` that comes next takes the conductor back to the cursor that the call has left, and to the calls that
were open then. Meanwhile nothing depends on who has called, and at first there are no parameters. A `return`
without a call fails and leaves the script and the calls as they are.
-/
theorem return_restores {b g : Conductor H} {call back : Tag} {caller : Cursor} {ts : List (Turn H)}
    (hrunning : c.status = .running) (hnext : Conducting.nextTag.run.run c = (.ok (some call), b))
    (hcall : call.directive? = some .call) (hcaller : b.cursor = some caller) (henters : Enters c e)
    (hinside : Inside e.callers.length e ts) (hdepth : (e.turns ts).callers.length = e.callers.length)
    (hreturn : Conducting.nextTag.run.run (e.turns ts) = (.ok (some back), g))
    (hback : back.directive? = some .back)
    : (e.turns ts).play = (.ok (), { g with cursor := some caller, callers := c.callers }) ∧
      e.callers = caller :: c.callers ∧ e.cursor.bind Cursor.parameters = none ∧
      (∀ n, ∃ inner, (e.turns (ts.take n)).callers = inner ++ e.callers ∧
        ∀ others, { e with callers := others }.turns (ts.take n) =
          { e.turns (ts.take n) with callers := inner ++ others }) ∧
      ∀ (c d : Conductor H) (tag : Tag), Conducting.nextTag.run.run c = (.ok (some tag), d) →
        tag.directive? = some .back → c.callers = [] →
        c.play = (.error (.noCall tag.line), { d with status := .stopped }) := by
  obtain ⟨hcallers, hparameters⟩ := henters.callers_eq hrunning hnext hcall hcaller
  have hcalled : e.callers ≠ [] := by simp [hcallers]
  refine ⟨?_, hcallers, hparameters, fun n => (hinside.take n).turns_eq hcalled, ?_⟩
  . obtain ⟨inner, hinner, _⟩ := hinside.turns_eq hcalled
    have hnil : inner = [] := by
      rw [hinner, List.length_append] at hdepth
      exact List.eq_nil_of_length_eq_zero (by omega)
    rw [play_of_return hreturn hback, callers_nextTag hreturn, hinner, hnil, hcallers]
    rfl
  . intro c d tag hnext hback hnone
    rw [play_of_return hnext hback, callers_nextTag hnext, hnone]

section Sample

def promptPrinter : Action Nat where
  run _ _ := return .proceed

def callTag : Tag :=
  .make "call" [("label", .string "sub")] 2

def returnTag : Tag :=
  .make "return" [] 7

/--
A script in the middle of a macro that is about to call.
-/
def visited : Cursor where
  file := "a"
  tags := [.label "sub" 6, .ofChar 'x' 6, returnTag]
  macros := [{ name := "visit", tags := [callTag], line := 1, parameters := [("who", .string "Ann")] }]
  maxDepth := 64

def callSample : Conductor Nat :=
  { newcomer promptPrinter [] with cursor := some visited, status := .running }

def called : Conductor Nat :=
  { callSample with
    cursor := some { visited with macros := [], point := 1 }
    callers := [{ visited with
      macros := [{ name := "visit", tags := [callTag], line := 1, parameters := [("who", .string "Ann")], point := 1 }]
      latest := some callTag }] }

theorem returned_callSample
    : let back := called.turns [.play, .stop, .resume]
      callSample.play = (.ok (), called) ∧ called.cursor.bind Cursor.parameters = none ∧
        back.play.2.cursor.bind Cursor.parameters = some [("who", .string "Ann")] ∧
        back.play.2.callers = callSample.callers := by
  intro back
  have hnext : Conducting.nextTag.run.run callSample
      = (.ok (some callTag), { callSample with cursor := called.callers.head? }) := by
    rw [Conducting.run_nextTag_some rfl rfl, Cursor.next_of_tag rfl rfl]
    rfl
  have hplay : callSample.play = (.ok (), called) := by
    rw [play_of_tag hnext]
    rfl
  have hchar : Conducting.nextTag.run.run called
      = (.ok (some (.ofChar 'x' 6)), { called with
          cursor := some { visited with macros := [], point := 2, latest := some (.ofChar 'x' 6) } }) := by
    rw [Conducting.run_nextTag_some rfl rfl, Cursor.next_of_tag rfl rfl]
    rfl
  have hprinted : called.turn .play = { called with
      cursor := some { visited with macros := [], point := 2, latest := some (.ofChar 'x' 6) } } := by
    change called.play.2 = _
    rw [play_of_tag hchar]
    rfl
  have hreturn : Conducting.nextTag.run.run back
      = (.ok (some returnTag), { called with
          cursor := some { visited with macros := [], point := 3, latest := some returnTag } }) := by
    change Conducting.nextTag.run.run ((called.turn .play).turns [.stop, .resume]) = _
    rw [hprinted, Conducting.run_nextTag_some rfl rfl, Cursor.next_of_tag rfl rfl]
    rfl
  have hinside : Inside called.callers.length called [.play, .stop, .resume] := by
    refine .cons nofun nofun (Nat.le_of_eq (by rw [hprinted])) ?_
    rw [hprinted]
    exact .cons nofun nofun (Nat.le_refl _) (.cons nofun nofun (Nat.le_refl _) (.nil _))
  have hdepth : back.callers.length = called.callers.length := by
    change ((called.turn .play).turns [.stop, .resume]).callers.length = _
    rw [hprinted]
    rfl
  have hrestored := return_restores rfl hnext rfl rfl (.atOnce hplay rfl) hinside hdepth hreturn rfl
  refine ⟨hplay, hrestored.2.2.1, ?_, ?_⟩
  . rw [hrestored.1]
    rfl
  . rw [hrestored.1]

end Sample

end Conductor
end VisualNovel
