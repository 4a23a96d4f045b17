import VisualNovel.Proofs.Playing.Order

/-!
This module contains what is left of an entry that fails. A script that cannot be started, restored, jumped to or
called changes nothing of what a conductor plays, however late the failure comes.
-/

namespace VisualNovel

variable {H : Type} {α β : Type}

/--
The script can be loaded, and the place is in it.
-/
def Library.Finds (library : Library) (file : String) (target : Target) : Prop :=
  ∃ cursor found, (library.load file).1 = .ok cursor ∧ target.find cursor = .ok found

/--
An action that refers to promises that have been made, and to no others.
-/
def Action.Honest (action : Action H) : Prop :=
  ∀ tag values (stage : Stage H), stage.reactor.Closed →
    ((action.run tag values).run.run stage).2.reactor.Closed

/--
A turn in which the host does no more than to tick and to conduct.
-/
def Turn.Undisturbed : Turn H → Prop
  | .wake | .play | .tick _ => True
  | _ => False

namespace Conductor

structure Trusted (c : Conductor H) : Prop where
  honest : ∀ entry ∈ c.actions, entry.2.Honest
  closed : c.reactor.Closed

end Conductor

namespace Conducting

/-! ### Trust -/

def KeepsTrust (x : Conducting H α) : Prop :=
  ∀ c : Conductor H, c.Trusted → (x.run.run c).2.Trusted

theorem KeepsTrust.bind {x : Conducting H α} {f : α → Conducting H β} (h : KeepsTrust x)
    (hnext : ∀ a, KeepsTrust (f a)) : KeepsTrust (x >>= f) := by
  intro c hc
  have hx := h c hc
  rw [run_bind]
  cases hresult : x.run.run c with
  | mk result d =>
    rw [hresult] at hx
    cases result with
    | error e => exact hx
    | ok a => exact hnext a d hx

section KeepsTrust

variable (H)

theorem keepsTrust_onScene (p : Play α) : KeepsTrust (onScene p : Conducting H α) := by
  intro c hc
  cases hcursor : c.cursor with
  | none =>
    rw [run_onScene_none p hcursor]
    exact hc
  | some cursor =>
    rw [run_onScene_some p hcursor]
    exact { hc with }

theorem keepsTrust_onVariables (f : Option Fields → ExceptT CursorError (StateM Variables) α)
    : KeepsTrust (onVariables f : Conducting H α) := by
  intro c hc
  rw [run_onVariables]
  exact { hc with }

theorem keepsTrust_jump (tag : Tag) (mode : EntryMode) : KeepsTrust (jump tag mode : Conducting H Unit) := by
  unfold jump
  apply (keepsTrust_onVariables H _).bind
  intro values c hc
  rw [run_get_bind]
  dsimp only
  split
  . rw [run_awaitScript]
    exact { hc with closed := hc.closed.job _ }
  . rw [Conductor.run_enter]
    split
    . exact hc
    . exact { hc with }
  . exact hc

theorem keepsTrust_respond (tag : Tag) (response : Response) : KeepsTrust (respond tag response : Conducting H Unit) := by
  intro c hc
  cases response with
  | proceed | pause => exact { hc with }
  | wait promise =>
    rw [run_respond_wait]
    cases c.reactor.outcome? promise with
    | none => exact { hc with }
    | some outcome => cases outcome <;> exact hc

theorem keepsTrust_invoke {cue : Cue H} (h : cue.action.Honest) : KeepsTrust (invoke cue) := by
  intro c hc
  have hclosed := h cue.tag cue.values { host := c.host, vars := c.vars, reactor := c.reactor } hc.closed
  rw [run_invoke]
  cases hanswer : (cue.action.run cue.tag cue.values).run.run
      { host := c.host, vars := c.vars, reactor := c.reactor } with
  | mk result stage =>
    rw [hanswer] at hclosed
    have hafter : Conductor.Trusted { c with host := stage.host, vars := stage.vars, reactor := stage.reactor } :=
      ⟨hc.honest, hclosed⟩
    cases result with
    | error message => exact hafter
    | ok response => exact keepsTrust_respond H cue.tag response _ hafter

theorem keepsTrust_runAction (tag : Tag) : KeepsTrust (runAction tag : Conducting H Unit) := by
  intro c hc
  rw [runAction_eq_prepare, run_bind]
  unfold prepare
  rw [run_get_bind]
  cases haction : c.actions.lookup tag.name with
  | none => exact hc
  | some action =>
    -- all that is done before the call leaves the reactor alone, so only the action itself matters
    have hhonest : action.Honest := by
      obtain ⟨before, after, hactions, _⟩ := List.lookup_eq_some_iff.1 haction
      apply hc.honest (tag.name, action)
      rw [hactions]
      simp
    have hresolved : Conductor.Trusted ((resolve tag).run.run c).2 := keepsTrust_onVariables H (Tag.resolve tag) c hc
    dsimp only
    rw [run_bind]
    cases hvalues : (resolve tag).run.run c with
    | mk result d =>
      rw [hvalues] at hresolved
      cases result with
      | error e => exact hresolved
      | ok values =>
        dsimp only
        cases Parameter.validate action.parameters values with
        | error e => exact hresolved
        | ok values => exact keepsTrust_invoke H hhonest d hresolved

theorem compositional_keepsTrust : Compositional fun _ (x : Conducting H _) => KeepsTrust x where
  pure _ _ hc := hc
  bind h hnext := h.bind hnext
  throw _ _ hc := hc
  modify {f} _ hf c hc := by
    obtain ⟨_, _, _, _, _, heq⟩ := hf c
    change (f c).Trusted
    rw [heq]
    exact { hc with }
  onVariables := keepsTrust_onVariables H
  onScene := keepsTrust_onScene H
  jump := keepsTrust_jump H
  runAction := keepsTrust_runAction H

theorem keepsTrust_back (tag : Tag) : KeepsTrust (back tag : Conducting H Unit) := by
  intro c hc
  unfold back
  rw [run_get_bind]
  split
  . exact hc
  . exact { hc with }

theorem keepsTrust_step : KeepsTrust (step : Conducting H Unit) := by
  intro c hc
  unfold step
  rw [run_bind]
  cases hnext : (nextTag : Conducting H (Option Tag)).run.run c with
  | mk result d =>
    obtain ⟨_, _, _, rfl⟩ := Conductor.exists_of_nextTag hnext
    cases result with
    | error e => exact { hc with }
    | ok tag =>
      cases tag with
      | none => exact { hc with }
      | some tag =>
        exact (compositional_keepsTrust H).dispatch (fun _ => keepsTrust_back H tag) _ { hc with }

end KeepsTrust
end Conducting

namespace Conductor

variable {c d : Conductor H}

theorem Trusted.turn (h : Trusted c) (t : Turn H) : Trusted (c.turn t) := by
  cases t with
  | wake =>
    rw [turn_wake]
    split
    . have hwakes := wakes_wake c
      generalize c.wake = answer at hwakes ⊢
      cases hwakes with
      | @noCursor _ _ _ _ game | @found _ _ _ _ game => cases game <;> exact { h with }
      | _ => exact { h with }
    . exact h
  | play =>
    rw [turn_play]
    split
    . have hstep := Conducting.keepsTrust_step H c h
      unfold play
      rw [Conducting.run_orStop]
      cases hresult : Conducting.step.run.run c with
      | mk result d =>
        rw [hresult] at hstep
        cases result <;> exact { hstep with }
    . exact h
  | startScript file label =>
    change Trusted (c.startScript file label).2
    obtain ⟨e, heq⟩ | ⟨found, heq⟩ := startScript_cases file label c <;>
    . rw [heq]
      exact { h with }
  | resume =>
    change Trusted c.resume
    unfold resume
    split
    . exact { h with }
    . exact h
  | restore save =>
    change Trusted (c.restore save)
    rw [restore_eq]
    exact { h with closed := h.closed.job _ }
  | stop | arrange => exact { h with }
  | tick now => exact { h with closed := h.closed.tick now }
  | settle promise outcome => exact { h with closed := h.closed.resolve promise outcome }

theorem Reachable.trusted (h : Reachable Action.Honest c) : Trusted c := by
  induction h with
  | new _ _ _ hactions => exact ⟨hactions, Reactor.closed_empty⟩
  | turn _ t _ ih => exact ih.turn t

/-! ### Failures -/

theorem wake_of_not_finds {p : Nat} {file : String} {target : Target} {mode : EntryMode} {game : Option Fields}
    {library : Library} (hpending : c.pending = some (.load p file target mode game))
    (hexpects : c.reactor.Expects p (Library.outcomeOf (library.load file).1)) (hfinds : ¬library.Finds file target)
    (hsettled : c.reactor.outcome? p ≠ none) : ∃ e, c.wake = (.error e, { c with pending := none, status := .stopped }) := by
  have houtcome := hexpects.outcome?_eq hsettled
  cases hload : (library.load file).1 with
  | error e =>
    rw [hload] at houtcome
    exact ⟨_, (Wakes.notLoaded hpending houtcome).wake_eq⟩
  | ok cursor =>
    rw [hload] at houtcome
    cases hfind : target.find cursor with
    | error e => exact ⟨_, (Wakes.notFound hpending houtcome hfind).wake_eq⟩
    | ok found => exact absurd ⟨cursor, found, hload, hfind⟩ hfinds

theorem conduct_of_wake_error {e : ConductorError} (hasleep : c.status = .asleep) (hwake : c.wake = (.error e, d))
    (limit : Nat) : c.conduct limit = (.error e, d) := by
  rw [conduct_eq, if_pos hasleep, hwake]

theorem startScript_of_not_finds {file : String} {label : Option String}
    (hfinds : ¬c.library.Finds file (label.elim .start .label)) : ∃ e, (c.startScript file label).1 = .error e := by
  rw [startScript_eq]
  cases hload : (c.library.load file).1 with
  | error e => exact ⟨_, rfl⟩
  | ok cursor =>
    cases label with
    | none => exact absurd ⟨cursor, _, hload, rfl⟩ hfinds
    | some name =>
      dsimp only [Option.elim]
      cases hfind : cursor.goToLabel name with
      | error e => exact ⟨_, rfl⟩
      | ok found => exact absurd ⟨cursor, found, hload, hfind⟩ hfinds

/--
The script of a save is not yet there, or it has failed to come. What was played before is as it was.
-/
structure Restoring (c : Conductor H) (save : Save) (d : Conductor H) : Prop where
  same : d = { c with library := d.library, reactor := d.reactor, status := d.status, pending := d.pending }
  waits : d.status = .stopped ∨
    d.status = .asleep ∧ ∃ p, d.pending = some (.load p save.file (.saveMark save.mark) .jump (some save.game)) ∧
      d.reactor.Expects p (Library.outcomeOf (c.library.load save.file).1)

namespace Restoring

variable {save : Save}

theorem restore (h : Trusted c) (save : Save) : Restoring c save (c.restore save) := by
  rw [restore_eq]
  exact ⟨rfl, Or.inr ⟨rfl, _, rfl, h.closed.expects _⟩⟩

theorem turn (h : Restoring c save d) (hfinds : ¬c.library.Finds save.file (.saveMark save.mark)) {t : Turn H}
    (ht : t.Undisturbed) : Restoring c save (d.turn t) := by
  cases t with
  | wake =>
    rw [turn_wake]
    split
    . next hasleep =>
      obtain hstopped | ⟨_, p, hpending, hexpects⟩ := h.waits
      . cases hstopped.symm.trans hasleep
      . by_cases hsettled : d.reactor.outcome? p = none
        . rw [(Wakes.unsettled hpending hsettled).wake_eq]
          exact h
        -- the script has come without the save mark, or it has failed to come, and the restoring is over
        . obtain ⟨e, hwake⟩ := wake_of_not_finds hpending hexpects hfinds hsettled
          rw [hwake]
          exact ⟨congrArg (fun d : Conductor H => { d with pending := none, status := .stopped }) h.same, Or.inl rfl⟩
    . exact h
  | play =>
    have hrest : d.status ≠ .running := by
      obtain hstopped | ⟨hasleep, _⟩ := h.waits
      . simp [hstopped]
      . simp [hasleep]
    rw [turn_play, if_neg hrest]
    exact h
  | tick now =>
    refine ⟨congrArg (fun e : Conductor H => { e with reactor := (d.reactor.tick now).2 }) h.same, ?_⟩
    obtain hstopped | ⟨hasleep, p, hpending, hexpects⟩ := h.waits
    . exact Or.inl hstopped
    . exact Or.inr ⟨hasleep, p, hpending, hexpects.tick now⟩
  | _ => cases ht

theorem turns {ts : List (Turn H)} (h : Restoring c save d)
    (hfinds : ¬c.library.Finds save.file (.saveMark save.mark)) (hts : ∀ t ∈ ts, t.Undisturbed)
    : Restoring c save (d.turns ts) := by
  induction ts generalizing d with
  | nil => exact h
  | cons t ts ih =>
    apply ih (h.turn hfinds (hts t List.mem_cons_self))
    intro t' ht'
    exact hts t' (List.mem_cons_of_mem t ht')

theorem conduct (h : Restoring c save d) (hfinds : ¬c.library.Finds save.file (.saveMark save.mark)) (limit : Nat)
    : d.conduct limit = (.ok d.status, d) ∨
        ∃ e, d.conduct limit = (.error e, { d with pending := none, status := .stopped }) := by
  obtain hstopped | ⟨hasleep, p, hpending, hexpects⟩ := h.waits
  . left
    rw [conduct_eq, if_neg (by simp [hstopped])]
    exact playOn_of_rest (by simp [hstopped]) limit
  . by_cases hsettled : d.reactor.outcome? p = none
    . left
      rw [(conduct_of_unsettled hasleep hpending hsettled limit).1, hasleep]
    . obtain ⟨e, hwake⟩ := wake_of_not_finds hpending hexpects hfinds hsettled
      exact Or.inr ⟨e, conduct_of_wake_error hasleep hwake limit⟩

theorem conduct_tick (h : Restoring c save d) (hfinds : ¬c.library.Finds save.file (.saveMark save.mark))
    (hasleep : d.status = .asleep) (now limit : Nat) : ∃ e, ((d.turn (.tick now)).conduct limit).1 = .error e := by
  obtain hstopped | ⟨_, p, hpending, hexpects⟩ := h.waits
  . cases hstopped.symm.trans hasleep
  . have hsettled : (d.turn (.tick now)).reactor.outcome? p ≠ none := by
      change (d.reactor.tick now).2.outcome? p ≠ none
      rw [hexpects.outcome?_tick now]
      simp
    obtain ⟨e, hwake⟩ := wake_of_not_finds (c := d.turn (.tick now)) hpending (hexpects.tick now) hfinds hsettled
    exact ⟨e, congrArg Prod.fst (conduct_of_wake_error (c := d.turn (.tick now)) hasleep hwake limit)⟩

end Restoring

section Jump

variable {b : Conductor H} {tag : Tag} {mode : EntryMode}

theorem standing_of_play_error {e : ConductorError} (h : Orderly c) (hrunning : c.status = .running)
    (hnext : Conducting.nextTag.run.run c = (.ok (some tag), b)) (hdirective : tag.directive? = some mode.directive)
    (hplay : c.play = (.error e, d)) : d.standing = b.standing ∧ d.status = .stopped ∧ d.pending = none := by
  have hscript : b.cursor ≠ none := by
    have hb := (Conducting.detached_nextTag H H).script c (h.awake hrunning).script
    rw [hnext] at hb
    exact hb
  obtain ⟨cursor, hcursor⟩ := Option.ne_none_iff_exists'.1 hscript
  have hpending : b.pending = none := by
    obtain ⟨_, _, _, rfl⟩ := exists_of_nextTag hnext
    exact (h.awake hrunning).pending
  obtain ⟨vars, ⟨_, _, _, heq⟩ | ⟨_, _, heq⟩ | ⟨e, heq⟩⟩ := play_of_jump_cases hnext hdirective hcursor
  . cases hplay.symm.trans heq
  . cases hplay.symm.trans heq
  . cases hplay.symm.trans heq
    exact ⟨rfl, rfl, hpending⟩

variable {cursor : Cursor} {values : Fields} {vars : Variables} {file : String} {target : Target}

theorem play_of_not_found (hnext : Conducting.nextTag.run.run c = (.ok (some tag), b))
    (hdirective : tag.directive? = some mode.directive) (hcursor : b.cursor = some cursor)
    (hvalues : (tag.resolve cursor.parameters).run.run b.vars = (.ok values, vars))
    (hhere : Conducting.otherScript values cursor = none)
    (hmissing : ∀ found, (Conducting.targetOf values).find cursor.restart ≠ .ok found) : ∃ e, c.play.1 = .error e := by
  rw [play_of_jump hnext hdirective hcursor, hvalues]
  dsimp only
  rw [hhere]
  cases hfind : (Conducting.targetOf values).find cursor.restart with
  | error e => exact ⟨_, rfl⟩
  | ok found => exact absurd hfind (hmissing found)

/--
While a script is awaited, the conductor stands where it has stood. If the script does not come or the place is not
in it, that is all.
-/
theorem awaiting_fails {ts : List (Turn H)} (hclosed : b.reactor.Closed)
    (hwaits : Waits (b.awaiting file target mode none) ts)
    : let d := (b.awaiting file target mode none).turns ts
      d.standing = b.standing ∧
        (¬b.library.Finds file target → d.reactor.outcome? b.reactor.promises.length ≠ none →
          ∀ limit, ∃ e, d.conduct limit = (.error e, { d with pending := none, status := .stopped })) := by
  intro d
  have hstays := hwaits.stays rfl rfl
  refine ⟨hstays.standing, ?_⟩
  intro hfinds hsettled limit
  have hexpects := hstays.expects _ (hclosed.expects (Library.outcomeOf (b.library.load file).1))
  obtain ⟨e, hwake⟩ := wake_of_not_finds hstays.pending hexpects hfinds hsettled
  exact ⟨e, conduct_of_wake_error hstays.asleep hwake limit⟩

end Jump

/--
A start that fails changes no more than the library. A game that cannot be restored, since its script does not
come or the save mark is missing, leaves all that is played as it was until conducting fails, which it does
after the next tick, and then the conductor is stopped and waits for nothing. A jump or a call that fails leaves
the script behind its tag, and the calls and the latest save mark as they were, whether it fails at once or when
its script has not come.
-/
theorem failed_entry (h : Reachable Action.Honest c)
    : (∀ file label,
        (∀ e d, c.startScript file label = (.error e, d) → d = { c with library := d.library }) ∧
        (¬c.library.Finds file (label.elim .start .label) → ∃ e, (c.startScript file label).1 = .error e)) ∧
      (∀ (save : Save) (ts : List (Turn H)), ¬c.library.Finds save.file (.saveMark save.mark) →
        (∀ t ∈ ts, t.Undisturbed) →
        let d := (c.restore save).turns ts
        d = { c with library := d.library, reactor := d.reactor, status := d.status, pending := d.pending } ∧
        (∀ limit e f, d.conduct limit = (.error e, f) → f = { d with pending := none, status := .stopped }) ∧
        (d.status = .asleep → ∀ now limit, ∃ e, ((d.turn (.tick now)).conduct limit).1 = .error e)) ∧
      ∀ (mode : EntryMode) (tag : Tag) (b : Conductor H), c.status = .running →
        Conducting.nextTag.run.run c = (.ok (some tag), b) → tag.directive? = some mode.directive →
        (b.callers = c.callers ∧ b.latestMark = c.latestMark) ∧
        (∀ e d, c.play = (.error e, d) → d.standing = b.standing ∧ d.status = .stopped ∧ d.pending = none) ∧
        ∀ cursor values vars, b.cursor = some cursor →
          (tag.resolve cursor.parameters).run.run b.vars = (.ok values, vars) →
          let target := Conducting.targetOf values
          (Conducting.otherScript values cursor = none → (∀ found, target.find cursor.restart ≠ .ok found) →
            ∃ e, c.play.1 = .error e) ∧
          ∀ file, Conducting.otherScript values cursor = some file →
            let d := { b with vars }.awaiting file target mode none
            c.play = (.ok (), d) ∧
            ∀ ts, Waits d ts →
              (d.turns ts).standing = b.standing ∧
              (¬c.library.Finds file target → (d.turns ts).reactor.outcome? c.reactor.promises.length ≠ none →
                ∀ limit, ∃ e,
                  (d.turns ts).conduct limit = (.error e, { d.turns ts with pending := none, status := .stopped })) := by
  have horderly := h.orderly
  have htrusted := h.trusted
  refine ⟨?_, ?_, ?_⟩
  . intro file label
    refine ⟨?_, startScript_of_not_finds⟩
    intro e d hstart
    obtain ⟨_, heq⟩ | ⟨_, heq⟩ := startScript_cases file label c
    . cases hstart.symm.trans heq
      rfl
    . cases hstart.symm.trans heq
  . intro save ts hfinds hts d
    have hrestoring := (Restoring.restore htrusted save).turns hfinds hts
    refine ⟨hrestoring.same, ?_, hrestoring.conduct_tick hfinds⟩
    intro limit e f hconduct
    obtain heq | ⟨_, heq⟩ := hrestoring.conduct hfinds limit
    . cases hconduct.symm.trans heq
    . cases hconduct.symm.trans heq
      rfl
  . intro mode tag b hrunning hnext hdirective
    have hb := exists_of_nextTag hnext
    refine ⟨?_, fun e d => standing_of_play_error horderly hrunning hnext hdirective, ?_⟩
    . obtain ⟨_, _, _, rfl⟩ := hb
      exact ⟨rfl, rfl⟩
    . intro cursor values vars hcursor hvalues target
      refine ⟨play_of_not_found hnext hdirective hcursor hvalues, ?_⟩
      intro file hother d
      have hplay : c.play = (.ok (), d) := by
        rw [play_of_jump hnext hdirective hcursor, hvalues]
        dsimp only
        rw [hother]
      refine ⟨hplay, ?_⟩
      intro ts hwaits
      obtain ⟨_, _, _, rfl⟩ := hb
      exact awaiting_fails (b := { c with cursor := _, vars, printed := _ }) htrusted.closed hwaits

section Sample

def leaveTag : Tag :=
  .make "jump" [("file", .string "b")] 1

def leaving : Conductor Nat :=
  (newcomer promptAction [("a", [leaveTag])]).turn (.startScript "a" none)

def departed : Cursor :=
  { file := "a", tags := [leaveTag], maxDepth := 64, point := 1, latest := some leaveTag }

def missingSave : Save where
  file := "a"
  mark := "m"

theorem failed_leaving
    : (∃ e, (leaving.startScript "b" none).1 = .error e) ∧
      (∃ e, (((leaving.restore missingSave).turn (.tick 0)).conduct 1).1 = .error e) ∧
      let d := leaving.turns [.play, .tick 0]
      d.standing = (some departed, [], [], none) ∧
        ∃ e, d.conduct 1 = (.error e, { d with pending := none, status := .stopped }) := by
  have hreachable : Reachable Action.Honest leaving := by
    apply (reachable_newcomer _ _).turn (.startScript "a" none) trivial
    intro _ _ _ hclosed
    exact hclosed
  -- there is no script `b`, and there are no save marks
  have hgone : ¬leaving.library.Finds "b" .start := by
    rintro ⟨_, _, hload, _⟩
    cases hload
  have hnomark : ¬leaving.library.Finds "a" (.saveMark "m") := by
    rintro ⟨_, _, hload, hfind⟩
    cases hload
    cases hfind
  have hnext : Conducting.nextTag.run.run leaving = (.ok (some leaveTag), { leaving with cursor := some departed }) := by
    rw [Conducting.run_nextTag_some rfl rfl, Cursor.next_of_tag rfl rfl]
    rfl
  have hvalues : (leaveTag.resolve departed.parameters).run.run leaving.vars = (.ok leaveTag.values, leaving.vars) :=
    rfl
  obtain ⟨hstart, hrestore, hjump⟩ := failed_entry hreachable
  obtain ⟨_, _, hmove⟩ := hjump .jump leaveTag { leaving with cursor := some departed } rfl hnext rfl
  obtain ⟨hplay, hwaiting⟩ := (hmove departed leaveTag.values leaving.vars rfl hvalues).2 "b" rfl
  have hturn : leaving.turn .play = _ := congrArg Prod.snd hplay
  refine ⟨(hstart "b" none).2 hgone, ?_, ?_⟩
  . apply (hrestore missingSave [] hnomark nofun).2.2
    rfl
  . rw [turns_cons, hturn]
    obtain ⟨hstanding, hfails⟩ := hwaiting [.tick 0] (.cons trivial rfl (.nil _))
    refine ⟨hstanding, hfails hgone ?_ 1⟩
    have hexpects := hreachable.trusted.closed.expects (Library.outcomeOf (leaving.library.load "b").1)
    exact Reactor.tick_settles hexpects.made hexpects.due 0

end Sample
end Conductor
end VisualNovel
