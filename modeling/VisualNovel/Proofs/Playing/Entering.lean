import VisualNovel.Proofs.Playing.Turns

/-!
This module contains how a conductor comes to a script: it is started, it goes to another place, or it wakes up
when what it waits for has come, and goes on, gives up or enters the script that has been loaded.
-/

namespace VisualNovel

variable {H : Type}

/--
The place in a script, if it is there.
-/
def Target.find (cursor : Cursor) : Target → Except CursorError Cursor
  | .start => .ok (cursor.goTo 0)
  | .label name => cursor.goToLabel name
  | .saveMark name => cursor.goToSaveMark name

theorem Target.parameters_of_find {cursor found : Cursor} {target : Target} (h : target.find cursor = .ok found)
    : found.parameters = none := by
  cases target with
  | start =>
    cases h
    rfl
  | label name =>
    unfold Target.find Cursor.goToLabel at h
    dsimp only at h
    split at h
    . cases h
      rfl
    . cases h
  | saveMark name =>
    unfold Target.find Cursor.goToSaveMark at h
    dsimp only at h
    split at h
    . cases h
      rfl
    . cases h

namespace Conductor

/--
The conductor once it has gone to a place.
-/
def entered (c : Conductor H) (target : Target) (mode : EntryMode) (found : Cursor) : Conductor H :=
  { c with
    latestMark :=
      match target with
      | .saveMark name => some (found.file, name)
      | _ => c.latestMark
    callers := if mode = .call then c.cursor.toList ++ c.callers else c.callers
    cursor := some found }

/--
With the game of a save, all else that belongs to the game before is dropped.
-/
def withGame (c : Conductor H) : Option Fields → Conductor H
  | some game => { c with vars := c.vars.clearTemporary.replaceGame game, callers := [], printed := [] }
  | none => c

variable {c : Conductor H}

theorem run_enter (cursor : Cursor) (target : Target) (mode : EntryMode) (c : Conductor H)
    : (Conducting.enter cursor target mode).run.run c
        =
      match target.find cursor with
      | .error e => (.error (.script e), c)
      | .ok found => (.ok (), c.entered target mode found) := by
  unfold Conducting.enter
  cases target with
  | start => rfl
  | label name =>
    dsimp only [Target.find]
    cases cursor.goToLabel name <;> rfl
  | saveMark name =>
    dsimp only [Target.find]
    cases cursor.goToSaveMark name <;> rfl

theorem startScript_eq (file : String) (label : Option String) (c : Conductor H)
    : c.startScript file label
        =
      match (c.library.load file).1 with
      | .error e => (.error (.library e), { c with library := (c.library.load file).2 })
      | .ok cursor =>
        match label.elim (.ok cursor) cursor.goToLabel with
        | .error e => (.error (.script e), { c with library := (c.library.load file).2 })
        | .ok found =>
          (.ok (), { c with
            library := (c.library.load file).2
            cursor := some found
            callers := []
            printed := []
            pending := none
            status := .running }) := by
  unfold startScript Conducting.startScript
  rw [run_get_bind]
  cases c.library.load file with
  | mk result library =>
    cases result with
    | error e => rfl
    | ok cursor =>
      cases label with
      | none => rfl
      | some name =>
        dsimp only [Option.elim]
        cases cursor.goToLabel name <;> rfl

/--
A start that fails leaves all but the library as it is.
-/
theorem startScript_cases (file : String) (label : Option String) (c : Conductor H)
    : (∃ e, c.startScript file label = (.error e, { c with library := (c.library.load file).2 })) ∨
        ∃ found, c.startScript file label =
          (.ok (), { c with
            library := (c.library.load file).2
            cursor := some found
            callers := []
            printed := []
            pending := none
            status := .running }) := by
  rw [startScript_eq]
  cases (c.library.load file).1 with
  | error e => exact Or.inl ⟨_, rfl⟩
  | ok cursor =>
    dsimp only
    cases label.elim (.ok cursor) cursor.goToLabel with
    | error e => exact Or.inl ⟨_, rfl⟩
    | ok found => exact Or.inr ⟨found, rfl⟩

/-! ### Waking up -/

/--
All that can come of waking up.
-/
inductive Wakes (c : Conductor H) : Except ConductorError Unit × Conductor H → Prop where
  | nothing (hpending : c.pending = none) : Wakes c (.ok (), { c with status := .running })
  | unsettled {pending : Pending} (hpending : c.pending = some pending)
    (hunsettled : c.reactor.outcome? pending.promise = none) : Wakes c (.ok (), c)
  | done {p line : Nat} {tag : String} {value : Option Cursor} (hpending : c.pending = some (.wait p tag line))
    (houtcome : c.reactor.outcome? p = some (.done value))
    : Wakes c (.ok (), { c with pending := none, status := .running })
  | failed {p line : Nat} {tag : String} {fault : Fault} (hpending : c.pending = some (.wait p tag line))
    (houtcome : c.reactor.outcome? p = some (.failed fault))
    : Wakes c (.error (.action tag line fault.message), { c with pending := none, status := .stopped })
  | notLoaded {p : Nat} {file : String} {target : Target} {mode : EntryMode} {game : Option Fields} {fault : Fault}
    (hpending : c.pending = some (.load p file target mode game))
    (houtcome : c.reactor.outcome? p = some (.failed fault))
    : Wakes c (.error (.load file fault), { c with pending := none, status := .stopped })
  | noCursor {p : Nat} {file : String} {target : Target} {mode : EntryMode} {game : Option Fields}
    (hpending : c.pending = some (.load p file target mode game))
    (houtcome : c.reactor.outcome? p = some (.done none))
    : Wakes c (.ok (), { { c with pending := none }.withGame game with status := .running })
  | notFound {p : Nat} {file : String} {target : Target} {mode : EntryMode} {game : Option Fields}
    {cursor : Cursor} {e : CursorError} (hpending : c.pending = some (.load p file target mode game))
    (houtcome : c.reactor.outcome? p = some (.done (some cursor))) (hfind : target.find cursor = .error e)
    : Wakes c (.error (.script e), { c with pending := none, status := .stopped })
  | found {p : Nat} {file : String} {target : Target} {mode : EntryMode} {game : Option Fields}
    {cursor found : Cursor} (hpending : c.pending = some (.load p file target mode game))
    (houtcome : c.reactor.outcome? p = some (.done (some cursor))) (hfind : target.find cursor = .ok found)
    : Wakes c
        (.ok (), { ({ c with pending := none }.entered target mode found).withGame game with status := .running })

theorem Wakes.wake_eq {answer : Except ConductorError Unit × Conductor H} (h : Wakes c answer) : c.wake = answer := by
  unfold wake
  rw [Conducting.run_orStop, Conducting.wake, run_get_bind]
  cases h with
  | nothing hpending =>
    simp only [hpending]
    rfl
  | @unsettled pending hpending hunsettled =>
    simp only [hpending]
    cases pending <;> simp only [Pending.promise] at hunsettled <;> simp only [hunsettled] <;> rfl
  | done hpending houtcome | failed hpending houtcome | notLoaded hpending houtcome =>
    simp only [hpending, houtcome]
    rfl
  | @noCursor _ _ _ _ game hpending houtcome =>
    simp only [hpending, houtcome]
    cases game <;> rfl
  | notFound hpending houtcome hfind =>
    simp only [hpending, houtcome]
    rw [run_set_bind, run_bind, run_enter, hfind]
  | @found _ _ _ _ game _ _ hpending houtcome hfind =>
    simp only [hpending, houtcome]
    rw [run_set_bind, run_bind, run_enter, hfind]
    cases game <;> rfl

theorem wakes_wake (c : Conductor H) : Wakes c c.wake := by
  have hsome : ∃ answer, Wakes c answer := by
    cases hpending : c.pending with
    | none => exact ⟨_, .nothing hpending⟩
    | some pending =>
      cases houtcome : c.reactor.outcome? pending.promise with
      | none => exact ⟨_, .unsettled hpending houtcome⟩
      | some outcome =>
        cases pending with
        | wait p tag line =>
          cases outcome with
          | done value => exact ⟨_, .done hpending houtcome⟩
          | failed fault => exact ⟨_, .failed hpending houtcome⟩
        | load p file target mode game =>
          cases outcome with
          | failed fault => exact ⟨_, .notLoaded hpending houtcome⟩
          | done value =>
            cases value with
            | none => exact ⟨_, .noCursor hpending houtcome⟩
            | some cursor =>
              cases hfind : target.find cursor with
              | error e => exact ⟨_, .notFound hpending houtcome hfind⟩
              | ok found => exact ⟨_, .found hpending houtcome hfind⟩
  obtain ⟨answer, h⟩ := hsome
  rw [h.wake_eq]
  exact h

theorem Wakes.pending_eq_none {answer : Except ConductorError Unit × Conductor H} {pending : Pending}
    (h : Wakes c answer) (hpending : c.pending = some pending)
    (hsettled : c.reactor.outcome? pending.promise ≠ none) : answer.2.pending = none := by
  cases h with
  | nothing hnone => exact hnone
  | unsettled hother hunsettled =>
    cases hpending.symm.trans hother
    exact absurd hunsettled hsettled
  | done | failed | notLoaded | notFound => rfl
  | @noCursor _ _ _ _ game | @found _ _ _ _ game => cases game <;> rfl

/-! ### Jumps -/

theorem exists_of_nextTag {d : Conductor H} {result : Except ConductorError (Option Tag)}
    (hnext : Conducting.nextTag.run.run c = (result, d))
    : ∃ cursor vars printed, d = { c with cursor, vars, printed } := by
  have hd := congrArg Prod.snd hnext
  cases hprinted : c.printed with
  | cons tag printed =>
    rw [Conducting.run_nextTag_printed hprinted] at hd
    exact ⟨_, _, _, hd.symm⟩
  | nil =>
    cases hcursor : c.cursor with
    | none =>
      rw [Conducting.run_nextTag_none hprinted hcursor] at hd
      exact ⟨c.cursor, c.vars, c.printed, hd.symm⟩
    | some cursor =>
      rw [Conducting.run_nextTag_some hprinted hcursor] at hd
      exact ⟨_, _, c.printed, hd.symm⟩

end Conductor

def EntryMode.directive : EntryMode → Directive
  | .jump => .jump
  | .call => .call

namespace Conducting

/--
The script to which the values of a tag refer, if it is not the one that is running.
-/
def otherScript (values : Fields) (cursor : Cursor) : Option String :=
  ((Fields.find? "file" values).bind Value.string?).filter fun file => file != "" && some cursor.file != some file

theorem run_jump {b : Conductor H} {cursor : Cursor} (hcursor : b.cursor = some cursor) (tag : Tag) (mode : EntryMode)
    : (jump tag mode).run.run b
        =
      match (tag.resolve cursor.parameters).run.run b.vars with
      | (.error e, vars) => (.error (.script e), { b with vars })
      | (.ok values, vars) =>
        match otherScript values cursor with
        | some file => (.ok (), { b with vars }.awaiting file (targetOf values) mode none)
        | none =>
          match (targetOf values).find cursor.restart with
          | .error e => (.error (.script e), { b with vars })
          | .ok found => (.ok (), { b with vars }.entered (targetOf values) mode found) := by
  cases b
  cases hcursor
  unfold jump resolve
  rw [run_bind, run_onVariables]
  dsimp only [Option.bind_some]
  cases (tag.resolve cursor.parameters).run.run _ with
  | mk answer vars =>
    cases answer with
    | error e => rfl
    | ok values =>
      dsimp only [Except.mapError]
      rw [run_get_bind]
      dsimp only
      generalize hother : Option.filter _ _ = other
      change otherScript values cursor = other at hother
      rw [hother]
      cases other with
      | some file =>
        dsimp only
        rw [run_awaitScript]
      | none =>
        dsimp only
        rw [Conductor.run_enter]

theorem dispatch_of_jump {tag : Tag} {m : EntryMode} (hdirective : tag.directive? = some m.directive)
    : (dispatch tag : Conducting H Unit) = jump tag m := by
  unfold dispatch
  cases m <;> simp only [hdirective, EntryMode.directive]

end Conducting

namespace Conductor

variable {c b : Conductor H} {tag : Tag}

theorem play_of_tag (hnext : Conducting.nextTag.run.run c = (.ok (some tag), b))
    : c.play
        =
      match (Conducting.dispatch tag).run.run b with
      | (.ok _, d) => (.ok (), d)
      | (.error e, d) => (.error e, { d with status := .stopped }) := by
  unfold play Conducting.step
  rw [Conducting.run_orStop, run_bind, hnext]
  rfl

theorem play_of_jump (hnext : Conducting.nextTag.run.run c = (.ok (some tag), b)) {mode : EntryMode}
    (hdirective : tag.directive? = some mode.directive) {cursor : Cursor} (hcursor : b.cursor = some cursor)
    : c.play
        =
      match (tag.resolve cursor.parameters).run.run b.vars with
      | (.error e, vars) => (.error (.script e), { b with vars, status := .stopped })
      | (.ok values, vars) =>
        match Conducting.otherScript values cursor with
        | some file => (.ok (), { b with vars }.awaiting file (Conducting.targetOf values) mode none)
        | none =>
          match (Conducting.targetOf values).find cursor.restart with
          | .error e => (.error (.script e), { b with vars, status := .stopped })
          | .ok found => (.ok (), { b with vars }.entered (Conducting.targetOf values) mode found) := by
  rw [play_of_tag hnext, Conducting.dispatch_of_jump hdirective, Conducting.run_jump hcursor]
  cases (tag.resolve cursor.parameters).run.run b.vars with
  | mk answer vars =>
    cases answer with
    | error e => rfl
    | ok values =>
      dsimp only
      cases Conducting.otherScript values cursor with
      | some file => rfl
      | none =>
        dsimp only
        cases (Conducting.targetOf values).find cursor.restart <;> rfl

theorem play_of_jump_cases (hnext : Conducting.nextTag.run.run c = (.ok (some tag), b)) {mode : EntryMode}
    (hdirective : tag.directive? = some mode.directive) {cursor : Cursor} (hcursor : b.cursor = some cursor)
    : ∃ vars,
        (∃ target found, target.find cursor.restart = .ok found ∧
            c.play = (.ok (), { b with vars }.entered target mode found)) ∨
          (∃ file target, c.play = (.ok (), { b with vars }.awaiting file target mode none)) ∨
          ∃ e, c.play = (.error e, { b with vars, status := .stopped }) := by
  have hplay := play_of_jump hnext hdirective hcursor
  cases hvalues : (tag.resolve cursor.parameters).run.run b.vars with
  | mk answer vars =>
    rw [hvalues] at hplay
    refine ⟨vars, ?_⟩
    cases answer with
    | error e => exact Or.inr (Or.inr ⟨_, hplay⟩)
    | ok values =>
      dsimp only at hplay
      cases hother : Conducting.otherScript values cursor with
      | some file =>
        rw [hother] at hplay
        exact Or.inr (Or.inl ⟨file, _, hplay⟩)
      | none =>
        rw [hother] at hplay
        cases hfind : (Conducting.targetOf values).find cursor.restart with
        | error e =>
          rw [hfind] at hplay
          exact Or.inr (Or.inr ⟨_, hplay⟩)
        | ok found =>
          rw [hfind] at hplay
          exact Or.inl ⟨_, found, hfind, hplay⟩

/-! ### Waiting for a script -/

/--
Where a conductor is: what it plays, where it has been called from, and where a save would take it back to.
-/
def standing (c : Conductor H) : Option Cursor × List Cursor × List Tag × Option (String × String) :=
  (c.cursor, c.callers, c.printed, c.latestMark)

/--
Turns in which a conductor waits for the same thing all the time.
-/
inductive Waits : Conductor H → List (Turn H) → Prop where
  | nil (c : Conductor H) : Waits c []
  | cons {c : Conductor H} {t : Turn H} {ts : List (Turn H)} (hfair : t.Fair c)
    (hsame : (c.turn t).pending = c.pending) (later : Waits (c.turn t) ts) : Waits c (t :: ts)

variable {p : Nat} {file : String} {target : Target} {mode : EntryMode} {t : Turn H} {ts : List (Turn H)}

/--
A conductor that is asleep until a script comes stays where it is, and the script is still to come.
-/
structure Stays (p : Nat) (c d : Conductor H) : Prop where
  asleep : d.status = .asleep
  pending : d.pending = c.pending
  standing : d.standing = c.standing
  expects : ∀ o, c.reactor.Expects p o → d.reactor.Expects p o

theorem Stays.refl (hasleep : c.status = .asleep) : Stays p c c :=
  ⟨hasleep, rfl, rfl, fun _ h => h⟩

theorem stays_turn (hasleep : c.status = .asleep) (hpending : c.pending = some (.load p file target mode none))
    (hfair : t.Fair c) (hsame : (c.turn t).pending = c.pending) : Stays p c (c.turn t) := by
  have hrefl : Stays p c c := Stays.refl hasleep
  cases t with
  | wake =>
    rw [turn_wake, if_pos hasleep] at hsame ⊢
    by_cases hsettled : c.reactor.outcome? p = none
    . rw [(Wakes.unsettled hpending hsettled).wake_eq]
      exact hrefl
    . rw [(wakes_wake c).pending_eq_none hpending hsettled, hpending] at hsame
      cases hsame
  | play =>
    rw [turn_play, if_neg (by simp [hasleep])]
    exact hrefl
  | startScript file label =>
    change (c.startScript file label).2.pending = _ at hsame
    change Stays p c (c.startScript file label).2
    obtain ⟨e, heq⟩ | ⟨found, heq⟩ := startScript_cases file label c
    . rw [heq]
      exact ⟨hasleep, rfl, rfl, fun _ h => h⟩
    . rw [heq, hpending] at hsame
      cases hsame
  | resume =>
    have hresume : c.resume = c := by
      unfold resume
      rw [hasleep]
      rfl
    change Stays p c c.resume
    rw [hresume]
    exact hrefl
  | stop =>
    rw [hpending] at hsame
    cases hsame
  | restore save =>
    change (c.restore save).pending = _ at hsame
    rw [restore_eq, hpending] at hsame
    cases hsame
  | tick now => exact ⟨hasleep, rfl, rfl, fun _ h => h.tick now⟩
  | settle promise outcome =>
    exact ⟨hasleep, rfl, rfl, fun _ h => h.resolve (hfair p file target mode none hpending) outcome⟩
  | arrange => exact ⟨hasleep, rfl, rfl, fun _ h => h⟩

theorem Waits.stays (h : Waits c ts) (hasleep : c.status = .asleep)
    (hpending : c.pending = some (.load p file target mode none)) : Stays p c (c.turns ts) := by
  induction h with
  | nil => exact Stays.refl hasleep
  | cons hfair hsame _ ih =>
    have hturn := stays_turn hasleep hpending hfair hsame
    have hlater := ih hturn.asleep (hsame.trans hpending)
    exact ⟨hlater.asleep, hlater.pending.trans hsame, hlater.standing.trans hturn.standing,
      fun o hexpects => hlater.expects o (hturn.expects o hexpects)⟩

end Conductor
end VisualNovel
