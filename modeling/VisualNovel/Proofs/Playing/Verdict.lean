import VisualNovel.Conductor.Run
import VisualNovel.Proofs.Computation

/-!
This module contains the part of a conductor's work that neither host nor reactor takes part in. It picks the
next tag and obeys it if it is a directive, and it comes to a verdict on what is left to do.
-/

namespace VisualNovel

/--
What a conductor has beside the script that it plays.
-/
structure Surroundings (H : Type) where
  host : H
  actions : List (String × Action H)
  reactor : Reactor Cursor
  status : Status
  pending : Option Pending

namespace Conductor

variable {H K L : Type}

def surroundings (c : Conductor H) : Surroundings H := {
  host := c.host
  actions := c.actions
  reactor := c.reactor
  status := c.status
  pending := c.pending
}

def within (c : Conductor K) (s : Surroundings H) : Conductor H := {
  host := s.host
  actions := s.actions
  library := c.library
  vars := c.vars
  reactor := s.reactor
  cursor := c.cursor
  callers := c.callers
  printed := c.printed
  status := s.status
  pending := s.pending
  latestMark := c.latestMark
}

@[simp]
theorem within_surroundings (c : Conductor H) : c.within c.surroundings = c :=
  rfl

@[simp]
theorem within_within (c : Conductor K) (s : Surroundings H) (t : Surroundings L)
    : (c.within s).within t = c.within t :=
  rfl

@[simp]
theorem surroundings_within (c : Conductor K) (s : Surroundings H) : (c.within s).surroundings = s :=
  rfl

end Conductor

namespace Conducting

variable {H K α β : Type}

theorem run_onVariables (f : Option Fields → ExceptT CursorError (StateM Variables) α) (c : Conductor H)
    : (onVariables f).run.run c
        =
      ((((f (c.cursor.bind Cursor.parameters)).run.run c.vars).1).mapError ConductorError.script,
        { c with vars := ((f (c.cursor.bind Cursor.parameters)).run.run c.vars).2 }) := by
  unfold onVariables
  rw [run_get_bind]
  cases (f (c.cursor.bind Cursor.parameters)).run.run c.vars with
  | mk result vars => cases result <;> rfl

theorem run_onScene_none (p : Play α) {c : Conductor H} (h : c.cursor = none)
    : (onScene p).run.run c = (.error ConductorError.noScript, c) := by
  unfold onScene
  rw [run_get_bind]
  simp only [h]
  rfl

theorem run_onScene_some (p : Play α) {c : Conductor H} {cursor : Cursor} (h : c.cursor = some cursor)
    : (onScene p).run.run c
        =
      ((p.run.run { cursor, vars := c.vars }).1.mapError ConductorError.script,
        { c with
          cursor := some (p.run.run { cursor, vars := c.vars }).2.cursor
          vars := (p.run.run { cursor, vars := c.vars }).2.vars }) := by
  unfold onScene
  rw [run_get_bind]
  simp only [h]
  cases p.run.run { cursor, vars := c.vars } with
  | mk result scene => cases result <;> rfl

theorem run_nextTag_printed {c : Conductor H} {tag : Tag} {printed : List Tag} (h : c.printed = tag :: printed)
    : nextTag.run.run c = (.ok (some tag), { c with printed }) := by
  unfold nextTag
  rw [run_get_bind]
  simp only [h]
  rfl

theorem run_nextTag_none {c : Conductor H} (hprinted : c.printed = []) (hcursor : c.cursor = none)
    : nextTag.run.run c = (.ok none, c) := by
  unfold nextTag
  rw [run_get_bind]
  simp only [hprinted, hcursor]
  rfl

theorem run_nextTag_some {c : Conductor H} {cursor : Cursor} (hprinted : c.printed = [])
    (hcursor : c.cursor = some cursor)
    : nextTag.run.run c
        =
      ((cursor.next c.library.macros Tag.resolve c.vars).1.mapError ConductorError.script,
        { c with
          cursor := some (cursor.next c.library.macros Tag.resolve c.vars).2.1
          vars := (cursor.next c.library.macros Tag.resolve c.vars).2.2 }) := by
  unfold nextTag
  rw [run_get_bind]
  simp only [hprinted, hcursor]
  cases cursor.next c.library.macros Tag.resolve c.vars with
  | mk result rest => cases result <;> rfl

/--
A computation that is the same in all surroundings and leaves them as they are. It does not drop the script that
is running.
-/
structure Detached (x : Conducting K α) (y : Conducting H α) : Prop where
  same : ∀ (c : Conductor K) (s : Surroundings H),
    y.run.run (c.within s) = ((x.run.run c).1, (x.run.run c).2.within s)
  script : ∀ c : Conductor K, c.cursor ≠ none → (x.run.run c).2.cursor ≠ none

theorem Detached.bind {x : Conducting K α} {y : Conducting H α} {f : α → Conducting K β}
    {g : α → Conducting H β} (h : Detached x y) (hnext : ∀ a, Detached (f a) (g a))
    : Detached (x >>= f) (y >>= g) := by
  constructor
  . intro c s
    rw [run_bind, run_bind, h.same c s]
    cases x.run.run c with
    | mk result d =>
      cases result with
      | error e => rfl
      | ok a => exact (hnext a).same d s
  . intro c hc
    have hx := h.script c hc
    rw [run_bind]
    cases hresult : x.run.run c with
    | mk result d =>
      rw [hresult] at hx
      cases result with
      | error e => exact hx
      | ok a => exact (hnext a).script d hx

theorem detached_modify {f : Conductor K → Conductor K} {g : Conductor H → Conductor H}
    (h : ∀ c s, g (c.within s) = (f c).within s) (hscript : ∀ c, c.cursor ≠ none → (f c).cursor ≠ none)
    : Detached (modify f : Conducting K Unit) (modify g : Conducting H Unit) := by
  refine ⟨?_, hscript⟩
  intro c s
  change ((Except.ok (), g (c.within s)) : Except ConductorError Unit × Conductor H) = _
  rw [h]
  rfl

section Detached

variable (H K)

theorem detached_pure (a : α) : Detached (pure a : Conducting K α) (pure a : Conducting H α) :=
  ⟨fun _ _ => rfl, fun _ h => h⟩

theorem detached_throw (e : ConductorError)
    : Detached (throw e : Conducting K α) (throw e : Conducting H α) :=
  ⟨fun _ _ => rfl, fun _ h => h⟩

theorem detached_onVariables (f : Option Fields → ExceptT CursorError (StateM Variables) α)
    : Detached (onVariables f : Conducting K α) (onVariables f : Conducting H α) := by
  constructor
  . intro c s
    rw [run_onVariables, run_onVariables]
    rfl
  . intro c hc
    rw [run_onVariables]
    exact hc

theorem detached_onScene (p : Play α)
    : Detached (onScene p : Conducting K α) (onScene p : Conducting H α) := by
  constructor
  . intro c s
    cases h : c.cursor with
    | none =>
      have h' : (c.within s).cursor = none := h
      rw [run_onScene_none p h, run_onScene_none p h']
    | some cursor =>
      have h' : (c.within s).cursor = some cursor := h
      rw [run_onScene_some p h, run_onScene_some p h']
      rfl
  . intro c hc
    cases h : c.cursor with
    | none => exact absurd h hc
    | some cursor =>
      rw [run_onScene_some p h]
      simp

theorem detached_nextTag
    : Detached (nextTag : Conducting K (Option Tag)) (nextTag : Conducting H (Option Tag)) := by
  constructor
  . intro c s
    cases hprinted : c.printed with
    | cons tag printed =>
      have hprinted' : (c.within s).printed = tag :: printed := hprinted
      rw [run_nextTag_printed hprinted, run_nextTag_printed hprinted']
      rfl
    | nil =>
      have hprinted' : (c.within s).printed = [] := hprinted
      cases hcursor : c.cursor with
      | none =>
        have hcursor' : (c.within s).cursor = none := hcursor
        rw [run_nextTag_none hprinted hcursor, run_nextTag_none hprinted' hcursor']
      | some cursor =>
        have hcursor' : (c.within s).cursor = some cursor := hcursor
        rw [run_nextTag_some hprinted hcursor, run_nextTag_some hprinted' hcursor']
        rfl
  . intro c hc
    cases hprinted : c.printed with
    | cons tag printed =>
      rw [run_nextTag_printed hprinted]
      exact hc
    | nil =>
      cases hcursor : c.cursor with
      | none => exact absurd hcursor hc
      | some cursor =>
        rw [run_nextTag_some hprinted hcursor]
        simp

theorem detached_requireString (tag : Tag) (values : Fields) (key : String)
    : Detached (requireString tag values key : Conducting K String)
        (requireString tag values key : Conducting H String) := by
  unfold requireString
  split
  . exact detached_pure H K _
  . exact detached_throw H K _

theorem detached_loopCount (tag : Tag) (values : Fields)
    : Detached (loopCount tag values : Conducting K Nat) (loopCount tag values : Conducting H Nat) := by
  unfold loopCount
  split
  . exact detached_throw H K _
  . dsimp only
    split
    . exact detached_pure H K _
    . exact detached_throw H K _

theorem detached_runScript (tag : Tag)
    : Detached (runScript tag : Conducting K Unit) (runScript tag : Conducting H Unit) := by
  unfold runScript
  apply (detached_onVariables H K _).bind
  intro value
  split
  . exact detached_modify (fun _ _ => rfl) (fun _ h => h)
  . exact detached_pure H K _

theorem detached_enter (cursor : Cursor) (target : Target) (mode : EntryMode)
    : Detached (enter cursor target mode : Conducting K Unit) (enter cursor target mode : Conducting H Unit) := by
  unfold enter
  dsimp only
  split
  . exact detached_throw H K _
  . exact detached_modify (fun _ _ => rfl) (fun _ _ => Option.some_ne_none _)

theorem detached_back (tag : Tag)
    : Detached (back tag : Conducting K Unit) (back tag : Conducting H Unit) := by
  constructor
  . intro c s
    obtain ⟨host, actions, library, vars, reactor, cursor, callers, printed, status, pending, mark⟩ := c
    unfold back
    rw [run_get_bind, run_get_bind]
    cases callers <;> rfl
  . intro c hc
    obtain ⟨host, actions, library, vars, reactor, cursor, callers, printed, status, pending, mark⟩ := c
    unfold back
    rw [run_get_bind]
    cases callers with
    | nil => exact hc
    | cons caller callers => exact Option.some_ne_none caller

end Detached

/-! ### Verdicts -/

/--
What is left to do with a tag: nothing, to stop, to load a script, or to call an action.
-/
inductive Verdict where
  | goOn
  | stop
  | load (file : String) (target : Target) (mode : EntryMode)
  | play (tag : Tag)

def jumpVerdict (tag : Tag) (mode : EntryMode) : Conducting H Verdict := do
  let values ← resolve tag
  let target := targetOf values
  let current := (← get).cursor
  let file := ((Fields.find? "file" values).bind Value.string?).filter fun file =>
    file != "" && current.map Cursor.file != some file
  match file, current with
  | some file, _ => return .load file target mode
  | none, some cursor => do
    enter cursor.restart target mode
    return .goOn
  | none, none => throw .noScript

def verdict (tag : Tag) : Conducting H Verdict :=
  match tag.directive? with
  | some .stop => return .stop
  | some .jump => jumpVerdict tag .jump
  | some .call => jumpVerdict tag .call
  | some .char | some .lineBreak | none => return .play tag
  | _ => do
    dispatch tag
    return .goOn

def decide : Conducting H Verdict := do
  match ← nextTag with
  | some tag => verdict tag
  | none => return .stop

def execute : Verdict → Conducting H Unit
  | .goOn => pure ()
  | .stop => modify fun c => { c with status := .stopped }
  | .load file target mode => awaitScript file target mode none
  | .play tag => runAction tag

theorem jump_eq_verdict (tag : Tag) (mode : EntryMode)
    : (jump tag mode : Conducting H Unit) = jumpVerdict tag mode >>= execute := by
  unfold jump jumpVerdict
  simp only [bind_assoc]
  congr 1
  funext values
  congr 1
  funext c
  generalize c.cursor = current
  generalize Option.filter _ _ = file
  cases file with
  | some file => rfl
  | none =>
    cases current with
    | none => rfl
    | some cursor =>
      dsimp only
      rw [bind_assoc]
      simp [execute]

theorem dispatch_eq_verdict (tag : Tag) : (dispatch tag : Conducting H Unit) = verdict tag >>= execute := by
  have hdirective : (dispatch tag : Conducting H Unit) = (do dispatch tag; return .goOn) >>= execute := by
    rw [bind_assoc]
    simp [execute]
  unfold verdict
  split
  . next h => simp [dispatch, h, execute]
  . next h =>
    rw [← jump_eq_verdict]
    simp [dispatch, h]
  . next h =>
    rw [← jump_eq_verdict]
    simp [dispatch, h]
  . next h => simp [dispatch, h, execute]
  . next h => simp [dispatch, h, execute]
  . next h => simp [dispatch, h, execute]
  . exact hdirective

theorem step_eq_decide : (step : Conducting H Unit) = decide >>= execute := by
  unfold step decide
  rw [bind_assoc]
  congr
  funext tag
  cases tag with
  | none => rfl
  | some tag => exact dispatch_eq_verdict tag

theorem detached_jumpVerdict (tag : Tag) (mode : EntryMode)
    : Detached (jumpVerdict tag mode : Conducting K Verdict) (jumpVerdict tag mode : Conducting H Verdict) := by
  unfold jumpVerdict
  apply (detached_onVariables H K _).bind
  intro values
  have henter (cursor : Cursor) (target : Target)
      : Detached (do enter cursor target mode; return Verdict.goOn : Conducting K Verdict)
          (do enter cursor target mode; return Verdict.goOn : Conducting H Verdict) :=
    (detached_enter H K _ _ _).bind fun _ => detached_pure H K _
  constructor
  . intro c s
    rw [run_get_bind, run_get_bind]
    have hcursor : (c.within s).cursor = c.cursor := rfl
    rw [hcursor]
    generalize c.cursor = current
    dsimp only
    generalize Option.filter _ _ = file
    cases file with
    | some file => rfl
    | none =>
      cases current with
      | none => rfl
      | some cursor => exact (henter _ _).same c s
  . intro c hc
    rw [run_get_bind]
    dsimp only
    split
    . exact hc
    . exact (henter _ _).script c hc
    . exact hc

theorem detached_verdict (tag : Tag)
    : Detached (verdict tag : Conducting K Verdict) (verdict tag : Conducting H Verdict) := by
  have hreturn {x : Conducting K Unit} {y : Conducting H Unit} (h : Detached x y)
      : Detached (do x; return Verdict.goOn) (do y; return Verdict.goOn) :=
    h.bind fun _ => detached_pure H K _
  unfold verdict dispatch
  cases tag.directive? with
  | none => exact detached_pure H K _
  | some d =>
    cases d with
    | char | lineBreak | stop => exact detached_pure H K _
    | jump => exact detached_jumpVerdict tag .jump
    | call => exact detached_jumpVerdict tag .call
    | label => exact hreturn (detached_pure H K _)
    | saveMark => exact hreturn (detached_modify (fun _ _ => rfl) (fun _ h => h))
    | script => exact hreturn (detached_runScript H K tag)
    | ifThen => exact hreturn ((detached_requireString H K _ _ _).bind fun _ => detached_onScene H K _)
    | elsif | otherwise | endIf | endFor | breakFor => exact hreturn (detached_onScene H K _)
    | forLoop =>
      apply hreturn
      apply (detached_onVariables H K _).bind
      intro values
      apply (detached_loopCount H K tag values).bind
      intro loops
      exact detached_onScene H K _
    | define =>
      apply hreturn
      apply (detached_onVariables H K _).bind
      intro values
      apply (detached_requireString H K tag values _).bind
      intro name
      apply (detached_onScene H K _).bind
      intro definition
      exact detached_modify (fun _ _ => rfl) (fun _ h => h)
    | endDefine => exact hreturn (detached_throw H K _)
    | back => exact hreturn (detached_back H K tag)

theorem detached_decide : Detached (decide : Conducting K Verdict) (decide : Conducting H Verdict) := by
  apply (detached_nextTag H K).bind
  intro tag
  cases tag with
  | none => exact detached_pure H K _
  | some tag => exact detached_verdict tag

end Conducting
end VisualNovel
