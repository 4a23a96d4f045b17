import VisualNovel.Library.Preload
import VisualNovel.Proofs.Handling.Marks
import VisualNovel.Proofs.Playing.Failure

/-!
This module contains what stays in memory, whatever turns are taken. Everything that is played stands in scripts that
do, and so does the save mark that has been passed last.
-/

namespace VisualNovel

variable {H : Type} {α β : Type}

namespace Library

/-! ### What a library keeps -/

/--
All scripts that are in memory stay there, and save marks get into no macro.
-/
structure Grows (lib later : Library) : Prop where
  scripts : ∀ file tags, lib.scripts.lookup file = some tags → later.scripts.lookup file = some tags
  macros : lib.macros.Unmarked → later.macros.Unmarked

/--
The script of a cursor is in memory, and no macro that it runs has save marks.
-/
structure Holds (lib : Library) (cursor : Cursor) : Prop where
  script : lib.scripts.lookup cursor.file = some cursor.tags
  unmarked : cursor.Unmarked

/--
A save mark stands in a script that is in memory.
-/
def Marked (lib : Library) (file mark : String) : Prop :=
  ∃ tags, lib.scripts.lookup file = some tags ∧
    ∃ tag ∈ tags, tag.directive? = some .saveMark ∧ (tag.string? "name").getD "" = mark

/--
All save marks of the scripts in memory have names.
-/
def Named (lib : Library) : Prop :=
  ∀ file tags, lib.scripts.lookup file = some tags →
    ∀ tag ∈ tags, tag.directive? = some .saveMark → (tag.string? "name").isSome

variable {lib later last : Library}

theorem Grows.refl (lib : Library) : Grows lib lib :=
  ⟨fun _ _ h => h, fun h => h⟩

theorem Grows.trans (h : Grows lib later) (h' : Grows later last) : Grows lib last :=
  ⟨fun file tags hlookup => h'.scripts file tags (h.scripts file tags hlookup),
    fun hmacros => h'.macros (h.macros hmacros)⟩

theorem Holds.grows {cursor : Cursor} (h : lib.Holds cursor) (hgrows : Grows lib later) : later.Holds cursor :=
  ⟨hgrows.scripts _ _ h.script, h.unmarked⟩

theorem Marked.grows {file mark : String} (h : lib.Marked file mark) (hgrows : Grows lib later)
    : later.Marked file mark := by
  obtain ⟨tags, hlookup, hmark⟩ := h
  exact ⟨tags, hgrows.scripts file tags hlookup, hmark⟩

theorem grows_keep {file : String} (h : lib.scripts.lookup file = none) (tags : List Tag) (disk : Disk)
    : Grows lib ({ lib with disk }.keep file tags) := by
  refine ⟨?_, fun h => h⟩
  intro other tags' hlookup
  rw [keep, List.lookup_cons]
  split
  . next heq =>
    rw [eq_of_beq heq, h] at hlookup
    cases hlookup
  . exact hlookup

theorem grows_load (lib : Library) (file : String) : Grows lib (lib.load file).2 := by
  unfold load
  split
  . exact .refl lib
  . next hnone =>
    dsimp only
    split
    . exact grows_keep hnone _ _
    . exact ⟨fun _ _ h => h, fun h => h⟩

theorem grows_loadEach (lib : Library) (files : List String) : Grows lib (lib.loadEach files).2 := by
  induction files generalizing lib with
  | nil => exact .refl lib
  | cons file files ih =>
    have hrest := (lib.grows_load file).trans (ih (lib.load file).2)
    unfold loadEach
    dsimp only
    split <;> exact hrest

theorem grows_preload {errors : List LibraryError} (h : lib.preload = .ok (errors, later)) : Grows lib later := by
  unfold preload at h
  cases hfiles : lib.scriptFiles with
  | error e =>
    rw [hfiles] at h
    cases h
  | ok files =>
    rw [hfiles] at h
    have hlater : (lib.loadEach files).2 = later := congrArg Prod.snd (Except.ok.inj h)
    rw [← hlater]
    exact lib.grows_loadEach files

theorem grows_loadLater (lib : Library) (file : String) (reactor : Reactor Cursor)
    : Grows lib (lib.loadLater file reactor).2.1 := by
  rw [loadLater_eq]
  exact lib.grows_load file

theorem grows_loadEachLater (lib : Library) (reactor : Reactor Cursor) (files : List String)
    : Grows lib (lib.loadEachLater reactor files).2.1 := by
  induction files generalizing lib reactor with
  | nil => exact .refl lib
  | cons file files ih => exact (lib.grows_loadLater file reactor).trans (ih _ _)

theorem grows_preloadLater (lib : Library) (files : List String) (reactor : Reactor Cursor)
    : Grows lib (lib.preloadLater files reactor).2.1 :=
  lib.grows_loadEachLater reactor.create.2 files

theorem grows_define (lib : Library) {m : Macro} (hm : m.Unmarked) : Grows lib (lib.define m) :=
  ⟨fun _ _ h => h, fun h => h.define hm⟩

theorem grows_forget (lib : Library) (name : String) : Grows lib (lib.forget name) :=
  ⟨fun _ _ h => h, fun h => h.erase name⟩

theorem grows_modifyDisk (lib : Library) (f : Disk → Disk) : Grows lib (lib.modifyDisk f) :=
  ⟨fun _ _ h => h, fun h => h⟩

/--
A script that has been loaded is in memory.
-/
theorem holds_of_load {file : String} {cursor : Cursor} (h : (lib.load file).1 = .ok cursor)
    : (lib.load file).2.Holds cursor := by
  unfold load at h ⊢
  split at h
  . next tags hlookup =>
    cases h
    exact ⟨hlookup, nofun⟩
  . dsimp only at h ⊢
    split at h
    . cases h
      exact ⟨List.lookup_cons_self, nofun⟩
    . cases h

theorem load_of_lookup {file : String} {tags : List Tag} (h : lib.scripts.lookup file = some tags)
    : lib.load file = (.ok (lib.cursor file tags), lib) := by
  unfold load
  rw [h]

theorem Marked.exists_isSaveMark {file mark : String} (h : lib.Marked file mark) (hnamed : lib.Named)
    : ∃ tags, lib.scripts.lookup file = some tags ∧ ∃ i, tags.findIdx? (Cursor.isSaveMark mark) = some i := by
  obtain ⟨tags, hlookup, tag, hmem, hdirective, hname⟩ := h
  obtain ⟨name, hsome⟩ := Option.isSome_iff_exists.1 (hnamed file tags hlookup tag hmem hdirective)
  rw [hsome, Option.getD_some] at hname
  refine ⟨tags, hlookup, ?_⟩
  rw [← Option.isSome_iff_exists, List.findIdx?_isSome, List.any_eq_true]
  refine ⟨tag, hmem, ?_⟩
  simp [Cursor.isSaveMark, hdirective, hsome, hname]

end Library

namespace Target

variable {cursor found : Cursor} {target : Target}

theorem exists_goTo_of_find (h : target.find cursor = .ok found) : ∃ point, found = cursor.goTo point := by
  cases target with
  | start =>
    cases h
    exact ⟨0, rfl⟩
  | label name =>
    simp only [find, Cursor.goToLabel] at h
    split at h <;> cases h
    exact ⟨_, rfl⟩
  | saveMark name =>
    simp only [find, Cursor.goToSaveMark] at h
    split at h <;> cases h
    exact ⟨_, rfl⟩

theorem exists_isSaveMark_of_find {name : String} (h : (saveMark name).find cursor = .ok found)
    : ∃ tag ∈ cursor.tags, Cursor.isSaveMark name tag := by
  simp only [find, Cursor.goToSaveMark] at h
  split at h
  . next i hi =>
    obtain ⟨hlt, hmark, _⟩ := List.findIdx?_eq_some_iff_getElem.1 hi
    exact ⟨_, List.getElem_mem hlt, hmark⟩
  . cases h

end Target

/--
The host puts a library in the place of the old one only if this keeps the scripts and takes no save marks into macros.
-/
def Turn.Tidy (c : Conductor H) : Turn H → Prop
  | .arrange _ _ library => c.library.Grows library
  | _ => True

namespace Conductor

variable {before : Library} {c d : Conductor H}

/--
What may become of a conductor later, if its host leaves the scripts in memory.
-/
inductive Later (c : Conductor H) : Conductor H → Prop where
  | now : Later c c
  | turn {d : Conductor H} (h : Later c d) (t : Turn H) (hfair : t.Fair d) (htidy : t.Tidy d) : Later c (d.turn t)

theorem Later.conduct (h : Later c d) (limit : Nat) : Later c (d.conduct limit).2 := by
  obtain ⟨ts, hts, heq⟩ := exists_turns_conduct limit d
  rw [heq]
  clear heq
  induction ts generalizing d with
  | nil => exact h
  | cons t ts ih =>
    apply ih
    . obtain rfl | rfl := hts t List.mem_cons_self <;> exact h.turn _ trivial trivial
    . exact fun t' ht' => hts t' (List.mem_cons_of_mem t ht')

/--
All that is played stands in scripts that are in memory, and so does the save mark that has been passed last. A script
that is awaited is in memory as well, if it comes, and so is all that has been in memory some time before.
-/
structure Kept (before : Library) (c : Conductor H) : Prop where
  grown : before.Grows c.library
  macros : c.library.macros.Unmarked
  script : ∀ cursor, c.cursor = some cursor → c.library.Holds cursor
  callers : ∀ cursor ∈ c.callers, c.library.Holds cursor
  printed : ∀ tag ∈ c.printed, tag.directive? ≠ some .saveMark
  latest : ∀ file mark, c.latestMark = some (file, mark) → c.library.Marked file mark
  loads : ∀ p file target mode game, c.pending = some (.load p file target mode game) →
    ∃ o, c.reactor.Expects p o ∧ ∀ cursor, o = .done (some cursor) → c.library.Holds cursor

namespace Kept

theorem grows (h : Kept before c) {library : Library} (hgrows : c.library.Grows library)
    : Kept before { c with library } where
  grown := h.grown.trans hgrows
  macros := hgrows.macros h.macros
  script := fun cursor hcursor => (h.script cursor hcursor).grows hgrows
  callers := fun cursor hcursor => (h.callers cursor hcursor).grows hgrows
  printed := h.printed
  latest := fun file mark hlatest => (h.latest file mark hlatest).grows hgrows
  loads := by
    intro p file target mode game hload
    obtain ⟨o, hexpects, hholds⟩ := h.loads p file target mode game hload
    exact ⟨o, hexpects, fun cursor hcursor => (hholds cursor hcursor).grows hgrows⟩

/--
A conductor that waits for no script may do so with any reactor.
-/
theorem of_pending (h : Kept before c) (host : H) (vars : Variables) (reactor : Reactor Cursor) (status : Status)
    {pending : Option Pending} (hpending : ∀ p file target mode game, pending ≠ some (.load p file target mode game))
    : Kept before { c with host, vars, reactor, status, pending } :=
  { h with loads := fun p file target mode game hload => (hpending p file target mode game hload).elim }

theorem awaiting (h : Kept before c) (hclosed : c.reactor.Closed) (file : String) (target : Target) (mode : EntryMode)
    (game : Option Fields) : Kept before (c.awaiting file target mode game) := by
  refine { h.grows (c.library.grows_load file) with loads := ?_ }
  intro p file' target' mode' game' hload
  cases hload
  refine ⟨_, hclosed.expects _, ?_⟩
  intro cursor hcursor
  cases hresult : (c.library.load file).1 with
  | error e =>
    rw [hresult] at hcursor
    cases hcursor
  | ok found =>
    rw [hresult] at hcursor
    cases hcursor
    exact Library.holds_of_load hresult

theorem entered (h : Kept before c) {cursor found : Cursor} (hholds : c.library.Holds cursor) {target : Target}
    (hfind : target.find cursor = .ok found) (mode : EntryMode) : Kept before (c.entered target mode found) := by
  obtain ⟨point, rfl⟩ := Target.exists_goTo_of_find hfind
  refine { h with script := ?_, callers := ?_, latest := ?_ }
  . intro other hother
    cases hother
    exact ⟨hholds.script, nofun⟩
  . intro caller hcaller
    unfold Conductor.entered at hcaller
    dsimp only at hcaller
    split at hcaller
    . rw [List.mem_append, Option.mem_toList] at hcaller
      obtain hcaller | hcaller := hcaller
      . exact h.script caller hcaller
      . exact h.callers caller hcaller
    . exact h.callers caller hcaller
  . intro file mark hlatest
    unfold Conductor.entered at hlatest
    dsimp only at hlatest
    split at hlatest
    . next name =>
      cases hlatest
      obtain ⟨tag, hmem, hmark⟩ := Target.exists_isSaveMark_of_find hfind
      rw [Cursor.isSaveMark, Bool.and_eq_true, beq_iff_eq, beq_iff_eq] at hmark
      exact ⟨cursor.tags, hholds.script, tag, hmem, hmark.1, by rw [hmark.2]; rfl⟩
    . exact h.latest file mark hlatest

theorem withGame (h : Kept before c) (game : Option Fields) : Kept before (c.withGame game) := by
  cases game with
  | none => exact h
  | some game => exact { h with callers := nofun, printed := nofun }

end Kept

/--
What holds of a conductor that plays a tag.
-/
structure Playing (before : Library) (c : Conductor H) : Prop where
  awake : Awake c
  trusted : Trusted c
  kept : Kept before c

theorem Playing.with_vars (h : Playing before c) (vars : Variables) : Playing before { c with vars } :=
  ⟨{ h.awake with }, { h.trusted with }, { h.kept with }⟩

theorem Playing.with_cursor (h : Playing before c) {cursor old : Cursor} (hold : c.cursor = some old)
    (hremains : old.Remains cursor) (vars : Variables) : Playing before { c with cursor := some cursor, vars } := by
  refine ⟨{ h.awake with script := Option.some_ne_none cursor }, { h.trusted with }, { h.kept with script := ?_ }⟩
  intro other hother
  cases hother
  have hholds := h.kept.script old hold
  exact ⟨by rw [hremains.file, hremains.tags]; exact hholds.script, hremains.unmarked hholds.unmarked⟩

theorem Playing.pending_ne (h : Playing before c) (p : Nat) (file : String) (target : Target) (mode : EntryMode)
    (game : Option Fields) : c.pending ≠ some (.load p file target mode game) := by
  rw [h.awake.pending]
  exact nofun

end Conductor

namespace Conducting

open Conductor

/-! ### Tags -/

/--
A computation that changes variables at most.
-/
def Quiet (x : Conducting H α) : Prop :=
  ∀ c, ∃ vars, (x.run.run c).2 = { c with vars }

/--
A computation after which all is kept.
-/
def Keeps (x : Conducting H α) : Prop :=
  ∀ before c, Playing before c → Kept before (x.run.run c).2

theorem Keeps.bind_quiet {x : Conducting H α} {f : α → Conducting H β} (h : Quiet x) (hnext : ∀ a, Keeps (f a))
    : Keeps (x >>= f) := by
  intro before c hc
  obtain ⟨vars, hvars⟩ := h c
  rw [run_bind]
  cases hresult : x.run.run c with
  | mk result d =>
    rw [hresult] at hvars
    cases hvars
    cases result with
    | error e => exact (hc.with_vars vars).kept
    | ok a => exact hnext a before _ (hc.with_vars vars)

section Keeps

variable (H) {before : Library}

theorem quiet_pure (a : α) : Quiet (pure a : Conducting H α) :=
  fun c => ⟨c.vars, rfl⟩

theorem quiet_throw (e : ConductorError) : Quiet (throw e : Conducting H α) :=
  fun c => ⟨c.vars, rfl⟩

theorem quiet_onVariables (f : Option Fields → ExceptT CursorError (StateM Variables) α)
    : Quiet (onVariables f : Conducting H α) := by
  intro c
  rw [run_onVariables]
  exact ⟨_, rfl⟩

theorem quiet_requireString (tag : Tag) (values : Fields) (key : String)
    : Quiet (requireString tag values key : Conducting H String) := by
  unfold requireString
  split
  . exact quiet_pure H _
  . exact quiet_throw H _

theorem quiet_loopCount (tag : Tag) (values : Fields) : Quiet (loopCount tag values : Conducting H Nat) := by
  unfold loopCount
  split
  . exact quiet_throw H _
  . dsimp only
    split
    . exact quiet_pure H _
    . exact quiet_throw H _

theorem quiet_prepare (tag : Tag) : Quiet (prepare tag : Conducting H (Cue H)) := by
  intro c
  unfold prepare
  rw [run_get_bind]
  cases c.actions.lookup tag.name with
  | none => exact ⟨c.vars, rfl⟩
  | some action =>
    obtain ⟨vars, hvars⟩ := quiet_onVariables H (Tag.resolve tag) c
    dsimp only
    rw [run_bind]
    unfold resolve
    cases hresult : (onVariables (Tag.resolve tag) : Conducting H Fields).run.run c with
    | mk result d =>
      rw [hresult] at hvars
      cases hvars
      cases result with
      | error e => exact ⟨vars, rfl⟩
      | ok values =>
        dsimp only
        cases Parameter.validate action.parameters values <;> exact ⟨vars, rfl⟩

theorem keeps_onScene (p : Play α) (hp : ∀ scene, Cursor.Remains scene.cursor (p.cursorAfter scene))
    : Keeps (onScene p : Conducting H α) := by
  intro before c hc
  obtain ⟨cursor, hcursor⟩ := Option.ne_none_iff_exists'.1 hc.awake.script
  rw [run_onScene_some p hcursor]
  exact (hc.with_cursor hcursor (hp { cursor, vars := c.vars }) _).kept

theorem keeps_invoke (cue : Cue H) : Keeps (invoke cue) := by
  intro before c hc
  rw [run_invoke]
  cases (cue.action.run cue.tag cue.values).run.run { host := c.host, vars := c.vars, reactor := c.reactor } with
  | mk result stage =>
    have hkept (status : Status) {pending : Option Pending}
        (hpending : ∀ p file target mode game, pending ≠ some (.load p file target mode game))
        : Kept before { c with host := stage.host, vars := stage.vars, reactor := stage.reactor, status, pending } :=
      hc.kept.of_pending stage.host stage.vars stage.reactor status hpending
    cases result with
    | error message => exact hkept c.status hc.pending_ne
    | ok response =>
      cases response with
      | proceed => exact hkept c.status hc.pending_ne
      | pause => exact hkept .stopped hc.pending_ne
      | wait promise =>
        dsimp only
        rw [run_respond_wait]
        dsimp only
        cases stage.reactor.outcome? promise with
        | none => exact hkept .asleep nofun
        | some outcome => cases outcome <;> exact hkept c.status hc.pending_ne

theorem keeps_runAction (tag : Tag) : Keeps (runAction tag : Conducting H Unit) := by
  rw [runAction_eq_prepare]
  exact Keeps.bind_quiet (quiet_prepare H tag) (keeps_invoke H)

theorem keeps_runScript (tag : Tag) : Keeps (runScript tag : Conducting H Unit) := by
  unfold runScript
  apply Keeps.bind_quiet (quiet_onVariables H _)
  intro value
  split
  . intro before c hc
    refine { hc.kept with printed := ?_ }
    intro other hother
    change other ∈ c.printed ++ value.display.toList.map (Tag.ofChar · tag.line) at hother
    rw [List.mem_append, List.mem_map] at hother
    obtain hother | ⟨char, _, rfl⟩ := hother
    . exact hc.kept.printed other hother
    . change Directive.ofName? Directive.char.name ≠ _
      rw [Directive.ofName?_name]
      exact nofun
  . exact fun _ c hc => hc.kept

theorem keeps_define (name : String)
    : Keeps (do
        let definition ← onScene (Play.define name)
        modify fun c => { c with library := c.library.define definition } : Conducting H Unit) := by
  intro before c hc
  obtain ⟨cursor, hcursor⟩ := Option.ne_none_iff_exists'.1 hc.awake.script
  have hmoved := (Play.moved_define name { cursor, vars := c.vars }).remains
  have hunmarked (m : Macro) (hm : ((Play.define name).run.run { cursor, vars := c.vars }).1 = .ok m) : m.Unmarked :=
    Play.unmarked_define hm
  rw [run_bind, run_onScene_some _ hcursor]
  cases hresult : (Play.define name).run.run { cursor, vars := c.vars } with
  | mk result scene =>
    unfold Play.cursorAfter at hmoved
    rw [hresult] at hmoved hunmarked
    have hdefined := (hc.with_cursor hcursor hmoved scene.vars).kept
    cases result with
    | error e => exact hdefined
    | ok m => exact hdefined.grows (Library.grows_define _ (hunmarked m rfl))

theorem keeps_jump (tag : Tag) (mode : EntryMode) : Keeps (jump tag mode : Conducting H Unit) := by
  intro before c hc
  obtain ⟨cursor, hcursor⟩ := Option.ne_none_iff_exists'.1 hc.awake.script
  rw [run_jump hcursor]
  cases (tag.resolve cursor.parameters).run.run c.vars with
  | mk result vars =>
    have hresolved := hc.with_vars vars
    cases result with
    | error e => exact hresolved.kept
    | ok values =>
      dsimp only
      cases otherScript values cursor with
      | some file => exact hresolved.kept.awaiting hc.trusted.closed file (targetOf values) mode none
      | none =>
        dsimp only
        cases hfind : (targetOf values).find cursor.restart with
        | error e => exact hresolved.kept
        | ok found =>
          have hholds : c.library.Holds cursor.restart := ⟨(hc.kept.script cursor hcursor).script, nofun⟩
          exact hresolved.kept.entered hholds hfind mode

theorem keeps_back (tag : Tag) : Keeps (back tag : Conducting H Unit) := by
  intro before c hc
  unfold back
  rw [run_get_bind]
  cases hcallers : c.callers with
  | nil => exact hc.kept
  | cons caller callers =>
    have hall := hc.kept.callers
    rw [hcallers, List.forall_mem_cons] at hall
    refine { hc.kept with script := ?_, callers := hall.2 }
    intro cursor hcursor
    cases hcursor
    exact hall.1

theorem kept_passSaveMark {c : Conductor H} (hc : Playing before c) {tag : Tag} {cursor : Cursor}
    (hcursor : c.cursor = some cursor) (hmem : tag ∈ cursor.tags) (hmark : tag.directive? = some .saveMark)
    : Kept before ((passSaveMark tag : Conducting H Unit).run.run c).2 := by
  refine { hc.kept with latest := ?_ }
  intro file mark hlatest
  have hfile : (c.cursor.map Cursor.file).getD "" = cursor.file := by
    rw [hcursor]
    rfl
  change some ((c.cursor.map Cursor.file).getD "", (tag.string? "name").getD "") = some (file, mark) at hlatest
  rw [hfile] at hlatest
  cases hlatest
  exact ⟨cursor.tags, (hc.kept.script cursor hcursor).script, tag, hmem, hmark, rfl⟩

theorem kept_dispatch {c : Conductor H} (hc : Playing before c) (tag : Tag)
    (hmark : tag.directive? = some .saveMark → ∃ cursor, c.cursor = some cursor ∧ tag ∈ cursor.tags)
    : Kept before ((dispatch tag).run.run c).2 := by
  unfold dispatch
  cases hdirective : tag.directive? with
  | none => exact keeps_runAction H tag before c hc
  | some directive =>
    cases directive with
    | char | lineBreak => exact keeps_runAction H tag before c hc
    | label | endDefine => exact hc.kept
    | saveMark =>
      obtain ⟨cursor, hcursor, hmem⟩ := hmark hdirective
      exact kept_passSaveMark H hc hcursor hmem hdirective
    | script => exact keeps_runScript H tag before c hc
    | stop => exact { hc.kept with }
    | ifThen =>
      refine Keeps.bind_quiet (quiet_requireString H _ _ _) (fun condition => ?_) before c hc
      exact keeps_onScene H _ fun scene => (Play.moved_enterIf condition scene).remains
    | elsif => exact keeps_onScene H _ (fun scene => (Play.moved_skipRest _ scene).remains) before c hc
    | otherwise => exact keeps_onScene H _ (fun scene => (Play.moved_skipRest _ scene).remains) before c hc
    | endIf => exact keeps_onScene H _ (fun scene => (Play.moved_endIf scene).remains) before c hc
    | forLoop =>
      refine Keeps.bind_quiet (quiet_onVariables H _) (fun values => ?_) before c hc
      refine Keeps.bind_quiet (quiet_loopCount H tag values) fun loops => ?_
      exact keeps_onScene H _ (Play.remains_startLoop loops _)
    | endFor => exact keeps_onScene H _ Play.remains_endRound before c hc
    | breakFor => exact keeps_onScene H _ Play.remains_breakLoop before c hc
    | define =>
      refine Keeps.bind_quiet (quiet_onVariables H _) (fun values => ?_) before c hc
      exact Keeps.bind_quiet (quiet_requireString H _ _ _) (keeps_define H)
    | jump => exact keeps_jump H tag .jump before c hc
    | call => exact keeps_jump H tag .call before c hc
    | back => exact keeps_back H tag before c hc

/--
The next tag is no save mark, or one that stands in the script.
-/
theorem playing_nextTag {c d : Conductor H} (hc : Playing before c) {result : Except ConductorError (Option Tag)}
    (hnext : nextTag.run.run c = (result, d))
    : Playing before d ∧
        ∀ tag, result = .ok (some tag) → tag.directive? = some .saveMark →
          ∃ cursor, d.cursor = some cursor ∧ tag ∈ cursor.tags := by
  cases hprinted : c.printed with
  | cons tag printed =>
    have hall := hc.kept.printed
    rw [hprinted, List.forall_mem_cons] at hall
    rw [run_nextTag_printed hprinted] at hnext
    cases hnext
    refine ⟨⟨{ hc.awake with }, { hc.trusted with }, { hc.kept with printed := hall.2 }⟩, ?_⟩
    intro other hother hmark
    cases hother
    exact (hall.1 hmark).elim
  | nil =>
    obtain ⟨cursor, hcursor⟩ := Option.ne_none_iff_exists'.1 hc.awake.script
    rw [run_nextTag_some hprinted hcursor] at hnext
    cases hnext
    have hholds := hc.kept.script cursor hcursor
    obtain ⟨hfile, htags, hunmarked, hread⟩ :=
      Cursor.next_unmarked Tag.resolve c.vars hc.kept.macros hholds.unmarked
    constructor
    . refine ⟨{ hc.awake with script := Option.some_ne_none _ }, { hc.trusted with },
        { hc.kept with script := ?_, printed := hc.kept.printed }⟩
      intro other hother
      cases hother
      exact ⟨by rw [hfile, htags]; exact hholds.script, hunmarked⟩
    . intro tag htag hmark
      refine ⟨_, rfl, ?_⟩
      rw [htags]
      apply hread tag _ hmark
      cases hresult : (cursor.next c.library.macros Tag.resolve c.vars).1 with
      | error e =>
        rw [hresult] at htag
        cases htag
      | ok answer =>
        rw [hresult] at htag
        cases htag
        rfl

theorem keeps_step : Keeps (step : Conducting H Unit) := by
  intro before c hc
  unfold step
  rw [run_bind]
  cases hnext : (nextTag : Conducting H (Option Tag)).run.run c with
  | mk result d =>
    obtain ⟨hplaying, hmark⟩ := playing_nextTag H hc hnext
    cases result with
    | error e => exact hplaying.kept
    | ok tag =>
      cases tag with
      | none => exact { hplaying.kept with }
      | some tag => exact kept_dispatch H hplaying tag (hmark tag rfl)

end Keeps
end Conducting

namespace Conductor

/-! ### Turns -/

variable {before : Library} {c d : Conductor H}

theorem Kept.play (h : Kept before c) (hawake : Awake c) (htrusted : Trusted c) : Kept before c.play.2 := by
  have hstep := Conducting.keeps_step H before c ⟨hawake, htrusted, h⟩
  unfold Conductor.play
  rw [Conducting.run_orStop]
  cases hresult : Conducting.step.run.run c with
  | mk result d =>
    rw [hresult] at hstep
    cases result <;> exact { hstep with }

theorem Kept.wake (h : Kept before c) : Kept before c.wake.2 := by
  have hwakes := wakes_wake c
  generalize c.wake = answer at hwakes ⊢
  have hover : Kept before { c with pending := none } := { h with loads := nofun }
  cases hwakes with
  | nothing => exact { h with }
  | unsettled => exact h
  | done | failed | notLoaded | notFound => exact { hover with }
  | noCursor => exact { hover.withGame _ with }
  | @found p file target mode game cursor found hpending houtcome hfind =>
    -- the script that has come is the one that was loaded when it was asked for
    obtain ⟨o, hexpects, hholds⟩ := h.loads p file target mode game hpending
    have hsame := hexpects.outcome?_eq (by simp [houtcome])
    rw [houtcome] at hsame
    cases hsame
    have hentered : Kept before ({ c with pending := none }.entered target mode found) :=
      hover.entered (hholds cursor rfl) hfind mode
    exact { hentered.withGame game with }

theorem Kept.startScript (h : Kept before c) (file : String) (label : Option String)
    : Kept before (c.startScript file label).2 := by
  have hgrown := h.grows (c.library.grows_load file)
  rw [startScript_eq]
  cases hload : (c.library.load file).1 with
  | error e => exact hgrown
  | ok cursor =>
    dsimp only
    cases hfound : label.elim (.ok cursor) cursor.goToLabel with
    | error e => exact hgrown
    | ok found =>
      have hholds := Library.holds_of_load hload
      have hsame : found.file = cursor.file ∧ found.tags = cursor.tags ∧ found.Unmarked := by
        cases label with
        | none =>
          cases hfound
          exact ⟨rfl, rfl, hholds.unmarked⟩
        | some name =>
          have hfind : (Target.label name).find cursor = .ok found := hfound
          obtain ⟨point, rfl⟩ := Target.exists_goTo_of_find hfind
          exact ⟨rfl, rfl, nofun⟩
      obtain ⟨hfile, htags, hunmarked⟩ := hsame
      refine { hgrown with script := ?_, callers := nofun, printed := nofun, loads := nofun }
      intro other hother
      cases hother
      exact ⟨by rw [hfile, htags]; exact hholds.script, hunmarked⟩

theorem Kept.turn (h : Kept before c) (horderly : Orderly c) (htrusted : Trusted c) {t : Turn H} (hfair : t.Fair c)
    (htidy : t.Tidy c) : Kept before (c.turn t) := by
  cases t with
  | wake =>
    rw [turn_wake]
    split
    . exact h.wake
    . exact h
  | play =>
    rw [turn_play]
    split
    . next hrunning => exact h.play (horderly.awake hrunning) htrusted
    . exact h
  | startScript file label => exact h.startScript file label
  | resume =>
    change Kept before c.resume
    unfold resume
    split
    . exact { h with }
    . exact h
  | stop => exact { h with loads := nofun }
  | restore save =>
    change Kept before (c.restore save)
    rw [restore_eq]
    exact h.awaiting htrusted.closed save.file (.saveMark save.mark) .jump (some save.game)
  | tick now =>
    refine { h with loads := ?_ }
    intro p file target mode game hload
    obtain ⟨o, hexpects, hholds⟩ := h.loads p file target mode game hload
    exact ⟨o, hexpects.tick now, hholds⟩
  | settle promise outcome =>
    refine { h with loads := ?_ }
    intro p file target mode game hload
    obtain ⟨o, hexpects, hholds⟩ := h.loads p file target mode game hload
    exact ⟨o, hexpects.resolve (hfair p file target mode game hload) outcome, hholds⟩
  | arrange host vars library => exact { h.grows htidy with }

/--
What holds of a conductor at any time after a new one, and after the time at which there was a library.
-/
structure Steady (before : Library) (c : Conductor H) : Prop where
  orderly : Orderly c
  trusted : Trusted c
  kept : Kept before c

namespace Steady

theorem new {actions : List (String × Action H)} {library : Library} (hactions : ∀ entry ∈ actions, entry.2.Honest)
    (hmacros : library.macros.Unmarked) (host : H) : Steady library { host, actions, library } := by
  have hreachable : Reachable Action.Honest { host, actions, library } := .new host actions library hactions
  exact ⟨hreachable.orderly, hreachable.trusted, .refl library, hmacros, nofun, nofun, nofun, nofun, nofun⟩

theorem later (h : Steady before c) (hlater : Later c d) : Steady before d := by
  induction hlater with
  | now => exact h
  | turn _ t hfair htidy ih =>
    exact ⟨ih.orderly.turn t hfair, ih.trusted.turn t, ih.kept.turn ih.orderly ih.trusted hfair htidy⟩

theorem since (h : Steady before c) : Steady c.library c :=
  { h with kept := { h.kept with grown := .refl c.library } }

end Steady

end Conductor
end VisualNovel
