import VisualNovel.Proofs.Invoking.Evaluator
import VisualNovel.Proofs.Invoking.Ledger

/-!
This module contains the parameters that are visible in any run of a conductor. They are always the arguments that
the innermost running macro was given when it was opened, whatever has happened since.
-/

namespace VisualNovel

variable {H : Type}

/-! ### What is noted in a run -/

def EntryMode.entry : EntryMode → Ledger.Entry
  | .jump => .leaves
  | .call => .calls

namespace Conductor

/--
What is noted until the next tag has been read. Printed text is played before the script goes on.
-/
def readEntries (c : Conductor H) : List Ledger.Entry :=
  match c.printed, c.cursor with
  | [], some cursor => cursor.readEntries c.library.macros c.vars
  | _, _ => []

/--
What is noted when a tag is played: a jump or a call that comes to its target at once, and a return.
-/
def dispatchEntries (tag : Tag) (c : Conductor H) : List Ledger.Entry :=
  match tag.directive?, (Conducting.dispatch tag).run.run c with
  | some .jump, (.ok _, d) => if d.status = .running then [EntryMode.jump.entry] else []
  | some .call, (.ok _, d) => if d.status = .running then [EntryMode.call.entry] else []
  | some .back, (.ok _, _) => [.returns]
  | _, _ => []

/--
What is noted when the conductor wakes up: a jump or a call to a script that has been loaded. With the game of a save
all calls are forgotten.
-/
def wakeEntries (c : Conductor H) : List Ledger.Entry :=
  match c.pending with
  | some (.load promise _ _ mode game) =>
    match c.reactor.outcome? promise, c.wake.1 with
    | some (.done cursor), .ok _ =>
      cursor.toList.map (fun _ => mode.entry) ++ game.toList.map fun _ => .forgets
    | _, _ => []
  | _ => []

def entries (c : Conductor H) : Turn H → List Ledger.Entry
  | .wake => if c.status = .asleep then c.wakeEntries else []
  | .play =>
    if c.status = .running then
      c.readEntries ++
        match Conducting.nextTag.run.run c with
        | (.ok (some tag), d) => d.dispatchEntries tag
        | _ => []
    else
      []
  | .startScript file label =>
    match (c.startScript file label).1 with
    | .ok _ => [.leaves, .forgets]
    | .error _ => []
  | _ => []

/--
The ledger after some turns.
-/
def ledger (c : Conductor H) (l : Ledger) : List (Turn H) → Ledger
  | [] => l
  | t :: ts => (c.turn t).ledger (l.noteAll (c.entries t)) ts

end Conductor

/-! ### Scripts are entered -/

/--
All that can come of a jump or a call: it fails, the conductor falls asleep, or the target is entered.
-/
theorem Conducting.run_jump_cases (tag : Tag) (mode : EntryMode) (c : Conductor H)
    : ∃ vars,
        (∃ e, (jump tag mode).run.run c = (.error e, { c with vars })) ∨
          (∃ file target, (jump tag mode).run.run c = (.ok (), { c with vars }.awaiting file target mode none)) ∨
          ∃ cursor target found, target.find cursor = .ok found ∧
            (jump tag mode).run.run c = (.ok (), { c with vars }.entered target mode found) := by
  unfold jump resolve
  rw [run_bind, run_onVariables]
  cases (tag.resolve (c.cursor.bind Cursor.parameters)).run.run c.vars with
  | mk answer vars =>
    exists vars
    cases answer with
    | error e => exact Or.inl ⟨_, rfl⟩
    | ok values =>
      dsimp only [Except.mapError]
      rw [run_get_bind]
      dsimp only
      generalize Option.filter _ _ = other
      cases other with
      | some file =>
        dsimp only
        rw [run_awaitScript]
        exact Or.inr (Or.inl ⟨file, _, rfl⟩)
      | none =>
        cases c.cursor with
        | none => exact Or.inl ⟨_, rfl⟩
        | some cursor =>
          dsimp only
          rw [Conductor.run_enter]
          cases hfind : (targetOf values).find cursor.restart with
          | error e => exact Or.inl ⟨_, rfl⟩
          | ok found => exact Or.inr (Or.inr ⟨_, _, found, hfind, rfl⟩)

theorem Target.macros_of_find {cursor found : Cursor} {target : Target} (h : target.find cursor = .ok found)
    : found.macros = [] := by
  obtain ⟨point, rfl⟩ := exists_goTo_of_find h
  rfl

theorem Library.macros_of_load {library : Library} {file : String} {cursor : Cursor}
    (h : (library.load file).1 = .ok cursor) : cursor.macros = [] := by
  unfold load at h
  split at h
  . cases h
    rfl
  . dsimp only at h
    split at h
    . cases h
      rfl
    . cases h

namespace Ledger

/--
The ledger tells which macros are running in the script and in those that have called.
-/
structure Tells (l : Ledger) (c : Conductor H) : Prop where
  current : Option.Rel Cursor.Tells l.current c.cursor
  callers : List.Forall₂ Cursor.Tells l.callers c.callers

/--
The ledger tells which macros are running, and so the parameters that are visible are those that the innermost one
has been given. When it is over, those of the macro around it are visible again. What a macro has been given has the
names of the values of its call, and a parameter that is forwarded from one macro to another has not been computed
again.
-/
structure Accounts (l : Ledger) (c : Conductor H) : Prop where
  tells : l.Tells c
  visible : c.cursor.bind Cursor.parameters = l.visible
  outer : ∀ cursor is, c.cursor = some cursor → l.current = some is →
    cursor.closeMacro.parameters = Invocation.visible is.tail
  names : ∀ i, l.Holds i → i.arguments.map Prod.fst = i.call.values.map Prod.fst
  forwards : ∀ is ∈ l.pages, ∀ inner outer rest, inner :: outer :: rest <:+ is → inner.Forwards outer

namespace Tells

variable {l : Ledger} {c d : Conductor H}

theorem keepsFrames (h : l.Tells c) (hkeeps : c.KeepsFrames d) : l.Tells d := by
  obtain ⟨hcurrent, hcallers⟩ := h
  obtain ⟨hsame, hcursor⟩ := hkeeps
  refine ⟨?_, hsame ▸ hcallers⟩
  generalize l.current = current at hcurrent ⊢
  generalize c.cursor = cursor at hcurrent hcursor
  generalize d.cursor = later at hcursor ⊢
  cases hcurrent with
  | none =>
    cases hcursor
    exact .none
  | some htells =>
    cases hcursor with
    | some hkeeps => exact .some (htells.keepsFrames hkeeps)

theorem of_cursor_eq (h : l.Tells c) (hcallers : d.callers = c.callers) (hcursor : d.cursor = c.cursor) : l.Tells d :=
  h.keepsFrames (.of_cursor_eq hcallers hcursor)

theorem parameters_eq (h : l.Tells c) : c.cursor.bind Cursor.parameters = l.visible := by
  obtain ⟨hcurrent, _⟩ := h
  unfold visible
  generalize l.current = current at hcurrent ⊢
  generalize c.cursor = cursor at hcurrent ⊢
  cases hcurrent with
  | none => rfl
  | some htells => exact htells.parameters_eq

/-! ### Scripts are entered and left -/

theorem entered (h : l.Tells c) {cursor found : Cursor} {target : Target} (hfind : target.find cursor = .ok found)
    (mode : EntryMode) : (l.note mode.entry).Tells (c.entered target mode found) := by
  obtain ⟨hcurrent, hcallers⟩ := h
  have hfound := Cursor.tells_of_macros_nil (Target.macros_of_find hfind)
  cases mode with
  | jump => exact ⟨.some hfound, hcallers⟩
  | call =>
    refine ⟨.some hfound, List.rel_append ?_ hcallers⟩
    generalize l.current = current at hcurrent
    generalize c.cursor = cursor at hcurrent
    cases hcurrent with
    | none => exact .nil
    | some htells => exact .cons htells .nil

theorem withGame (h : l.Tells c) (game : Option Fields)
    : (l.noteAll (game.toList.map fun _ => .forgets)).Tells (c.withGame game) := by
  cases game with
  | none => exact h
  | some game => exact ⟨h.current, .nil⟩

theorem returned (h : l.Tells c) {caller : Cursor} {callers : List Cursor} (hcallers : c.callers = caller :: callers)
    : (l.note .returns).Tells { c with cursor := some caller, callers } := by
  obtain ⟨_, htells⟩ := h
  obtain ⟨current, outer⟩ := l
  rw [hcallers] at htells
  cases htells with
  | cons hcaller hrest => exact ⟨.some hcaller, hrest⟩

/-! ### Tags are read and played -/

theorem nextTag {b : Conductor H} {result : Except ConductorError (Option Tag)} (h : l.Tells c)
    (hnext : Conducting.nextTag.run.run c = (result, b))
    : (l.noteAll c.readEntries).Tells b ∧
        (c.printed = [] → ∀ tag, result = .ok (some tag) →
          ∃ cursor, b.cursor = some cursor ∧ tag ∈ cursor.frameTags) := by
  unfold Conductor.readEntries
  cases hprinted : c.printed with
  | cons tag printed =>
    rw [Conducting.run_nextTag_printed hprinted] at hnext
    cases hnext
    exact ⟨h.of_cursor_eq rfl rfl, nofun⟩
  | nil =>
    cases hcursor : c.cursor with
    | none =>
      rw [Conducting.run_nextTag_none hprinted hcursor] at hnext
      cases hnext
      exact ⟨h, fun _ _ => nofun⟩
    | some cursor =>
      obtain ⟨hcurrent, hcallers⟩ := h
      obtain ⟨current, outer⟩ := l
      rw [hcursor] at hcurrent
      cases hcurrent with
      | some htells =>
        obtain ⟨later, hnoted, hlater, hread⟩ := htells.next c.library.macros c.vars outer
        rw [Conducting.run_nextTag_some hprinted hcursor] at hnext
        cases hnext
        dsimp only
        rw [hnoted]
        refine ⟨⟨.some hlater, hcallers⟩, ?_⟩
        intro _ tag htag
        refine ⟨_, rfl, hread tag ?_⟩
        cases hresult : (cursor.next c.library.macros Tag.resolve c.vars).1 with
        | error e =>
          rw [hresult] at htag
          cases htag
        | ok answer =>
          rw [hresult] at htag
          cases htag
          rfl

theorem jump (h : l.Tells c) (hrunning : c.status = .running) {tag : Tag} {mode : EntryMode}
    {answer : Except ConductorError Unit} (hjump : (Conducting.jump tag mode).run.run c = (answer, d))
    : match answer with
      | .ok _ => (l.noteAll (if d.status = .running then [mode.entry] else [])).Tells d
      | .error _ => l.Tells d := by
  obtain ⟨vars, ⟨e, heq⟩ | ⟨file, target, heq⟩ | ⟨cursor, target, found, hfind, heq⟩⟩ :=
    Conducting.run_jump_cases tag mode c
  . cases hjump.symm.trans heq
    exact h.of_cursor_eq rfl rfl
  . cases hjump.symm.trans heq
    exact h.of_cursor_eq rfl rfl
  . cases hjump.symm.trans heq
    have hvars : l.Tells { c with vars } := h.of_cursor_eq rfl rfl
    have hentered : ({ c with vars }.entered target mode found).status = .running := hrunning
    dsimp only
    rw [if_pos hentered]
    exact hvars.entered hfind mode

theorem dispatch (h : l.Tells c) (hrunning : c.status = .running) (tag : Tag)
    : (l.noteAll (c.dispatchEntries tag)).Tells ((Conducting.dispatch tag).run.run c).2 := by
  have hsteady (hjump : tag.directive? ≠ some .jump) (hcall : tag.directive? ≠ some .call)
      (hback : tag.directive? ≠ some .back) : l.Tells ((Conducting.dispatch tag).run.run c).2 :=
    h.keepsFrames (Conducting.steady_dispatch H hjump hcall hback c)
  unfold Conductor.dispatchEntries
  cases hdirective : tag.directive? with
  | none => exact hsteady (by simp [hdirective]) (by simp [hdirective]) (by simp [hdirective])
  | some directive =>
    cases directive with
    | jump =>
      rw [Conducting.dispatch_of_jump (m := .jump) hdirective]
      cases hrun : (Conducting.jump tag .jump).run.run c with
      | mk answer d =>
        have htells := h.jump hrunning hrun
        cases answer <;> exact htells
    | call =>
      rw [Conducting.dispatch_of_jump (m := .call) hdirective]
      cases hrun : (Conducting.jump tag .call).run.run c with
      | mk answer d =>
        have htells := h.jump hrunning hrun
        cases answer <;> exact htells
    | back =>
      have hback : (Conducting.dispatch tag : Conducting H Unit) = Conducting.back tag := by
        unfold Conducting.dispatch
        simp only [hdirective]
      rw [hback]
      unfold Conducting.back
      rw [run_get_bind]
      cases hcallers : c.callers with
      | nil => exact h
      | cons caller callers => exact h.returned hcallers
    | _ => exact hsteady (by simp [hdirective]) (by simp [hdirective]) (by simp [hdirective])

theorem play (h : l.Tells c) (hrunning : c.status = .running)
    : (l.noteAll (c.entries .play)).Tells c.play.2 := by
  unfold Conductor.entries
  dsimp only
  rw [if_pos hrunning, Ledger.noteAll_append]
  cases hnext : (Conducting.nextTag : Conducting H (Option Tag)).run.run c with
  | mk result b =>
    have hread := (h.nextTag hnext).1
    cases result with
    | error e =>
      have hplay : c.play = (.error e, { b with status := .stopped }) := by
        unfold Conductor.play Conducting.step
        rw [Conducting.run_orStop, run_bind, hnext]
      rw [hplay]
      exact hread.of_cursor_eq rfl rfl
    | ok tag =>
      cases tag with
      | none =>
        have hplay : c.play = (.ok (), { b with status := .stopped }) := by
          unfold Conductor.play Conducting.step
          rw [Conducting.run_orStop, run_bind, hnext]
          rfl
        rw [hplay]
        exact hread.of_cursor_eq rfl rfl
      | some tag =>
        have hstatus : b.status = .running := by
          obtain ⟨_, _, _, rfl⟩ := Conductor.exists_of_nextTag hnext
          exact hrunning
        have htells := hread.dispatch hstatus tag
        rw [Conductor.play_of_tag hnext]
        dsimp only
        cases hrun : (Conducting.dispatch tag).run.run b with
        | mk answer d =>
          rw [hrun] at htells
          cases answer with
          | error e => exact htells.of_cursor_eq rfl rfl
          | ok => exact htells

theorem wake (h : l.Tells c) : (l.noteAll c.wakeEntries).Tells c.wake.2 := by
  have hwakes := Conductor.wakes_wake c
  unfold Conductor.wakeEntries
  generalize c.wake = answer at hwakes ⊢
  cases hwakes with
  | nothing hpending =>
    rw [hpending]
    exact h.of_cursor_eq rfl rfl
  | @unsettled pending hpending hunsettled =>
    rw [hpending]
    cases pending with
    | wait => exact h
    | load p file target mode game =>
      change c.reactor.outcome? p = none at hunsettled
      dsimp only
      rw [hunsettled]
      exact h
  | done hpending | failed hpending =>
    rw [hpending]
    exact h.of_cursor_eq rfl rfl
  | notLoaded hpending houtcome | notFound hpending houtcome =>
    rw [hpending]
    dsimp only
    rw [houtcome]
    exact h.of_cursor_eq rfl rfl
  | @noCursor _ _ _ _ game hpending houtcome =>
    rw [hpending]
    dsimp only
    rw [houtcome]
    have hawake : l.Tells { c with pending := none } := h.of_cursor_eq rfl rfl
    exact (hawake.withGame game).of_cursor_eq rfl rfl
  | @found _ _ _ mode game _ _ hpending houtcome hfind =>
    rw [hpending]
    dsimp only
    rw [houtcome]
    have hawake : l.Tells { c with pending := none } := h.of_cursor_eq rfl rfl
    exact ((hawake.entered hfind mode).withGame game).of_cursor_eq rfl rfl

theorem startScript (h : l.Tells c) (file : String) (label : Option String)
    : (l.noteAll (c.entries (.startScript file label))).Tells (c.startScript file label).2 := by
  unfold Conductor.entries
  dsimp only
  rw [Conductor.startScript_eq]
  cases hload : (c.library.load file).1 with
  | error e => exact h.of_cursor_eq rfl rfl
  | ok cursor =>
    dsimp only
    cases hfind : label.elim (.ok cursor) cursor.goToLabel with
    | error e => exact h.of_cursor_eq rfl rfl
    | ok found =>
      have hfound : found.macros = [] := by
        cases label with
        | none =>
          cases hfind
          exact Library.macros_of_load hload
        | some name =>
          have hlabel : (Target.label name).find cursor = .ok found := hfind
          exact Target.macros_of_find hlabel
      exact ⟨.some (Cursor.tells_of_macros_nil hfound), .nil⟩

/--
Whatever turn it is, what is noted tells which macros are running after it.
-/
theorem turn (h : l.Tells c) (t : Turn H) : (l.noteAll (c.entries t)).Tells (c.turn t) := by
  cases t with
  | wake =>
    rw [Conductor.turn_wake]
    unfold Conductor.entries
    dsimp only
    split
    . exact h.wake
    . exact h
  | play =>
    rw [Conductor.turn_play]
    split
    . next hrunning => exact h.play hrunning
    . next hrest =>
      unfold Conductor.entries
      dsimp only
      rw [if_neg hrest]
      exact h
  | startScript file label => exact h.startScript file label
  | resume =>
    change l.Tells c.resume
    unfold Conductor.resume
    split
    . exact h.of_cursor_eq rfl rfl
    . exact h
  | restore save =>
    change l.Tells (c.restore save)
    rw [Conductor.restore_eq]
    exact h.of_cursor_eq rfl rfl
  | stop | tick | settle | arrange => exact h.of_cursor_eq rfl rfl

theorem turns (h : l.Tells c) (ts : List (Turn H)) : (c.ledger l ts).Tells (c.turns ts) := by
  induction ts generalizing c l with
  | nil => exact h
  | cons t ts ih => exact ih (h.turn t)

theorem exists_tells (h : l.Tells c) {is : List Invocation} (his : is ∈ l.pages)
    : ∃ cursor, Cursor.Tells is cursor := by
  obtain ⟨hcurrent, hcallers⟩ := h
  obtain hmem | hmem := List.mem_append.1 his
  . rw [Option.mem_toList.1 hmem] at hcurrent
    generalize c.cursor = cursor at hcurrent
    cases hcurrent with
    | some htells => exact ⟨_, htells⟩
  . generalize l.callers = outer at hcallers hmem
    generalize c.callers = callers at hcallers
    clear his
    induction hcallers with
    | nil => cases hmem
    | cons htells _ ih =>
      cases hmem with
      | head => exact ⟨_, htells⟩
      | tail _ hmem => exact ih hmem

theorem accounts (h : l.Tells c) : l.Accounts c := by
  refine ⟨h, h.parameters_eq, ?_, ?_, ?_⟩
  . intro cursor is hcursor hcurrent
    obtain ⟨htells, _⟩ := h
    rw [hcursor, hcurrent] at htells
    cases htells with
    | some htells => exact htells.closeMacro.parameters_eq
  . rintro i ⟨is, his, hi⟩
    obtain ⟨cursor, hframes⟩ := h.exists_tells his
    exact Cursor.Frames.names_eq hframes hi
  . intro is his inner outer rest hsuffix
    obtain ⟨cursor, hframes⟩ := h.exists_tells his
    exact Cursor.Frames.forwards hframes hsuffix

end Tells
end Ledger

namespace Conductor

theorem ledger_concat (c : Conductor H) (l : Ledger) (ts : List (Turn H)) (t : Turn H)
    : c.ledger l (ts ++ [t]) = (c.ledger l ts).noteAll ((c.turns ts).entries t) := by
  induction ts generalizing c l with
  | nil => rfl
  | cons other ts ih => exact ih (c.turn other) (l.noteAll (c.entries other))

/--
At any time of any run the ledger accounts for the parameters of all running macros: each still has what the values of
its call came to when it was opened, computed one after another with the parameters that were visible where the call
stands. No turn changes what has been noted of a call. The tag that is played next stands in the innermost macro, and
all expressions in it are evaluated with what this macro has been given: no evaluator makes a difference that is the
real one for these parameters.
-/
theorem parameters_passed (host : H) (actions : List (String × Action H)) (library : Library) (ts : List (Turn H))
    : let new : Conductor H := { host, actions, library }
      let c := new.turns ts
      let l := new.ledger {} ts
      l.Accounts c ∧
        (∀ t i, (new.ledger {} (ts ++ [t])).Holds i → l.Holds i ∨ .opens i ∈ c.entries t) ∧
        ∀ tag b, Conducting.nextTag.run.run c = (.ok (some tag), b) →
          let read := l.noteAll c.readEntries
          read.Accounts b ∧
            (c.printed = [] → ∃ cursor, b.cursor = some cursor ∧ tag ∈ cursor.frameTags) ∧
            ∀ ev : Evaluator, ev.Faithful read.visible →
              (Conducting.dispatchWith ev tag).run.run b = (Conducting.dispatch tag).run.run b := by
  intro new c l
  have hnew : Ledger.Tells {} new := ⟨.none, .nil⟩
  have htells : l.Tells c := hnew.turns ts
  refine ⟨htells.accounts, ?_, ?_⟩
  . intro t i hholds
    rw [ledger_concat] at hholds
    exact hholds.of_noteAll
  . intro tag b hnext read
    obtain ⟨hread, hstands⟩ := htells.nextTag hnext
    refine ⟨hread.accounts, fun hprinted => hstands hprinted tag rfl, ?_⟩
    intro ev hfaithful
    rw [← hread.parameters_eq] at hfaithful
    exact hfaithful.run_dispatch_eq tag

section Sample

def greetTag : Tag :=
  .make "greet" [("who", .string "&mp.n")] 4

def relayTag : Tag :=
  .make "relay" [("n", .string "&'&b'")] 6

def speakTag : Tag :=
  .make "ch" [("text", .string "&mp.who")] 2

/--
A script that calls a macro which calls another one. The argument looks like an expression.
-/
def relaying : Conductor Nat where
  host := 0
  library := {
    directory := ""
    grammar := .line
    maxDepth := 64
    cache := none
    disk := {}
    scripts := [("a", [relayTag])]
    macros := { entries := [
      ("greet", { name := "greet", tags := [speakTag], line := 1 }),
      ("relay", { name := "relay", tags := [greetTag], line := 3 })] }
  }

def relayed : Fields := [(Tag.bodyKey, .string ""), ("n", .string "&b")]

def greeted : Fields := [(Tag.bodyKey, .string ""), ("who", .string "&b")]

theorem parse_quoted : Expr.parse "'&b'" = .ok (.literal (.string "&b")) := by
  have htokens : Expr.tokenize false "'&b'".toList = .ok [⟨.string "&b", false⟩] := by
    apply eq_ok_of_toOption
    decide +kernel
  rw [Expr.parse_of_tokenize htokens]
  cbv

theorem values_relayTag : relayTag.values = [(Tag.bodyKey, .string ""), ("n", .string ("&" ++ "'&b'"))] :=
  rfl

theorem resolve_relayTag : (Tag.resolve relayTag none).run.run {} = (.ok relayed, {}) := by
  have hquoted : (Expr.evaluateAt "'&b'" 6 none).run.run {} = (.ok (.string "&b"), {}) := by
    unfold Expr.evaluateAt Expr.evaluate
    rw [parse_quoted]
    rfl
  rw [← Tag.passes_iff, values_relayTag]
  exact .kept (Or.inl rfl) (.computed (by decide) hquoted (.done {}))

theorem parse_forwarded : Expr.parse "mp.n" = .ok (.member (.name "mp") (.literal (.string "n"))) := by
  have htokens
      : Expr.tokenize false "mp.n".toList = .ok [⟨.name "mp", false⟩, ⟨.punct .dot, false⟩, ⟨.name "n", false⟩] := by
    apply eq_ok_of_toOption
    decide +kernel
  rw [Expr.parse_of_tokenize htokens]
  cbv

theorem values_greetTag : greetTag.values = [(Tag.bodyKey, .string ""), ("who", .string ("&" ++ "mp.n"))] :=
  rfl

theorem resolve_greetTag : (Tag.resolve greetTag (some relayed)).run.run {} = (.ok greeted, {}) := by
  have hrelayed : Fields.find? "n" relayed = some (.string "&b") := rfl
  rw [← Tag.passes_iff, values_greetTag]
  exact .kept (Or.inl rfl) (.computed (by decide) (Tag.evaluateAt_parameter parse_forwarded hrelayed 4 {}) (.done {}))

def started : Cursor where
  file := "a"
  tags := [relayTag]
  maxDepth := 64

/--
The cursor once it has come to the tag in the inner macro.
-/
def speaking : Cursor :=
  { started with
    point := 1
    macros := [
      { name := "greet", tags := [speakTag], line := 1, point := 1, parameters := greeted },
      { name := "relay", tags := [greetTag], line := 3, point := 1, parameters := relayed }]
    latest := some speakTag }

/--
An evaluator that fails where no parameters are visible.
-/
def insideOnly : Evaluator
  | source, line, some fields => Expr.evaluateAt source line (some fields)
  | _, _, none => throw (.macroDepth "" 0)

theorem parameters_relaying
    : let c := relaying.turn (.startScript "a" none)
      let read := (relaying.ledger {} [.startScript "a" none]).noteAll c.readEntries
      let b := { c with cursor := some speaking }
      Conducting.nextTag.run.run c = (.ok (some speakTag), b) ∧ read.visible = some greeted ∧
        (∀ is, read.current = some is → Invocation.visible is.tail = some relayed) ∧
        (Conducting.dispatchWith insideOnly speakTag).run.run b = (Conducting.dispatch speakTag).run.run b := by
  intro c read b
  have hnext : Conducting.nextTag.run.run c = (.ok (some speakTag), b) := by
    have hstarted : c.cursor = some started := rfl
    rw [Conducting.run_nextTag_some rfl hstarted, Cursor.next_of_call rfl rfl resolve_relayTag (by decide),
      Cursor.next_of_call rfl rfl resolve_greetTag (by decide), Cursor.next_of_tag rfl rfl]
    rfl
  obtain ⟨haccounts, _, hplayed⟩ :=
    (parameters_passed 0 [] relaying.library [.startScript "a" none]).2.2 speakTag b hnext
  have hgreeted : read.visible = some greeted := haccounts.visible.symm
  refine ⟨hnext, hgreeted, fun is his => (haccounts.outer speaking is rfl his).symm, ?_⟩
  have hfaithful : insideOnly.Faithful read.visible := by
    rw [hgreeted]
    exact fun _ _ => rfl
  exact hplayed insideOnly hfaithful

end Sample

end Conductor
end VisualNovel
