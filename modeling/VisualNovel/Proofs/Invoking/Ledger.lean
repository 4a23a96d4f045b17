import VisualNovel.Proofs.Invoking.Arguments
import VisualNovel.Proofs.Invoking.Frames

/-!
This module contains ledgers of the calls of macros. What is written down when a macro is opened is not changed
later, so a ledger tells what each running macro has been given, and whether it still has it.
-/

namespace VisualNovel

/--
A call of a macro: its tag, the macros that are defined, the one that is opened, and the variables before and after
this.
-/
structure Invocation where
  call : Tag
  defined : MacroTable
  opened : Macro
  before : Variables
  after : Variables

namespace Invocation

/--
What the macro has been given.
-/
def arguments (i : Invocation) : Fields :=
  i.opened.parameters

/--
The parameters that are visible inside of invocations of which the first is the innermost one.
-/
def visible (running : List Invocation) : Option Fields :=
  running.head?.map arguments

/--
Every argument that is a parameter of the caller is this parameter as it is, even if it looks like an expression.
-/
def Forwards (inner outer : Invocation) : Prop :=
  ∀ key source name value, (key, .string ("&" ++ source)) ∈ inner.call.values → key ≠ Tag.bodyKey →
    Expr.parse source = .ok (.member (.name "mp") (.literal (.string name))) →
    Fields.find? name outer.arguments = some value → (key, value) ∈ inner.arguments

end Invocation

/--
What happens to the running macros: the innermost one is opened or closed, all of them are left with a jump, put
aside with a call or taken up again with a return, and what has been put aside is forgotten.
-/
inductive Ledger.Entry where
  | opens (invocation : Invocation)
  | closes
  | leaves
  | calls
  | returns
  | forgets

/--
The invocations that are running, and those of the callers, the innermost first.
-/
structure Ledger where
  current : Option (List Invocation) := none
  callers : List (List Invocation) := []

namespace Ledger

def note (l : Ledger) : Entry → Ledger
  | .opens invocation => { l with current := l.current.map (invocation :: ·) }
  | .closes => { l with current := l.current.map List.tail }
  | .leaves => { l with current := some [] }
  | .calls => { current := some [], callers := l.current.toList ++ l.callers }
  | .returns => { current := l.callers.head?, callers := l.callers.tail }
  | .forgets => { l with callers := [] }

def noteAll (l : Ledger) (entries : List Entry) : Ledger :=
  entries.foldl note l

/--
The pages of a ledger: the invocations of each script, of the running one first.
-/
def pages (l : Ledger) : List (List Invocation) :=
  l.current.toList ++ l.callers

/--
The parameters that are visible where the script is.
-/
def visible (l : Ledger) : Option Fields :=
  l.current.bind Invocation.visible

@[simp]
theorem noteAll_cons (l : Ledger) (entry : Entry) (entries : List Entry)
    : l.noteAll (entry :: entries) = (l.note entry).noteAll entries :=
  rfl

theorem noteAll_append (l : Ledger) (entries others : List Entry)
    : l.noteAll (entries ++ others) = (l.noteAll entries).noteAll others :=
  List.foldl_append

/--
The invocation is running, or it has been put aside.
-/
def Holds (l : Ledger) (i : Invocation) : Prop :=
  ∃ is ∈ l.pages, i ∈ is

theorem Holds.of_note {l : Ledger} {entry : Entry} {i : Invocation} (h : (l.note entry).Holds i)
    : l.Holds i ∨ entry = .opens i := by
  have hcurrent {is : List Invocation} (his : l.current = some is) (hi : i ∈ is) : l.Holds i :=
    ⟨is, List.mem_append_left _ (Option.mem_toList.2 his), hi⟩
  have hcallers {is : List Invocation} (his : is ∈ l.callers) (hi : i ∈ is) : l.Holds i :=
    ⟨is, List.mem_append_right _ his, hi⟩
  obtain ⟨is, his, hi⟩ := h
  obtain hrunning | haside := List.mem_append.1 his
  . replace hrunning := Option.mem_toList.1 hrunning
    cases entry with
    | opens other =>
      obtain ⟨old, hold, rfl⟩ := Option.map_eq_some_iff.1 hrunning
      cases hi with
      | head => exact Or.inr rfl
      | tail _ hi => exact Or.inl (hcurrent hold hi)
    | closes =>
      obtain ⟨old, hold, rfl⟩ := Option.map_eq_some_iff.1 hrunning
      exact Or.inl (hcurrent hold (List.mem_of_mem_tail hi))
    | leaves | calls =>
      cases hrunning
      cases hi
    | returns => exact Or.inl (hcallers (List.mem_of_head? hrunning) hi)
    | forgets => exact Or.inl (hcurrent hrunning hi)
  . cases entry with
    | opens | closes | leaves => exact Or.inl (hcallers haside hi)
    | calls =>
      obtain hold | hold := List.mem_append.1 haside
      . exact Or.inl (hcurrent (Option.mem_toList.1 hold) hi)
      . exact Or.inl (hcallers hold hi)
    | returns => exact Or.inl (hcallers (List.mem_of_mem_tail haside) hi)
    | forgets => cases haside

/--
What a ledger holds is never changed: it has been held before, or it is new.
-/
theorem Holds.of_noteAll {l : Ledger} {entries : List Entry} {i : Invocation} (h : (l.noteAll entries).Holds i)
    : l.Holds i ∨ .opens i ∈ entries := by
  induction entries generalizing l with
  | nil => exact Or.inl h
  | cons entry entries ih =>
    obtain hnoted | hopened := ih h
    . obtain hheld | rfl := hnoted.of_note
      . exact Or.inl hheld
      . exact Or.inr List.mem_cons_self
    . exact Or.inr (List.mem_cons_of_mem _ hopened)

end Ledger

namespace Cursor

variable {c d e : Cursor}

/-! ### Frames -/

/--
The running macros are those that have been opened, wherever they are in their bodies. Each was opened for a call that
stands in the macro around it or else in the script, and has what the values of the call came to at that time with the
parameters that were visible there.
-/
inductive Frames (script : List Tag) : List Macro → List Invocation → Prop where
  | nil : Frames script [] []
  | cons {point : Nat} {i : Invocation} {ms : List Macro} {is : List Invocation}
    (hcall : i.call ∈ tagsAround script ms)
    (hopened : (i.defined.find? i.call.name).map (·.instantiate i.arguments) = some i.opened)
    (hpasses : Tag.Passes i.call.line (Invocation.visible is) i.before i.call.values (.ok i.arguments) i.after)
    (outer : Frames script ms is) : Frames script ({ i.opened with point } :: ms) (i :: is)

/--
The invocations tell which macros a cursor is running.
-/
def Tells (is : List Invocation) (c : Cursor) : Prop :=
  Frames c.tags c.macros is

theorem Frames.visible_eq {script : List Tag} {ms : List Macro} {is : List Invocation} (h : Frames script ms is)
    : Invocation.visible is = ms.head?.map Macro.parameters := by
  cases h <;> rfl

theorem Frames.names_eq {script : List Tag} {ms : List Macro} {is : List Invocation} (h : Frames script ms is)
    {i : Invocation} (hi : i ∈ is) : i.arguments.map Prod.fst = i.call.values.map Prod.fst := by
  induction h with
  | nil => cases hi
  | cons _ _ hpasses _ ih =>
    cases hi with
    | head => exact hpasses.names_eq
    | tail _ hi => exact ih hi

theorem Frames.forwards {script : List Tag} {ms : List Macro} {is rest : List Invocation} {inner outer : Invocation}
    (h : Frames script ms is) (hsuffix : inner :: outer :: rest <:+ is) : inner.Forwards outer := by
  induction h with
  | nil => cases List.suffix_nil.1 hsuffix
  | cons _ _ hpasses _ ih =>
    obtain heq | hsuffix := List.suffix_cons_iff.1 hsuffix
    . cases heq
      exact fun key source name value hmem hkey hparse hvalue => hpasses.forwarded hparse hvalue hkey hmem
    . exact ih hsuffix

theorem Frames.moved {script : List Tag} {ms later : List Macro} {is : List Invocation} (h : Frames script ms is)
    (hmoved : SameMacros ms later) : Frames script later is := by
  induction h generalizing later with
  | nil =>
    cases hmoved
    exact .nil
  | cons hcall hopened hpasses outer ih =>
    cases hmoved with
    | cons hhead hrest =>
      obtain ⟨point, rfl⟩ := hhead
      refine .cons ?_ hopened hpasses (ih hrest)
      rw [SameMacros.tagsAround_eq hrest]
      exact hcall

theorem Tells.keepsFrames {is : List Invocation} (h : Tells is c) (hkeeps : KeepsFrames c d) : Tells is d := by
  unfold Tells at h ⊢
  rw [hkeeps.tags]
  exact h.moved hkeeps.macros

theorem Tells.parameters_eq {is : List Invocation} (h : Tells is c) : c.parameters = Invocation.visible is :=
  (Frames.visible_eq h).symm

theorem Tells.closeMacro {is : List Invocation} (h : Tells is c) : Tells is.tail c.closeMacro := by
  unfold Tells Cursor.closeMacro at *
  generalize hmacros : c.macros = macros at h
  cases h with
  | nil =>
    rw [hmacros]
    exact .nil
  | cons _ _ _ outer => exact outer

theorem tells_of_macros_nil (h : c.macros = []) : Tells [] c := by
  unfold Tells
  rw [h]
  exact .nil

/-! ### Reading -/

/--
What a step of reading notes, after which reading goes on.
-/
def entry (c : Cursor) (defined : MacroTable) (d : Cursor) (before after : Variables) : Ledger.Entry :=
  match c.take?, d.macros with
  | some (call, _), opened :: _ => .opens { call, defined, opened, before, after }
  | _, _ => .closes

/--
What is noted until the next tag has been read.
-/
def readEntries (table : MacroTable) (c : Cursor) (vars : Variables) : List Ledger.Entry :=
  match _h : c.step table Tag.resolve vars with
  | (.ok .more, d, after) => c.entry table d vars after :: d.readEntries table after
  | _ => []
termination_by c.weight table.base
decreasing_by exact weight_step_lt ‹_›

variable {table : MacroTable} {vars after : Variables} {is : List Invocation}

theorem readEntries_of_more (h : c.step table Tag.resolve vars = (.ok .more, d, after))
    : c.readEntries table vars = c.entry table d vars after :: d.readEntries table after := by
  rw [readEntries]
  split <;> simp_all

theorem readEntries_of_done {answer : Except CursorError Progress}
    (h : c.step table Tag.resolve vars = (answer, d, after)) (hdone : answer ≠ .ok .more)
    : c.readEntries table vars = [] := by
  rw [readEntries]
  split <;> simp_all

/--
A step of reading opens a macro for a call in the current frame, with what the values of the call come to there, or
it closes the innermost one.
-/
theorem Tells.step_more (h : Tells is c) (hstep : c.step table Tag.resolve vars = (.ok .more, d, after))
    (callers : List (List Invocation))
    : ∃ later,
        Ledger.note { current := some is, callers } (c.entry table d vars after) = { current := some later, callers } ∧
        Tells later d := by
  obtain ⟨htake, rfl, rfl⟩ | ⟨call, taken, definition, parameters, htake, hfind, hresolve, rfl⟩ := step_more_cases hstep
  . unfold entry
    rw [htake]
    exact ⟨is.tail, rfl, h.closeMacro⟩
  . have hkeeps := (Moved.take? htake).keepsFrames
    have htaken := h.keepsFrames hkeeps
    let invocation : Invocation := {
      call, defined := table, opened := definition.instantiate parameters, before := vars, after
    }
    refine ⟨invocation :: is, ?_, ?_⟩
    . unfold entry
      rw [htake]
      rfl
    . have hcall : call ∈ tagsAround taken.tags taken.macros := by
        rw [← frameTags_eq_tagsAround, hkeeps.frameTags_eq]
        exact mem_frameTags_of_take? htake
      have hopened : (table.find? call.name).map (·.instantiate parameters) = some invocation.opened := by
        rw [hfind]
        rfl
      rw [htaken.parameters_eq] at hresolve
      exact .cons (i := invocation) hcall hopened (Tag.passes_iff.2 hresolve) htaken

theorem Tells.step_done {answer : Except CursorError Progress} (h : Tells is c)
    (hstep : c.step table Tag.resolve vars = (answer, d, after)) (hdone : answer ≠ .ok .more)
    (callers : List (List Invocation))
    : Ledger.noteAll { current := some is, callers } (c.readEntries table vars) = { current := some is, callers } ∧
        Tells is d := by
  rw [readEntries_of_done hstep hdone]
  exact ⟨rfl, h.keepsFrames (step_cases hstep hdone).1⟩

/--
While the next tag is read, macros are opened and closed as it is noted, and it stands in the current frame.
-/
theorem Tells.next (h : Tells is c) (table : MacroTable) (vars : Variables) (callers : List (List Invocation))
    : ∃ later,
        Ledger.noteAll { current := some is, callers } (c.readEntries table vars) = { current := some later, callers } ∧
        Tells later (c.next table Tag.resolve vars).2.1 ∧
        ∀ tag, (c.next table Tag.resolve vars).1 = .ok (some tag) →
          tag ∈ (c.next table Tag.resolve vars).2.1.frameTags := by
  fun_induction Cursor.next table Tag.resolve c vars generalizing is with
  | case1 c vars e d after hstep =>
    obtain ⟨hnoted, htells⟩ := h.step_done hstep (by simp) callers
    exact ⟨is, hnoted, htells, by simp⟩
  | case2 c vars tag d after hstep =>
    obtain ⟨hnoted, htells⟩ := h.step_done hstep (by simp) callers
    refine ⟨is, hnoted, htells, ?_⟩
    intro other hother
    cases hother
    exact (step_cases hstep (by simp)).2 tag rfl
  | case3 c vars d after hstep =>
    obtain ⟨hnoted, htells⟩ := h.step_done hstep (by simp) callers
    exact ⟨is, hnoted, htells, by simp⟩
  | case4 c vars d after hstep ih =>
    obtain ⟨between, hnoted, htells⟩ := h.step_more hstep callers
    obtain ⟨later, hlater, hrest⟩ := ih htells
    refine ⟨later, ?_, hrest⟩
    rw [readEntries_of_more hstep, Ledger.noteAll_cons, hnoted, hlater]

end Cursor
end VisualNovel
