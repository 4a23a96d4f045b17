import VisualNovel.Cursor.Trace
import VisualNovel.Proofs.Reading
import VisualNovel.Proofs.Structured.Program

/-!
This module contains the dispatch loop of branches and loops: tags are read one after another, directives are
obeyed, and all other tags are leaves. Where a cursor gets to is described from where it stands, by a number of
tags.
-/

namespace VisualNovel

namespace Cursor

/--
The cursor a number of tags further on in its frame, with other conditionals, loops and latest tag.
-/
def moved (c : Cursor) (count ifDepth : Nat) (loops : List LoopFrame) (latest : Option Tag) : Cursor :=
  { c.skip count with ifDepth, loops, latest }

section Moved

variable (c : Cursor) (count ifDepth : Nat) (loops : List LoopFrame) (latest : Option Tag)

@[simp]
theorem unread_moved : (c.moved count ifDepth loops latest).unread = c.unread.drop count :=
  c.unread_skip count

@[simp]
theorem parameters_moved : (c.moved count ifDepth loops latest).parameters = c.parameters :=
  c.parameters_skip count

@[simp]
theorem macroDepth_moved : (c.moved count ifDepth loops latest).macroDepth = c.macroDepth :=
  c.macroDepth_skip count

@[simp]
theorem maxDepth_moved : (c.moved count ifDepth loops latest).maxDepth = c.maxDepth :=
  c.maxDepth_skip count

@[simp]
theorem ifDepth_moved : (c.moved count ifDepth loops latest).ifDepth = ifDepth :=
  rfl

@[simp]
theorem loops_moved : (c.moved count ifDepth loops latest).loops = loops :=
  rfl

@[simp]
theorem latest_moved : (c.moved count ifDepth loops latest).latest = latest :=
  rfl

@[simp]
theorem framePoint_moved
    : (c.moved count ifDepth loops latest).framePoint = c.framePoint + count := by
  unfold moved skip setFramePoint framePoint
  cases hm : c.macros <;> simp

@[simp]
theorem moved_moved (count' ifDepth' : Nat) (loops' : List LoopFrame) (latest' : Option Tag)
    : (c.moved count ifDepth loops latest).moved count' ifDepth' loops' latest'
        =
      c.moved (count + count') ifDepth' loops' latest' := by
  unfold moved skip setFramePoint framePoint
  cases hm : c.macros <;> simp [Nat.add_assoc]

theorem skip_moved (count' : Nat)
    : (c.moved count ifDepth loops latest).skip count'
        =
      c.moved (count + count') ifDepth loops latest := by
  unfold moved skip setFramePoint framePoint
  cases hm : c.macros <;> simp [Nat.add_assoc]

theorem setFramePoint_moved (start : Nat)
    : (c.moved count ifDepth loops latest).setFramePoint (c.framePoint + start)
        =
      c.moved start ifDepth loops latest := by
  unfold moved skip setFramePoint framePoint
  cases hm : c.macros <;> simp

theorem moved_zero_enter (m : Macro) (parameters : Fields)
    : ((c.moved count ifDepth loops latest).enter m parameters).moved 0 ifDepth loops latest
        =
      (c.moved count ifDepth loops latest).enter m parameters := by
  unfold moved enter skip setFramePoint framePoint
  cases c.macros <;> rfl

theorem moved_zero : c.moved 0 c.ifDepth c.loops c.latest = c := by
  unfold moved skip setFramePoint framePoint
  cases c with
  | mk file tags maxDepth point macros => cases macros <;> rfl

end Moved

theorem closeMacro_moved_enter (c : Cursor) (count ifDepth : Nat) (loops : List LoopFrame)
    (latest : Option Tag) (m : Macro) (parameters : Fields) (count' ifDepth' : Nat)
    (loops' : List LoopFrame) (latest' : Option Tag)
    : (((c.moved count ifDepth loops latest).enter m parameters).moved count' ifDepth' loops'
        latest').closeMacro
        =
      c.moved (count + 1) ifDepth' (loops'.filter (·.depth ≤ c.macroDepth)) latest' := by
  unfold moved enter closeMacro macroDepth skip setFramePoint framePoint
  cases c.macros <;> simp [Nat.add_assoc]

end Cursor

namespace Structured

section Drive

variable (table : MacroTable) (act : LeafAction)

/--
Reads and obeys up to a number of tags. Returns the leaves, and why this came to an end.
-/
def drive : Nat → Scene → List Row × Trace.Ending
  | 0, _ => ([], .full)
  | limit + 1, scene =>
    match scene.cursor.next table .written () with
    | (.error e, _, _) => ([], .failed e)
    | (.ok none, _, _) => ([], .finished)
    | (.ok (some tag), cursor, _) =>
      if tag.isStructural then
        match (Play.perform tag).run.run { scene with cursor } with
        | (.error e, _) => ([], .failed e)
        | (.ok _, scene) => drive limit scene
      else
        let row : Row := ⟨tag, cursor.parameters, scene.vars⟩
        match (act tag cursor.parameters).run.run scene.vars with
        | (.error e, _) => ([row], .failed e)
        | (.ok (), vars) =>
          let (rows, ending) := drive limit { cursor, vars }
          (row :: rows, ending)

/--
What is driven from somewhere on, for any number of tags.
-/
abbrev Course := Nat → List Row × Trace.Ending

/--
A course that delivers some leaves on its way to a scene.
-/
def Course.Leads (course : Course) (rows : List Row) (scene : Scene) : Prop :=
  ∃ n, ∀ limit, course (n + limit) =
    (rows ++ (drive table act limit scene).1, (drive table act limit scene).2)

def Course.Fails (course : Course) (rows : List Row) (e : CursorError) : Prop :=
  ∃ n, ∀ limit, course (n + limit) = (rows, .failed e)

def Course.of (scene : Scene) : Course :=
  fun limit => drive table act limit scene

def Course.after {α : Type} (first : Play α) (scene : Scene) : Course :=
  fun limit =>
    match first.run.run scene with
    | (.error e, _) => ([], .failed e)
    | (.ok _, scene) => drive table act limit scene

end Drive

section Course

variable {table : MacroTable} {act : LeafAction} {course course' : Course} {rows rows' : List Row}
  {scene scene' : Scene} {e : CursorError}

theorem Course.leads_refl (scene : Scene) : (Course.of table act scene).Leads table act [] scene := by
  exists 0
  intro limit
  simp [Course.of]

theorem Course.Leads.trans (h : course.Leads table act rows scene)
    (h' : (Course.of table act scene).Leads table act rows' scene')
    : course.Leads table act (rows ++ rows') scene' := by
  obtain ⟨n, hn⟩ := h
  obtain ⟨m, hm⟩ := h'
  exists n + m
  intro limit
  have hm := hm limit
  unfold Course.of at hm
  rw [Nat.add_assoc, hn, hm, List.append_assoc]

theorem Course.Leads.fails (h : course.Leads table act rows scene)
    (h' : (Course.of table act scene).Fails rows' e) : course.Fails (rows ++ rows') e := by
  obtain ⟨n, hn⟩ := h
  obtain ⟨m, hm⟩ := h'
  exists n + m
  intro limit
  have hm := hm limit
  unfold Course.of at hm
  rw [Nat.add_assoc, hn, hm]

theorem Course.Leads.of_step (hstep : ∀ limit, course (limit + 1) = course' limit)
    (h : course'.Leads table act rows scene) : course.Leads table act rows scene := by
  obtain ⟨n, hn⟩ := h
  exists n + 1
  intro limit
  rw [Nat.add_right_comm, hstep, hn]

theorem Course.Fails.of_step (hstep : ∀ limit, course (limit + 1) = course' limit)
    (h : course'.Fails rows e) : course.Fails rows e := by
  obtain ⟨n, hn⟩ := h
  exists n + 1
  intro limit
  rw [Nat.add_right_comm, hstep, hn]

theorem Course.fails_of_step (hstep : ∀ limit, course (limit + 1) = (rows, .failed e))
    : course.Fails rows e := by
  exists 1
  intro limit
  rw [Nat.add_comm, hstep]

theorem Course.after_ok {α : Type} {first : Play α} {a : α} (h : first.run.run scene = (.ok a, scene'))
    : Course.after table act first scene = Course.of table act scene' := by
  funext limit
  unfold Course.after Course.of
  rw [h]

theorem Course.after_return {α β : Type} (first : Play α) (b : β) (scene : Scene)
    : Course.after table act (do let _ ← first; return b) scene = Course.after table act first scene := by
  funext limit
  unfold Course.after
  simp only [ExceptT.run_bind, StateT.run_bind]
  generalize first.run.run scene = result
  obtain ⟨result, scene'⟩ := result
  cases result <;> rfl

end Course

/-! ### One tag -/

section Step

variable {table : MacroTable} {act : LeafAction} {c : Cursor} {count ifDepth : Nat}
  {loops : List LoopFrame} {latest : Option Tag} {vars : Variables} {tag : Tag} {rest : List Tag}

theorem next_moved {σ : Type} {resolve : Resolver σ} {s : σ} (h : c.unread.drop count = tag :: rest)
    (hfind : table.find? tag.name = none)
    : (c.moved count ifDepth loops latest).next table resolve s
        =
      (.ok (some tag), c.moved (count + 1) ifDepth loops (some tag), s) := by
  rw [Cursor.next_of_tag (by simpa using h) hfind, Cursor.skip_moved]
  rfl

theorem drive_structural (h : c.unread.drop count = tag :: rest) (hfind : table.find? tag.name = none)
    (htag : tag.isStructural = true) (limit : Nat)
    : Course.of table act { cursor := c.moved count ifDepth loops latest, vars } (limit + 1)
        =
      Course.after table act (Play.perform tag)
        { cursor := c.moved (count + 1) ifDepth loops (some tag), vars } limit := by
  unfold Course.of Course.after
  rw [drive]
  simp only [next_moved h hfind, htag, if_true]
  split <;> simp_all

theorem leads_of_leaf {vars' : Variables} (h : c.unread.drop count = tag :: rest)
    (hfind : table.find? tag.name = none) (htag : tag.isStructural = false)
    (hact : (act tag c.parameters).run.run vars = (.ok (), vars'))
    : (Course.of table act { cursor := c.moved count ifDepth loops latest, vars }).Leads table act
        [⟨tag, c.parameters, vars⟩]
        { cursor := c.moved (count + 1) ifDepth loops (some tag), vars := vars' } := by
  exists 1
  intro limit
  unfold Course.of
  rw [Nat.add_comm, drive]
  simp only [next_moved h hfind, htag, Bool.false_eq_true, if_false, Cursor.parameters_moved, hact]
  rfl

theorem fails_of_leaf {vars' : Variables} {e : CursorError} (h : c.unread.drop count = tag :: rest)
    (hfind : table.find? tag.name = none) (htag : tag.isStructural = false)
    (hact : (act tag c.parameters).run.run vars = (.error e, vars'))
    : (Course.of table act { cursor := c.moved count ifDepth loops latest, vars }).Fails
        [⟨tag, c.parameters, vars⟩] e := by
  apply Course.fails_of_step
  intro limit
  unfold Course.of
  rw [drive]
  simp only [next_moved h hfind, htag, Bool.false_eq_true, if_false, Cursor.parameters_moved, hact]

theorem fails_of_too_deep {m : Macro} (h : c.unread.drop count = tag :: rest)
    (hfind : table.find? tag.name = some m) (hdepth : c.maxDepth ≤ c.macroDepth)
    : (Course.of table act { cursor := c.moved count ifDepth loops latest, vars }).Fails []
        (.macroDepth m.name c.maxDepth) := by
  apply Course.fails_of_step
  intro limit
  unfold Course.of
  rw [drive, Cursor.next_of_too_deep (by simpa using h) hfind rfl (by simpa using hdepth),
    Cursor.maxDepth_moved]

theorem drive_congr {cursor cursor' : Cursor}
    (h : cursor.next table .written () = cursor'.next table .written ())
    : Course.of table act { cursor, vars } = Course.of table act { cursor := cursor', vars } := by
  funext limit
  unfold Course.of
  cases limit with
  | zero => rfl
  | succ limit =>
    rw [drive, drive]
    simp only [h]

theorem of_call {m : Macro} (h : c.unread.drop count = tag :: rest)
    (hfind : table.find? tag.name = some m) (hdepth : c.macroDepth < c.maxDepth)
    : Course.of table act { cursor := c.moved count ifDepth loops latest, vars }
        =
      .of table act { cursor := (c.moved count ifDepth loops latest).enter m tag.values, vars } := by
  apply drive_congr
  exact Cursor.next_of_call (by simpa using h) hfind rfl (by simpa using hdepth)

theorem of_frame_end {cursor : Cursor} (h : cursor.unread = []) (hm : cursor.macros ≠ [])
    : Course.of table act { cursor, vars } = .of table act { cursor := cursor.closeMacro, vars } := by
  apply drive_congr
  exact Cursor.next_of_frame_end h hm

end Step

end Structured
end VisualNovel
