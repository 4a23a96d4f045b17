import VisualNovel.Cursor.Reading

/-!
This module contains what the reading of a tag does to a cursor, one lemma for each kind of step, given the
tags that the current frame has left.
-/

namespace VisualNovel
namespace Cursor

variable {σ : Type}

theorem take?_of_unread_nil {c : Cursor} (h : c.unread = []) : c.take? = none := by
  unfold unread frameTags framePoint at h
  unfold take?
  split
  . next m ms hm =>
    rw [hm] at h
    simpa [Macro.next?] using h
  . next hm =>
    rw [hm] at h
    simpa using h

theorem take?_of_unread_cons {c : Cursor} {tag : Tag} {rest : List Tag}
    (h : c.unread = tag :: rest) : c.take? = some (tag, c.skip 1) := by
  unfold unread frameTags framePoint at h
  unfold take? skip setFramePoint framePoint
  cases hm : c.macros with
  | cons m ms =>
    rw [hm] at h
    have : m.tags[m.point]? = some tag := by
      rw [← List.head?_drop, h, List.head?_cons]
    simp [Macro.next?, this]
  | nil =>
    rw [hm] at h
    have : c.tags[c.point]? = some tag := by
      rw [← List.head?_drop, h, List.head?_cons]
    simp [this]

@[simp]
theorem unread_skip (c : Cursor) (count : Nat) : (c.skip count).unread = c.unread.drop count := by
  unfold unread skip setFramePoint frameTags framePoint
  cases c.macros <;> simp [List.drop_drop]

@[simp]
theorem parameters_skip (c : Cursor) (count : Nat) : (c.skip count).parameters = c.parameters := by
  unfold skip setFramePoint framePoint parameters
  cases c.macros <;> simp

@[simp]
theorem macroDepth_skip (c : Cursor) (count : Nat) : (c.skip count).macroDepth = c.macroDepth := by
  unfold skip setFramePoint framePoint macroDepth
  cases c.macros <;> simp

@[simp]
theorem maxDepth_skip (c : Cursor) (count : Nat) : (c.skip count).maxDepth = c.maxDepth := by
  unfold skip setFramePoint framePoint
  cases c.macros <;> simp

section Next

variable {table : MacroTable} {resolve : Resolver σ} {c : Cursor} {s t : σ} {tag : Tag} {rest : List Tag}
  {m : Macro}

theorem next_eq (table : MacroTable) (resolve : Resolver σ) (c : Cursor) (s : σ)
    : c.next table resolve s
        =
      match c.step table resolve s with
      | (.error e, c, s) => (.error e, c, s)
      | (.ok (.read tag), c, s) => (.ok (some tag), c, s)
      | (.ok .finished, c, s) => (.ok none, c, s)
      | (.ok .more, d, s) => d.next table resolve s := by
  rw [next]
  split <;> simp_all

theorem next_of_step_more {d : Cursor} (h : c.step table resolve s = (.ok .more, d, t))
    : c.next table resolve s = d.next table resolve t := by
  rw [next_eq, h]

/--
Where a step does not lead on, the reading ends with it.
-/
theorem next_cursor_of_end {result : Except CursorError Progress} {d : Cursor}
    (h : c.step table resolve s = (result, d, t)) (hend : result ≠ .ok .more)
    : (c.next table resolve s).2.1 = d := by
  rw [next_eq, h]
  match result with
  | .error _ | .ok (.read _) | .ok .finished => rfl
  | .ok .more => exact absurd rfl hend

/--
The cursor behind a call, with the macro of the call running.
-/
def enter (c : Cursor) (m : Macro) (parameters : Fields) : Cursor :=
  { c.skip 1 with macros := m.instantiate parameters :: (c.skip 1).macros }

@[simp]
theorem unread_enter (parameters : Fields) : (c.enter m parameters).unread = m.tags :=
  rfl

@[simp]
theorem parameters_enter (parameters : Fields) : (c.enter m parameters).parameters = some parameters :=
  rfl

@[simp]
theorem macroDepth_enter (parameters : Fields) : (c.enter m parameters).macroDepth = c.macroDepth + 1 := by
  rw [← c.macroDepth_skip 1]
  rfl

@[simp]
theorem maxDepth_enter (parameters : Fields) : (c.enter m parameters).maxDepth = c.maxDepth :=
  c.maxDepth_skip 1

theorem next_of_end (h : c.unread = []) (hm : c.macros = [])
    : c.next table resolve s = (.ok none, c, s) := by
  have : c.step table resolve s = (.ok .finished, c, s) := by
    simp [step, take?_of_unread_nil h, hm]
  rw [next_eq, this]

theorem next_of_frame_end (h : c.unread = []) (hm : c.macros ≠ [])
    : c.next table resolve s = c.closeMacro.next table resolve s := by
  apply next_of_step_more
  simp [step, take?_of_unread_nil h, hm]

theorem next_of_tag (h : c.unread = tag :: rest) (hfind : table.find? tag.name = none)
    : c.next table resolve s = (.ok (some tag), { c.skip 1 with latest := some tag }, s) := by
  have : c.step table resolve s = (.ok (.read tag), { c.skip 1 with latest := some tag }, s) := by
    simp [step, take?_of_unread_cons h, hfind]
  rw [next_eq, this]

theorem next_of_unresolved {e : CursorError} (h : c.unread = tag :: rest)
    (hfind : table.find? tag.name = some m)
    (hresolve : (resolve tag c.parameters).run.run s = (.error e, t))
    : c.next table resolve s = (.error e, c.skip 1, t) := by
  have : c.step table resolve s = (.error e, c.skip 1, t) := by
    simp [step, take?_of_unread_cons h, hfind, hresolve]
  rw [next_eq, this]

theorem next_of_too_deep {parameters : Fields} (h : c.unread = tag :: rest)
    (hfind : table.find? tag.name = some m)
    (hresolve : (resolve tag c.parameters).run.run s = (.ok parameters, t))
    (hdepth : c.maxDepth ≤ c.macroDepth)
    : c.next table resolve s = (.error (.macroDepth m.name c.maxDepth), c.skip 1, t) := by
  have : c.step table resolve s = (.error (.macroDepth m.name c.maxDepth), c.skip 1, t) := by
    simp [step, take?_of_unread_cons h, hfind, hresolve, openMacro, Nat.not_lt.2 hdepth]
  rw [next_eq, this]

theorem next_of_call {parameters : Fields} (h : c.unread = tag :: rest)
    (hfind : table.find? tag.name = some m)
    (hresolve : (resolve tag c.parameters).run.run s = (.ok parameters, t))
    (hdepth : c.macroDepth < c.maxDepth)
    : c.next table resolve s = (c.enter m parameters).next table resolve t := by
  apply next_of_step_more
  simp [step, take?_of_unread_cons h, hfind, hresolve, openMacro, hdepth, enter]

end Next
end Cursor
end VisualNovel
