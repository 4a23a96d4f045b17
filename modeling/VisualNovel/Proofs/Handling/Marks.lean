import VisualNovel.Proofs.Handling.Change

/-!
This module contains where the save marks that are played come from. As long as no macro holds any, each of them stands
in the script itself, and a cursor stays on its script whatever is read and whatever directives do.
-/

namespace VisualNovel

/--
A macro without save marks.
-/
def Macro.Unmarked (m : Macro) : Prop :=
  ∀ tag ∈ m.tags, tag.directive? ≠ some .saveMark

def MacroTable.Unmarked (table : MacroTable) : Prop :=
  ∀ entry ∈ table.entries, entry.2.Unmarked

/--
A cursor that runs no macro with save marks.
-/
def Cursor.Unmarked (c : Cursor) : Prop :=
  ∀ m ∈ c.macros, m.Unmarked

namespace MacroTable

variable {table : MacroTable}

theorem Unmarked.find? (h : table.Unmarked) {name : String} {m : Macro} (hfind : table.find? name = some m)
    : m.Unmarked := by
  obtain ⟨before, after, hentries, _⟩ := List.lookup_eq_some_iff.1 hfind
  apply h (name, m)
  simp [hentries]

theorem Unmarked.erase (h : table.Unmarked) (name : String) : (table.erase name).Unmarked :=
  fun entry hentry => h entry (List.mem_filter.1 hentry).1

theorem Unmarked.define (h : table.Unmarked) {m : Macro} (hm : m.Unmarked) : (table.define m).Unmarked := by
  intro entry hentry
  cases hentry with
  | head => exact hm
  | tail _ hentry => exact h.erase m.name entry hentry

end MacroTable

namespace Cursor

variable {c d e : Cursor}

/--
The cursor is still on its script, and runs no macros but those that it has run.
-/
structure Remains (c d : Cursor) : Prop where
  file : d.file = c.file
  tags : d.tags = c.tags
  macros : ∀ m ∈ d.macros, ∃ old ∈ c.macros, m.tags = old.tags

theorem Remains.of_macros_eq (hfile : d.file = c.file) (htags : d.tags = c.tags) (hmacros : d.macros = c.macros)
    : Remains c d := by
  refine ⟨hfile, htags, ?_⟩
  intro m hm
  exact ⟨m, hmacros ▸ hm, rfl⟩

theorem Remains.refl (c : Cursor) : Remains c c :=
  of_macros_eq rfl rfl rfl

theorem Remains.trans (h : Remains c d) (h' : Remains d e) : Remains c e := by
  refine ⟨h'.file.trans h.file, h'.tags.trans h.tags, ?_⟩
  intro m hm
  obtain ⟨middle, hmiddle, hsame⟩ := h'.macros m hm
  obtain ⟨old, hold, hsame'⟩ := h.macros middle hmiddle
  exact ⟨old, hold, hsame.trans hsame'⟩

theorem Remains.unmarked (h : Remains c d) (hc : c.Unmarked) : d.Unmarked := by
  intro m hm
  obtain ⟨old, hold, hsame⟩ := h.macros m hm
  unfold Macro.Unmarked
  rw [hsame]
  exact hc old hold

theorem remains_setFramePoint (c : Cursor) (point : Nat) : Remains c (c.setFramePoint point) := by
  unfold setFramePoint
  split
  . next m ms hmacros =>
    refine ⟨rfl, rfl, ?_⟩
    intro other hother
    rw [hmacros]
    cases hother with
    | head => exact ⟨m, List.mem_cons_self .., rfl⟩
    | tail _ hother => exact ⟨other, List.mem_cons_of_mem _ hother, rfl⟩
  . exact .of_macros_eq rfl rfl rfl

theorem Moved.remains (h : Moved c d) : Remains c d := by
  obtain ⟨point, ifDepth, latest, rfl⟩ := h.eq_set
  exact (remains_setFramePoint c point).trans (.of_macros_eq rfl rfl rfl)

theorem remains_closeMacro (c : Cursor) : Remains c c.closeMacro := by
  unfold closeMacro
  split
  . exact .refl c
  . next m ms hmacros =>
    refine ⟨rfl, rfl, ?_⟩
    intro other hother
    exact ⟨other, by rw [hmacros]; exact List.mem_cons_of_mem _ hother, rfl⟩

/-! ### Reading -/

section Reading

variable {σ : Type} {table : MacroTable} (resolve : Resolver σ) (s : σ)

theorem mem_tags_of_take? {tag : Tag} (hc : c.Unmarked) (htake : c.take? = some (tag, d))
    (hmark : tag.directive? = some .saveMark) : tag ∈ c.tags := by
  unfold take? at htake
  split at htake
  . next m ms hmacros =>
    simp only [Macro.next?, Option.map_map, Option.map_eq_some_iff] at htake
    obtain ⟨other, hother, heq⟩ := htake
    cases heq
    -- the tag comes from a macro
    exact (hc m (by rw [hmacros]; exact List.mem_cons_self ..) other (List.mem_of_getElem? hother) hmark).elim
  . simp only [Option.map_eq_some_iff] at htake
    obtain ⟨other, hother, heq⟩ := htake
    cases heq
    exact List.mem_of_getElem? hother

theorem step_unmarked (htable : table.Unmarked) (hc : c.Unmarked)
    : (c.step table resolve s).2.1.file = c.file ∧ (c.step table resolve s).2.1.tags = c.tags ∧
        (c.step table resolve s).2.1.Unmarked ∧
        ∀ tag, (c.step table resolve s).1 = .ok (.read tag) → tag.directive? = some .saveMark → tag ∈ c.tags := by
  unfold step
  split
  . split
    . exact ⟨rfl, rfl, hc, fun _ h => by cases h⟩
    . have hclosed := remains_closeMacro c
      exact ⟨hclosed.file, hclosed.tags, hclosed.unmarked hc, fun _ h => by cases h⟩
  . next tag d htake =>
    have htaken := (Moved.take? htake).remains
    split
    . refine ⟨htaken.file, htaken.tags, htaken.unmarked hc, ?_⟩
      intro other hother hmark
      cases hother
      exact mem_tags_of_take? hc htake hmark
    . next definition hfind =>
      split
      . exact ⟨htaken.file, htaken.tags, htaken.unmarked hc, fun _ h => by cases h⟩
      . split
        . exact ⟨htaken.file, htaken.tags, htaken.unmarked hc, fun _ h => by cases h⟩
        . next opened hopen =>
          unfold openMacro at hopen
          split at hopen
          . cases hopen
            refine ⟨htaken.file, htaken.tags, ?_, fun _ h => by cases h⟩
            intro m hm
            cases hm with
            | head => exact (htable.find? hfind : definition.Unmarked)
            | tail _ hm => exact htaken.unmarked hc m hm
          . cases hopen

/--
The next tag is no save mark, or one that stands in the script, on which the cursor remains.
-/
theorem next_unmarked (htable : table.Unmarked) (hc : c.Unmarked)
    : (c.next table resolve s).2.1.file = c.file ∧ (c.next table resolve s).2.1.tags = c.tags ∧
        (c.next table resolve s).2.1.Unmarked ∧
        ∀ tag, (c.next table resolve s).1 = .ok (some tag) → tag.directive? = some .saveMark → tag ∈ c.tags := by
  fun_induction next table resolve c s with
  | case1 c s e d t hstep =>
    have h := step_unmarked resolve s htable hc
    rw [hstep] at h
    exact ⟨h.1, h.2.1, h.2.2.1, fun _ h => by cases h⟩
  | case2 c s tag d t hstep =>
    have h := step_unmarked resolve s htable hc
    rw [hstep] at h
    refine ⟨h.1, h.2.1, h.2.2.1, ?_⟩
    intro other hother
    cases hother
    exact h.2.2.2 tag rfl
  | case3 c s d t hstep =>
    have h := step_unmarked resolve s htable hc
    rw [hstep] at h
    exact ⟨h.1, h.2.1, h.2.2.1, fun _ h => by cases h⟩
  | case4 c s d t hstep ih =>
    have h := step_unmarked resolve s htable hc
    rw [hstep] at h
    obtain ⟨hfile, htags, hd, hread⟩ := ih h.2.2.1
    exact ⟨hfile.trans h.1, htags.trans h.2.1, hd, fun tag htag hmark => h.2.1 ▸ hread tag htag hmark⟩

end Reading

end Cursor

namespace Play

open Cursor

/-! ### Directives -/

theorem remains_startLoop (loops : Nat) (indexVariable : String) (scene : Scene)
    : Remains scene.cursor ((startLoop loops indexVariable).cursorAfter scene) := by
  unfold startLoop cursorAfter
  split
  . obtain ⟨e, h⟩ | ⟨cursor, h, hmoved⟩ := run_skipBody_cases scene
    . rw [h]
      exact .refl _
    . rw [h]
      exact hmoved.remains
  . exact .of_macros_eq rfl rfl rfl

theorem remains_endRound (scene : Scene) : Remains scene.cursor (endRound.cursorAfter scene) := by
  unfold endRound cursorAfter
  rw [run_get_bind]
  dsimp only
  split
  . exact .refl _
  . split
    . exact .refl _
    . next frame frames _ _ =>
      split
      . have hround
            : Remains scene.cursor
                { scene.cursor with loops := { frame with count := frame.count + 1 } :: frames } :=
          .of_macros_eq rfl rfl rfl
        exact hround.trans (remains_setFramePoint _ _)
      . exact .of_macros_eq rfl rfl rfl

theorem remains_breakLoop (scene : Scene) : Remains scene.cursor (breakLoop.cursorAfter scene) := by
  unfold breakLoop cursorAfter
  rw [run_get_bind]
  dsimp only
  split
  . exact .refl _
  . split
    . exact .refl _
    . rw [run_bind]
      obtain ⟨e, h⟩ | ⟨cursor, h, hmoved⟩ := run_skipBody_cases scene
      . rw [h]
        exact .refl _
      . rw [h]
        exact hmoved.remains.trans (.of_macros_eq rfl rfl rfl)

theorem unmarked_readBody {name : String} {line : Nat} {tags body : List Tag}
    (h : readBody name line tags = .ok body) : ∀ tag ∈ body, tag.directive? ≠ some .saveMark := by
  induction tags generalizing body with
  | nil => cases h
  | cons tag tags ih =>
    unfold readBody at h
    split at h
    . cases h
      exact nofun
    . cases h
    . cases h
    . cases h
    . next hmark _ =>
      cases hrest : readBody name line tags with
      | error e =>
        rw [hrest] at h
        cases h
      | ok rest =>
        rw [hrest] at h
        cases h
        exact List.forall_mem_cons.2 ⟨hmark, ih hrest⟩

/--
A macro that a script defines has no save marks.
-/
theorem unmarked_define {written : String} {scene : Scene} {m : Macro}
    (h : ((define written).run.run scene).1 = .ok m) : m.Unmarked := by
  unfold define at h
  rw [run_get_bind] at h
  dsimp only at h
  split at h
  . cases h
  . split at h
    . cases h
    . split at h
      . cases h
      . next tags hbody =>
        unfold modifyCursor at h
        rw [run_modify_bind] at h
        split at h
        . cases h
        . cases h
          exact unmarked_readBody hbody

end Play
end VisualNovel
