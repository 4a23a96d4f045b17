import VisualNovel.Proofs.Handling.Chronicle
import VisualNovel.Proofs.Peeking

/-!
This module contains that a jump to a label or a save mark does not depend on what has been done with the cursor before. It
leads behind the first tag of the name, with nothing open, and there is one exactly if the listings of the script show it.
-/

namespace VisualNovel
namespace Cursor

/--
The cursor stands behind the first tag of the script that passes a test. Nothing is open in it, and it reads on there.
-/
structure LandsBehind (c : Cursor) (test : Tag → Bool) (d : Cursor) : Prop where
  same : d.restart = c.restart
  closed : d.macros = [] ∧ d.ifDepth = 0 ∧ d.loops = [] ∧ d.latest = none
  first : ∃ before tag behind, c.tags = before ++ tag :: behind ∧ (∀ other ∈ before, test other = false) ∧
    test tag = true ∧ d.point = before.length + 1 ∧ d.ReadsFirst behind.head?

/--
Moves behind the first tag that passes a test.
-/
def goToFirst (c : Cursor) (test : Tag → Bool) (e : CursorError) : Except CursorError Cursor :=
  match c.tags.findIdx? test with
  | some i => .ok (c.goTo (i + 1))
  | none => .error e

variable {c d : Cursor} {test : Tag → Bool} {e : CursorError} {name : String}

theorem goToLabel_eq (c : Cursor) (name : String)
    : c.goToLabel name = c.goToFirst (isLabel name) (.labelNotFound c.file name) :=
  rfl

theorem goToSaveMark_eq (c : Cursor) (name : String)
    : c.goToSaveMark name = c.goToFirst (isSaveMark name) (.saveMarkNotFound c.file name) :=
  rfl

/-! ### Where a jump leads -/

theorem exists_goToFirst_iff : (∃ d, c.goToFirst test e = .ok d) ↔ ∃ tag ∈ c.tags, test tag = true := by
  unfold goToFirst
  cases hfind : c.tags.findIdx? test with
  | none =>
    have hnone := List.findIdx?_eq_none_iff.1 hfind
    constructor
    . rintro ⟨d, hd⟩
      cases hd
    . rintro ⟨tag, htag, hpasses⟩
      rw [hnone tag htag] at hpasses
      cases hpasses
  | some i =>
    obtain ⟨hi, hpasses, _⟩ := List.findIdx?_eq_some_iff_getElem.1 hfind
    constructor
    . intro _
      exact ⟨c.tags[i], List.getElem_mem hi, hpasses⟩
    . intro _
      exact ⟨_, rfl⟩

theorem landsBehind_of_goToFirst (h : c.goToFirst test e = .ok d) : c.LandsBehind test d := by
  unfold goToFirst at h
  split at h
  . next i hfind =>
    cases h
    obtain ⟨hi, hpasses, hfirst⟩ := List.findIdx?_eq_some_iff_getElem.1 hfind
    refine ⟨rfl, ⟨rfl, rfl, rfl, rfl⟩, c.tags.take i, c.tags[i], c.tags.drop (i + 1), ?_, ?_, hpasses, ?_, ?_⟩
    . rw [← List.drop_eq_getElem_cons hi, List.take_append_drop]
    . intro other hother
      obtain ⟨j, hj, rfl⟩ := List.mem_take_iff_getElem.1 hother
      have := hfirst j (by omega)
      simpa using this
    . unfold goTo
      rw [List.length_take]
      dsimp only
      omega
    . have hunread : (c.goTo (i + 1)).unread = c.tags.drop (i + 1) :=
        congrArg (List.drop · c.tags) (Nat.min_eq_left hi)
      rw [← hunread, head?_unread_of_macros_nil rfl]
      exact readsFirst_peek? _
  . cases h

/-! ### The listings -/

theorem mem_labels_iff : name ∈ c.labels ↔ ∃ tag ∈ c.tags, isLabel name tag = true := by
  simp [labels, isLabel, and_assoc]

theorem exists_mem_saveMarks_iff
    (hnamed : ∀ tag ∈ c.tags, tag.directive? = some .saveMark → (tag.string? "name").isSome)
    : (∃ mark ∈ c.saveMarks, mark.name = name) ↔ ∃ tag ∈ c.tags, isSaveMark name tag = true := by
  constructor
  . rintro ⟨mark, hmark, rfl⟩
    obtain ⟨tag, htag, rfl⟩ := List.mem_map.1 hmark
    obtain ⟨hmem, hdirective⟩ := List.mem_filter.1 htag
    obtain ⟨written, hwritten⟩ := Option.isSome_iff_exists.1 (hnamed tag hmem (by simpa using hdirective))
    exact ⟨tag, hmem, by simp [isSaveMark, hdirective, hwritten]⟩
  . rintro ⟨tag, hmem, hmark⟩
    obtain ⟨hdirective, hname⟩ := Bool.and_eq_true_iff.1 hmark
    refine ⟨_, List.mem_map.2 ⟨tag, List.mem_filter.2 ⟨hmem, hdirective⟩, rfl⟩, ?_⟩
    rw [beq_iff_eq] at hname
    rw [hname, Option.getD_some]

/-! ### What has been done before -/

@[simp]
theorem tags_restart (c : Cursor) : c.restart.tags = c.tags :=
  rfl

theorem restart_setFramePoint (c : Cursor) (point : Nat) : (c.setFramePoint point).restart = c.restart := by
  unfold setFramePoint
  cases c.macros <;> rfl

theorem restart_closeMacro (c : Cursor) : c.closeMacro.restart = c.restart := by
  unfold closeMacro
  cases c.macros <;> rfl

theorem Moved.restart_eq (h : Moved c d) : d.restart = c.restart := by
  obtain ⟨point, ifDepth, latest, rfl⟩ := h.eq_set
  exact restart_setFramePoint c point

theorem Reshaped.restart_eq (h : Reshaped c d) : d.restart = c.restart := by
  cases h with
  | openLoop | closeLoop | openMacro | reset => rfl
  | @nextRound frame frames => exact restart_setFramePoint { c with loops := _ } frame.start
  | closeMacro => exact restart_closeMacro c

theorem Changed.restart_eq (h : Changed c d) : d.restart = c.restart := by
  obtain ⟨b, hmoved, rfl | hreshaped⟩ := h.steps
  . exact hmoved.restart_eq
  . exact hreshaped.restart_eq.trans hmoved.restart_eq

theorem restart_next {σ : Type} (table : MacroTable) (resolve : Resolver σ) (c : Cursor) (s : σ)
    : (c.next table resolve s).2.1.restart = c.restart := by
  have hstep (c : Cursor) (s : σ) := (changed_step table resolve c s).restart_eq
  fun_induction c.next table resolve s with
  | case1 c s e d t h | case2 c s tag d t h | case3 c s d t h =>
    have hd := hstep c s
    rw [h] at hd
    exact hd
  | case4 c s d t h ih =>
    have hd := hstep c s
    rw [h] at hd
    exact ih.trans hd

theorem restart_apply (op : Operation) (c : Cursor) : (op.apply c).restart = c.restart := by
  cases op with
  | restart => exact (changed_restart c).restart_eq
  | goTo point => exact (changed_goTo c point).restart_eq
  | goToLabel name => exact (changed_goToLabel c name).restart_eq
  | goToSaveMark name => exact (changed_goToSaveMark c name).restart_eq
  | read table resolve state => exact restart_next table resolve c state
  | instruct instruction vars => exact (instruction.changed_play { cursor := c, vars }).restart_eq

/--
Whatever is done with a cursor, it stays on its script.
-/
theorem restart_applyAll (c : Cursor) (x : Chronicle) (ops : List Operation)
    : (Operation.applyAll c x ops).1.restart = c.restart := by
  induction ops generalizing c x with
  | nil => rfl
  | cons op ops ih => exact (ih (op.apply c) (op.record x c)).trans (restart_apply op c)

theorem goToLabel_restart (c : Cursor) (name : String) : c.restart.goToLabel name = c.goToLabel name :=
  rfl

theorem goToSaveMark_restart (c : Cursor) (name : String) : c.restart.goToSaveMark name = c.goToSaveMark name :=
  rfl

/--
Whatever has been done with a cursor, a jump leads it where it would lead from the start of the script, and the listings
show which jumps there are.
-/
theorem jumps_agree_with_listings (c : Cursor) (x : Chronicle) (ops : List Operation)
    (hnamed : ∀ tag ∈ c.tags, tag.directive? = some .saveMark → (tag.string? "name").isSome) (name : String)
    : let s := (Operation.applyAll c x ops).1
      ((∃ d, s.goToLabel name = .ok d) ↔ name ∈ s.labels) ∧
        ((∃ d, s.goToSaveMark name = .ok d) ↔ ∃ mark ∈ s.saveMarks, mark.name = name) ∧
        (∀ d, s.goToLabel name = .ok d →
          s.restart.goToLabel name = .ok d ∧ c.goToLabel name = .ok d ∧ s.LandsBehind (isLabel name) d) ∧
        ∀ d, s.goToSaveMark name = .ok d →
          s.restart.goToSaveMark name = .ok d ∧ c.goToSaveMark name = .ok d ∧ s.LandsBehind (isSaveMark name) d := by
  have hrestart := restart_applyAll c x ops
  generalize (Operation.applyAll c x ops).1 = s at hrestart
  have htags : s.tags = c.tags := by rw [← tags_restart, hrestart, tags_restart]
  rw [← htags] at hnamed
  -- A jump restarts the cursor first, so nothing but the script is left of what has been done before.
  refine ⟨?_, ?_, fun d hd => ⟨hd, ?_, ?_⟩, fun d hd => ⟨hd, ?_, ?_⟩⟩
  . rw [goToLabel_eq, exists_goToFirst_iff, mem_labels_iff]
  . rw [goToSaveMark_eq, exists_goToFirst_iff, exists_mem_saveMarks_iff hnamed]
  . rw [← goToLabel_restart, ← hrestart]
    exact hd
  . exact landsBehind_of_goToFirst hd
  . rw [← goToSaveMark_restart, ← hrestart]
    exact hd
  . exact landsBehind_of_goToFirst hd

section Sample

/--
A script with a label and two marks of one name, in a macro and in a loop.
-/
def sampleRunning : Cursor where
  file := "start"
  tags := [.label "m" 1, .saveMark "m" "" "m|" 2, .lineBreak 3, .saveMark "m" "again" "m|again" 4, .stop 5]
  maxDepth := 4
  point := 3
  macros := [{ name := "greet", tags := [.lineBreak 7, .lineBreak 8], line := 6, point := 1 }]
  loops := [{ start := 1, depth := 1, indexVariable := "i", loops := 2 }]

theorem jump_sampleRunning
    : let s := (Operation.applyAll sampleRunning {} [.instruct (.startLoop 3 "j") {}]).1
      let atLabel : Cursor := { sampleRunning.restart with point := 1 }
      let atMark : Cursor := { sampleRunning.restart with point := 2 }
      (∀ tag ∈ sampleRunning.tags, tag.directive? = some .saveMark → (tag.string? "name").isSome) ∧ s.loopDepth = 2 ∧
        (s.goToLabel "m" = .ok atLabel ∧ s.LandsBehind (isLabel "m") atLabel) ∧
        s.goToSaveMark "m" = .ok atMark ∧ s.LandsBehind (isSaveMark "m") atMark := by
  have hnamed : ∀ tag ∈ sampleRunning.tags, tag.directive? = some .saveMark → (tag.string? "name").isSome := by
    decide
  obtain ⟨_, _, hlabel, hmark⟩ :=
    jumps_agree_with_listings sampleRunning {} [.instruct (.startLoop 3 "j") {}] hnamed "m"
  exact ⟨hnamed, rfl, ⟨rfl, (hlabel _ rfl).2.2⟩, rfl, (hmark _ rfl).2.2⟩

end Sample

end Cursor
end VisualNovel
