import Mathlib.Data.List.Forall2
import VisualNovel.Proofs.Handling.Chronicle
import VisualNovel.Proofs.Reading

/-!
This module contains what holds of a cursor whatever has been done with it. An open loop belongs to the
invocation of a macro in which it was opened, and it is gone as soon as that is.
-/

namespace VisualNovel
namespace Cursor

/--
The tags of the frame in so many macros.
-/
def tagsAt (c : Cursor) (depth : Nat) : List Tag :=
  { c with macros := c.macros.drop (c.macroDepth - depth) }.frameTags

/--
An open loop was opened in an invocation that is still running, at a place in its tags, and has a round that
has not ended.
-/
structure Opened (c : Cursor) (x : Chronicle) (frame : LoopFrame) (origin : List Nat) : Prop where
  running : origin <:+ x.running
  depth_eq : frame.depth = origin.length
  depth_le : frame.depth ≤ c.macroDepth
  start_le : frame.start ≤ (c.tagsAt frame.depth).length
  count_lt : frame.count < frame.loops

structure Coherent (limit : Nat) (c : Cursor) (x : Chronicle) : Prop where
  limit_eq : c.maxDepth = limit
  point_le : c.point ≤ c.tags.length
  depth_le : c.macroDepth ≤ limit
  macros : ∀ m ∈ c.macros, m.point ≤ m.tags.length
  running_length : x.running.length = c.macroDepth
  running_lt : ∀ i ∈ x.running, i < x.opened
  running_nodup : x.running.Nodup
  loops : List.Forall₂ (Opened c x) c.loops x.origins
  sorted : c.loops.Pairwise fun inner outer => outer.depth ≤ inner.depth

variable {c d : Cursor} {x : Chronicle} {limit : Nat}

theorem tagsAt_macroDepth (c : Cursor) : c.tagsAt c.macroDepth = c.frameTags := by
  unfold tagsAt
  rw [Nat.sub_self, List.drop_zero]

theorem tagsAt_setFramePoint (c : Cursor) (point depth : Nat)
    : (c.setFramePoint point).tagsAt depth = c.tagsAt depth := by
  unfold tagsAt setFramePoint macroDepth
  cases hm : c.macros with
  | nil => simp [frameTags]
  | cons m ms =>
    simp only [List.length_cons]
    cases ms.length + 1 - depth <;> simp [frameTags]

theorem tagsAt_openMacro (m : Macro) {depth : Nat} (h : depth ≤ c.macroDepth)
    : { c with macros := m :: c.macros }.tagsAt depth = c.tagsAt depth := by
  unfold tagsAt
  unfold macroDepth at *
  dsimp only
  rw [List.length_cons, Nat.succ_sub h, List.drop_succ_cons]

theorem tagsAt_closeMacro {depth : Nat} (h : depth ≤ c.closeMacro.macroDepth)
    : c.closeMacro.tagsAt depth = c.tagsAt depth := by
  unfold closeMacro at *
  cases hm : c.macros with
  | nil => rfl
  | cons m ms =>
    simp only [hm] at h ⊢
    unfold tagsAt
    unfold macroDepth at *
    dsimp only at h ⊢
    rw [hm, List.length_cons, Nat.succ_sub h, List.drop_succ_cons]
    rfl

/--
The end of a macro leaves the macros and the loops outside of it.
-/
theorem closeMacro_eq {m : Macro} {ms : List Macro} (hm : c.macros = m :: ms)
    : c.closeMacro = { c with macros := ms, loops := c.loops.filter (·.depth ≤ ms.length) } := by
  unfold closeMacro
  rw [hm]

theorem macroDepth_closeMacro (hopen : c.macros ≠ []) : c.macroDepth = c.closeMacro.macroDepth + 1 := by
  obtain ⟨m, ms, hm⟩ := List.exists_cons_of_ne_nil hopen
  rw [closeMacro_eq hm]
  unfold macroDepth
  rw [hm]
  rfl

theorem frames_setFramePoint (c : Cursor) (point : Nat)
    : (c.setFramePoint point).macroDepth = c.macroDepth ∧ (c.setFramePoint point).loops = c.loops ∧
        (c.setFramePoint point).maxDepth = c.maxDepth ∧ (c.setFramePoint point).tags = c.tags := by
  unfold setFramePoint macroDepth
  cases c.macros <;> simp

theorem Opened.of_frames {frame : LoopFrame} {origin : List Nat} (h : Opened c x frame origin)
    (hdepth : d.macroDepth = c.macroDepth) (htags : d.tagsAt frame.depth = c.tagsAt frame.depth)
    : Opened d x frame origin :=
  { h with
    depth_le := hdepth ▸ h.depth_le
    start_le := htags ▸ h.start_le }

/--
A loop that the end of a macro leaves was opened outside of it.
-/
theorem Opened.closeMacro {frame : LoopFrame} {origin : List Nat} (h : Opened c x frame origin)
    (hlength : x.running.length = c.macroDepth) (hopen : c.macros ≠ [])
    (hframe : frame.depth ≤ c.closeMacro.macroDepth) (origins : List (List Nat))
    : Opened c.closeMacro { x with running := x.running.drop 1, origins } frame origin := by
  have hdepth := macroDepth_closeMacro hopen
  refine ⟨?_, h.depth_eq, hframe, ?_, h.count_lt⟩
  . obtain ⟨i, is, hrunning⟩ := List.exists_cons_of_length_eq_add_one (hlength.trans hdepth)
    have hsuffix := h.running
    have hshort := h.depth_eq
    rw [hrunning] at hlength hsuffix ⊢
    obtain rfl | hsuffix := List.suffix_cons_iff.1 hsuffix
    . omega
    . exact hsuffix
  . rw [tagsAt_closeMacro hframe]
    exact h.start_le

theorem follow_of_frames {b : Cursor} (hmacros : b.macroDepth = c.macroDepth) (hloops : b.loopDepth = c.loopDepth)
    : x.follow b d = x.follow c d := by
  unfold Chronicle.follow
  rw [hmacros, hloops]

/--
Nothing has been opened, so all that is left was there before.
-/
theorem follow_of_le (hmacros : d.macroDepth ≤ c.macroDepth) (hloops : d.loopDepth ≤ c.loopDepth)
    : x.follow c d
        =
      { x with
        running := x.running.drop (c.macroDepth - d.macroDepth)
        origins := x.origins.drop (c.loopDepth - d.loopDepth) } := by
  unfold Chronicle.follow
  simp only [Nat.not_lt.2 hmacros, Nat.not_lt.2 hloops, if_false]

theorem follow_eq_self (hmacros : d.macroDepth = c.macroDepth) (hloops : d.loopDepth = c.loopDepth)
    : x.follow c d = x := by
  rw [follow_of_le (Nat.le_of_eq hmacros) (Nat.le_of_eq hloops), hmacros, hloops, Nat.sub_self, Nat.sub_self,
    List.drop_zero, List.drop_zero]

theorem Moved.macroDepth_eq (h : Moved c d) : d.macroDepth = c.macroDepth := by
  obtain ⟨point, ifDepth, latest, rfl⟩ := h.eq_set
  exact (frames_setFramePoint c point).1

theorem Moved.loopDepth_eq (h : Moved c d) : d.loopDepth = c.loopDepth := by
  obtain ⟨point, ifDepth, latest, rfl⟩ := h.eq_set
  exact congrArg List.length (frames_setFramePoint c point).2.1

namespace Coherent

theorem framePoint_le (h : Coherent limit c x) : c.framePoint ≤ c.frameTags.length := by
  have hmacros := h.macros
  unfold framePoint frameTags
  cases hm : c.macros with
  | nil => exact h.point_le
  | cons m ms =>
    rw [hm] at hmacros
    exact hmacros m List.mem_cons_self

theorem setFramePoint (h : Coherent limit c x) {point : Nat} (hpoint : point ≤ c.frameTags.length)
    : Coherent limit (c.setFramePoint point) x := by
  obtain ⟨hdepth, hloops, hlimit, htags⟩ := frames_setFramePoint c point
  constructor
  . rw [hlimit]
    exact h.limit_eq
  . unfold Cursor.setFramePoint
    unfold frameTags at hpoint
    cases hm : c.macros with
    | nil =>
      rw [hm] at hpoint
      exact hpoint
    | cons => exact h.point_le
  . rw [hdepth]
    exact h.depth_le
  . have hmacros := h.macros
    unfold Cursor.setFramePoint
    unfold frameTags at hpoint
    cases hm : c.macros with
    | nil => simp
    | cons m ms =>
      rw [hm] at hpoint hmacros
      intro m' hm'
      cases hm' with
      | head => exact hpoint
      | tail _ hm' => exact hmacros m' (List.mem_cons_of_mem m hm')
  . rw [hdepth]
    exact h.running_length
  . exact h.running_lt
  . exact h.running_nodup
  . rw [hloops]
    exact h.loops.imp fun frame origin hopened => hopened.of_frames hdepth (tagsAt_setFramePoint c point _)
  . rw [hloops]
    exact h.sorted

theorem moved (h : Coherent limit c x) (hmoved : Moved c d) : Coherent limit d x := by
  have hpoint := hmoved.point_le h.framePoint_le
  obtain ⟨point, ifDepth, latest, rfl⟩ := hmoved.eq_set
  have hset : Coherent limit (c.setFramePoint point) x := by
    apply h.setFramePoint
    rw [← framePoint_setFramePoint c point, ← frameTags_setFramePoint c point]
    exact hpoint
  exact { hset with
    loops := hset.loops.imp fun frame origin hopened => hopened.of_frames rfl rfl }

/--
The loops of a cursor may be exchanged for others that were opened in running invocations.
-/
theorem withLoops (h : Coherent limit c x) {frames : List LoopFrame} {origins : List (List Nat)}
    (hloops : List.Forall₂ (Opened c x) frames origins)
    (hsorted : frames.Pairwise fun inner outer => outer.depth ≤ inner.depth)
    : Coherent limit { c with loops := frames } { x with origins } :=
  { h with
    loops := hloops.imp fun _ _ hopened => { hopened with }
    sorted := hsorted }

theorem openLoop (h : Coherent limit c x) (indexVariable : String) {loops : Nat} (hloops : 0 < loops)
    : Coherent limit
        { c with loops := { start := c.framePoint, depth := c.macroDepth, indexVariable, loops } :: c.loops }
        { x with origins := x.running :: x.origins } := by
  apply h.withLoops
  . apply List.Forall₂.cons _ h.loops
    refine ⟨List.suffix_refl _, h.running_length.symm, Nat.le_refl _, ?_, hloops⟩
    dsimp only
    rw [tagsAt_macroDepth]
    exact h.framePoint_le
  . refine List.Pairwise.cons ?_ h.sorted
    -- no loop is deeper in macros than the cursor
    intro frame hframe
    obtain ⟨i, hi, rfl⟩ := List.getElem_of_mem hframe
    have hopened := h.loops.get hi (h.loops.length_eq ▸ hi)
    exact hopened.depth_le

theorem nextRound (h : Coherent limit c x) {frame : LoopFrame} {frames : List LoopFrame}
    (hopen : c.loops = frame :: frames) (hdepth : frame.depth = c.macroDepth)
    (hcount : frame.count + 1 < frame.loops)
    : Coherent limit
        ({ c with loops := { frame with count := frame.count + 1 } :: frames }.setFramePoint frame.start) x := by
  have hloops := h.loops
  have hsorted := h.sorted
  rw [hopen] at hloops hsorted
  rw [List.pairwise_cons] at hsorted
  obtain ⟨origin, origins, hframe, hframes, horigins⟩ := List.forall₂_cons_left_iff.1 hloops
  have hnext : Opened c x { frame with count := frame.count + 1 } origin := { hframe with count_lt := hcount }
  have hcounted := h.withLoops (List.Forall₂.cons hnext hframes) (List.Pairwise.cons hsorted.1 hsorted.2)
  rw [← horigins] at hcounted
  -- the loop starts in the current frame, so its start is a place there
  apply hcounted.setFramePoint
  have hstart := hframe.start_le
  rw [hdepth, tagsAt_macroDepth] at hstart
  exact hstart

theorem closeLoop (h : Coherent limit c x) {frame : LoopFrame} {frames : List LoopFrame}
    (hopen : c.loops = frame :: frames)
    : Coherent limit { c with loops := frames } { x with origins := x.origins.drop 1 } := by
  have hloops := h.loops
  have hsorted := h.sorted
  rw [hopen] at hloops hsorted
  obtain ⟨origin, origins, _, hframes, horigins⟩ := List.forall₂_cons_left_iff.1 hloops
  rw [horigins]
  exact h.withLoops hframes hsorted.of_cons

theorem openMacro (h : Coherent limit c x) {m : Macro} (hstart : m.point = 0) (hdepth : c.macroDepth < c.maxDepth)
    : Coherent limit { c with macros := m :: c.macros }
        { x with opened := x.opened + 1, running := x.opened :: x.running } := by
  constructor
  . exact h.limit_eq
  . exact h.point_le
  . rw [← h.limit_eq]
    exact hdepth
  . intro m' hm'
    cases hm' with
    | head =>
      rw [hstart]
      exact Nat.zero_le _
    | tail _ hm' => exact h.macros m' hm'
  . exact congrArg Nat.succ h.running_length
  . intro i hi
    cases hi with
    | head => exact Nat.lt_succ_self _
    | tail _ hi => exact Nat.lt_succ_of_lt (h.running_lt i hi)
  . refine List.nodup_cons.2 ⟨?_, h.running_nodup⟩
    intro hmem
    exact Nat.lt_irrefl _ (h.running_lt _ hmem)
  . apply h.loops.imp
    intro frame origin hopened
    refine ⟨hopened.running.trans (List.suffix_cons _ _), hopened.depth_eq, ?_, ?_, hopened.count_lt⟩
    . exact Nat.le_succ_of_le hopened.depth_le
    . rw [tagsAt_openMacro m hopened.depth_le]
      exact hopened.start_le
  . exact h.sorted

end Coherent

theorem filter_depth_eq_drop {frames : List LoopFrame} (depth : Nat)
    (h : frames.Pairwise fun inner outer => outer.depth ≤ inner.depth)
    : frames.filter (·.depth ≤ depth)
        =
      frames.drop (frames.length - (frames.filter (·.depth ≤ depth)).length) := by
  induction frames with
  | nil => rfl
  | cons frame frames ih =>
    rw [List.pairwise_cons] at h
    by_cases hframe : frame.depth ≤ depth
    . have hall : (frame :: frames).filter (·.depth ≤ depth) = frame :: frames := by
        rw [List.filter_eq_self]
        intro other hother
        cases hother with
        | head => exact decide_eq_true hframe
        | tail _ hother => exact decide_eq_true (Nat.le_trans (h.1 other hother) hframe)
      rw [hall, Nat.sub_self, List.drop_zero]
    . rw [List.filter_cons_of_neg (by simpa using hframe), List.length_cons,
        Nat.succ_sub (List.length_filter_le _ _), List.drop_succ_cons]
      exact ih h.2

namespace Coherent

theorem closeMacro (h : Coherent limit c x) (hopen : c.macros ≠ [])
    : Coherent limit c.closeMacro
        { x with
          running := x.running.drop 1
          origins := x.origins.drop (c.loopDepth - c.closeMacro.loopDepth) } := by
  have hdepth := macroDepth_closeMacro hopen
  obtain ⟨m, ms, hm⟩ := List.exists_cons_of_ne_nil hopen
  have hclose := closeMacro_eq hm
  constructor
  . rw [hclose]
    exact h.limit_eq
  . rw [hclose]
    exact h.point_le
  . exact Nat.le_trans (hdepth ▸ Nat.le_succ _) h.depth_le
  . rw [hclose]
    intro m' hm'
    apply h.macros m'
    rw [hm]
    exact List.mem_cons_of_mem m hm'
  . rw [List.length_drop, h.running_length, hdepth, Nat.add_sub_cancel]
  . intro j hj
    exact h.running_lt j (List.mem_of_mem_drop hj)
  . exact h.running_nodup.sublist (List.drop_sublist 1 _)
  . -- the loops that are left are the outer ones
    have hloops : c.closeMacro.loops = c.loops.filter (·.depth ≤ c.closeMacro.macroDepth) := by
      rw [hclose]
      rfl
    have hleft := List.forall₂_drop (c.loopDepth - c.closeMacro.loopDepth) h.loops
    unfold loopDepth at hleft ⊢
    rw [hloops, ← filter_depth_eq_drop _ h.sorted] at hleft
    have hdeep : ∀ frame ∈ c.loops.filter (·.depth ≤ c.closeMacro.macroDepth),
        frame.depth ≤ c.closeMacro.macroDepth := by
      intro frame hframe
      simpa using (List.mem_filter.1 hframe).2
    rw [hloops]
    apply ((List.forall₂_and_left _ _).2 ⟨hdeep, hleft⟩).imp
    intro frame origin ⟨hframe, hopened⟩
    exact hopened.closeMacro h.running_length hopen hframe _
  . rw [hclose]
    exact h.sorted.sublist (List.filter_sublist)

theorem reset (h : Coherent limit c x) {point : Nat} (hpoint : point ≤ c.tags.length)
    : Coherent limit { c.restart with point } { x with running := [], origins := [] } where
  limit_eq := h.limit_eq
  point_le := hpoint
  depth_le := Nat.zero_le limit
  macros _ hm := by cases hm
  running_length := rfl
  running_lt _ hi := by cases hi
  running_nodup := List.nodup_nil
  loops := List.Forall₂.nil
  sorted := List.Pairwise.nil

theorem reshaped (h : Coherent limit c x) (hreshaped : Reshaped c d) : Coherent limit d (x.follow c d) := by
  cases hreshaped with
  | openLoop indexVariable hloops =>
    have hopened := h.openLoop indexVariable hloops
    simpa [Chronicle.follow, macroDepth, loopDepth] using hopened
  | @nextRound frame frames hopen hdepth hcount =>
    have hcounted := h.nextRound hopen hdepth hcount
    obtain ⟨hmacros, hloops, _⟩ := frames_setFramePoint
      { c with loops := { frame with count := frame.count + 1 } :: frames } frame.start
    have hdepths : c.loopDepth = frames.length + 1 := congrArg List.length hopen
    rw [follow_eq_self (c := c) hmacros ((congrArg List.length hloops).trans hdepths.symm)]
    exact hcounted
  | @closeLoop frame frames hopen =>
    have hclosed := h.closeLoop hopen
    have hless : ¬frames.length + 1 < frames.length := by omega
    simpa [Chronicle.follow, macroDepth, loopDepth, hopen, hless] using hclosed
  | openMacro hstart hdepth =>
    have hopened := h.openMacro hstart hdepth
    simpa [Chronicle.follow, macroDepth, loopDepth] using hopened
  | closeMacro hopen =>
    have hclosed := h.closeMacro hopen
    have hdepth := macroDepth_closeMacro hopen
    have hloops : c.closeMacro.loopDepth ≤ c.loopDepth := by
      unfold Cursor.closeMacro
      split
      . exact Nat.le_refl _
      . exact List.length_filter_le _ _
    rw [follow_of_le (by omega) hloops, hdepth, Nat.add_sub_cancel_left]
    exact hclosed
  | reset hpoint =>
    have hreset := h.reset hpoint
    rw [follow_of_le (Nat.zero_le _) (Nat.zero_le _)]
    have hrunning : x.running.drop c.macroDepth = [] := List.drop_eq_nil_of_le (Nat.le_of_eq h.running_length)
    have horigins : x.origins.drop c.loopDepth = [] :=
      List.drop_eq_nil_of_le (Nat.le_of_eq h.loops.length_eq.symm)
    rw [← hrunning, ← horigins] at hreset
    exact hreset

theorem changed (h : Coherent limit c x) (hchanged : Changed c d) : Coherent limit d (x.follow c d) := by
  obtain ⟨b, hmoved, hb⟩ := hchanged.steps
  have hb' := h.moved hmoved
  obtain rfl | hreshaped := hb
  . rw [follow_eq_self hmoved.macroDepth_eq hmoved.loopDepth_eq]
    exact hb'
  . rw [← follow_of_frames hmoved.macroDepth_eq hmoved.loopDepth_eq]
    exact hb'.reshaped hreshaped

/--
A reading keeps the invariant, since each of its steps does.
-/
theorem read {σ : Type} (table : MacroTable) (resolve : Resolver σ) (s : σ) (h : Coherent limit c x)
    : Coherent limit (c.next table resolve s).2.1 (x.read table resolve c s) := by
  have hstep (c : Cursor) (x : Chronicle) (s : σ) (h : Coherent limit c x) :=
    h.changed (changed_step table resolve c s)
  fun_induction Chronicle.read table resolve x c s with
  | case1 x c s d t hmore ih =>
    have hd := hstep c x s h
    rw [hmore] at hd
    rw [next_of_step_more hmore]
    exact ih hd
  | case2 x c s result d t hmore hend =>
    have hd := hstep c x s h
    rw [hend] at hd
    rw [next_cursor_of_end hend hmore]
    exact hd

theorem apply (h : Coherent limit c x) (op : Operation) : Coherent limit (op.apply c) (op.record x c) := by
  cases op with
  | restart => exact h.changed (changed_restart c)
  | goTo point => exact h.changed (changed_goTo c point)
  | goToLabel name => exact h.changed (changed_goToLabel c name)
  | goToSaveMark name => exact h.changed (changed_goToSaveMark c name)
  | read table resolve state => exact h.read table resolve state
  | instruct instruction vars => exact h.changed (instruction.changed_play { cursor := c, vars })

theorem applyAll (h : Coherent limit c x) (ops : List Operation)
    : Coherent limit (Operation.applyAll c x ops).1 (Operation.applyAll c x ops).2 := by
  induction ops generalizing c x with
  | nil => exact h
  | cons op ops ih => exact ih (h.apply op)

end Coherent

/--
A cursor at the start of a script, on which any operations have been done.
-/
theorem coherent_applyAll (file : String) (tags : List Tag) (limit : Nat) (ops : List Operation)
    : let (c, x) := Operation.applyAll { file, tags, maxDepth := limit } {} ops
      Coherent limit c x := by
  apply Coherent.applyAll
  exact ⟨rfl, Nat.zero_le _, Nat.zero_le _, by simp, rfl, by simp, List.nodup_nil, List.Forall₂.nil,
    List.Pairwise.nil⟩

end Cursor
end VisualNovel
