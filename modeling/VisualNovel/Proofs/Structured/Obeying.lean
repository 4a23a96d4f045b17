import VisualNovel.Proofs.Computation
import VisualNovel.Proofs.Structured.Drive
import VisualNovel.Proofs.Structured.Scan

/-!
This module contains what each directive comes to where its scan succeeds: the course behind it, from the place
that the cursor moves to.
-/

namespace VisualNovel
namespace Structured

open Play

section Computation

variable {α β : Type} {table : MacroTable} {act : LeafAction}

theorem after_get_bind (next : Scene → Play β) (scene : Scene)
    : Course.after table act (get >>= next) scene = .after table act (next scene) scene :=
  rfl

theorem after_modifyCursor (f : Cursor → Cursor) (cursor : Cursor) (vars : Variables)
    : Course.after table act (modifyCursor f) { cursor, vars }
        =
      .of table act { cursor := f cursor, vars } :=
  rfl

theorem after_modifyCursor_bind (f : Cursor → Cursor) (next : Unit → Play β) (cursor : Cursor)
    (vars : Variables)
    : Course.after table act (modifyCursor f >>= next) { cursor, vars }
        =
      .after table act (next ()) { cursor := f cursor, vars } :=
  rfl

theorem after_setTemporary (name : String) (value : Value) (cursor : Cursor) (vars : Variables)
    : Course.after table act (setTemporary name value) { cursor, vars }
        =
      .of table act { cursor, vars := vars.set .temporary name value } :=
  rfl

theorem after_setTemporary_bind (name : String) (value : Value) (next : Unit → Play β) (cursor : Cursor)
    (vars : Variables)
    : Course.after table act (setTemporary name value >>= next) { cursor, vars }
        =
      .after table act (next ()) { cursor, vars := vars.set .temporary name value } :=
  rfl

/--
The courses behind a condition, for either value of it.
-/
def Course.branch (condition : String) (line : Nat) (parameters : Option Fields) (vars : Variables)
    (yes no : Variables → Course) : Course :=
  match (Expr.evaluateAt condition line parameters).run.run vars with
  | (.error e, _) => fun _ => ([], .failed e)
  | (.ok value, vars) => if value.isTruthy then yes vars else no vars

theorem after_bind_ok {first : Play α} {next : α → Play β} {scene scene' : Scene} {a : α}
    (h : first.run.run scene = (.ok a, scene'))
    : Course.after table act (first >>= next) scene = .after table act (next a) scene' := by
  funext limit
  unfold Course.after
  simp only [ExceptT.run_bind, StateT.run_bind, h]
  rfl

theorem after_bind_error {first : Play α} {next : α → Play β} {scene scene' : Scene} {e : CursorError}
    (h : first.run.run scene = (.error e, scene'))
    : Course.after table act (first >>= next) scene = fun _ => ([], .failed e) := by
  funext limit
  unfold Course.after
  simp only [ExceptT.run_bind, StateT.run_bind, h]
  rfl

/--
A computation that comes to the value of a condition. A fault of the condition may be seen to before it is
passed on.
-/
def Evaluates (first : Play Value) (condition : String) (line : Nat) (cursor : Cursor)
    (vars : Variables) : Prop :=
  match (Expr.evaluateAt condition line cursor.parameters).run.run vars with
  | (.error e, _) => ∃ scene, first.run.run { cursor, vars } = (.error e, scene)
  | (.ok value, vars') => first.run.run { cursor, vars } = (.ok value, { cursor, vars := vars' })

theorem evaluates (condition : String) (line : Nat) (cursor : Cursor) (vars : Variables)
    : Evaluates (evaluate condition line) condition line cursor vars := by
  unfold Evaluates
  rw [run_evaluate]
  split
  . next h => exact ⟨_, by rw [h]⟩
  . next h => rw [h]

theorem evaluates_or_closes (condition : String) (line : Nat) (cursor : Cursor) (vars : Variables)
    : Evaluates (tryCatch (evaluate condition line) fun e => do closeIf; throw e) condition line cursor
        vars := by
  have h := evaluates condition line cursor vars
  unfold Evaluates at h ⊢
  split
  . next hvalue =>
    rw [hvalue] at h
    obtain ⟨scene, h⟩ := h
    rw [run_tryCatch, h]
    exact ⟨_, rfl⟩
  . next hvalue =>
    rw [hvalue] at h
    rw [run_tryCatch, h]

theorem after_condition {first : Play Value} {condition : String} {line : Nat} {next : Value → Play β}
    {cursor : Cursor} {vars : Variables} {yes no : Variables → Course}
    (hfirst : Evaluates first condition line cursor vars)
    (hyes : ∀ value vars, value.isTruthy = true →
      Course.after table act (next value) { cursor, vars } = yes vars)
    (hno : ∀ value vars, value.isTruthy = false →
      Course.after table act (next value) { cursor, vars } = no vars)
    : Course.after table act (first >>= next) { cursor, vars }
        =
      .branch condition line cursor.parameters vars yes no := by
  unfold Evaluates at hfirst
  unfold Course.branch
  split
  . next e vars' hvalue =>
    rw [hvalue] at hfirst
    obtain ⟨scene, hfirst⟩ := hfirst
    exact after_bind_error hfirst
  . next value vars' hvalue =>
    rw [hvalue] at hfirst
    rw [after_bind_ok hfirst]
    split
    . next htruthy => exact hyes value vars' htruthy
    . next htruthy => exact hno value vars' (by simpa using htruthy)

end Computation

/-! ### Conditionals -/

section Obeying

variable {table : MacroTable} {act : LeafAction} {c : Cursor} {count ifDepth : Nat}
  {loops : List LoopFrame} {latest : Option Tag} {vars : Variables} {tag : Tag} {tags rest : List Tag}

theorem after_enterIf (condition : String) (head : Tag)
    : Course.after table act (enterIf condition)
        { cursor := c.moved count ifDepth loops (some head), vars }
        =
      .branch condition head.line c.parameters vars
        (fun vars => .of table act { cursor := c.moved count (ifDepth + 1) loops (some head), vars })
        (fun vars => .after table act (seekBranch head.line 0 0 (c.unread.drop count))
          { cursor := c.moved count (ifDepth + 1) loops (some head), vars }) := by
  have hunread : (c.moved count (ifDepth + 1) loops (some head)).unread = c.unread.drop count := by simp
  rw [← Cursor.parameters_moved c count ifDepth loops (some head), ← hunread]
  unfold enterIf
  rw [after_get_bind]
  apply after_condition (evaluates _ _ _ _)
  . intro value vars htruthy
    rw [after_modifyCursor_bind]
    simp only [htruthy]
    rfl
  . intro value vars htruthy
    rw [after_modifyCursor_bind]
    simp only [htruthy]
    rfl

theorem after_seekBranch_endIf (line passed : Nat) (htag : tag.directive? = some .endIf)
    : Course.after table act (seekBranch line 0 passed (tag :: tags))
        { cursor := c.moved count (ifDepth + 1) loops latest, vars }
        =
      .of table act { cursor := c.moved (count + (passed + 1)) ifDepth loops latest, vars } := by
  rw [seekBranch.eq_def]
  simp only [htag]
  rw [after_modifyCursor_bind, Cursor.skip_moved]
  rfl

theorem after_seekBranch_otherwise (line passed : Nat) (htag : tag.directive? = some .otherwise)
    : Course.after table act (seekBranch line 0 passed (tag :: tags))
        { cursor := c.moved count ifDepth loops latest, vars }
        =
      .of table act { cursor := c.moved (count + (passed + 1)) ifDepth loops latest, vars } := by
  rw [seekBranch.eq_def]
  simp only [htag]
  rw [after_modifyCursor, Cursor.skip_moved]

theorem after_seekBranch_elsif (line passed : Nat) {condition : String}
    (htag : tag.directive? = some .elsif) (hcondition : tag.string? "exp" = some condition)
    : Course.after table act (seekBranch line 0 passed (tag :: tags))
        { cursor := c.moved count ifDepth loops latest, vars }
        =
      .branch condition tag.line c.parameters vars
        (fun vars => .of table act
          { cursor := c.moved (count + (passed + 1)) ifDepth loops latest, vars })
        (fun vars => .after table act (seekBranch line 0 (passed + 1) tags)
          { cursor := c.moved count ifDepth loops latest, vars }) := by
  rw [← Cursor.parameters_moved c count ifDepth loops latest, seekBranch.eq_def]
  simp only [htag, hcondition]
  apply after_condition (evaluates_or_closes _ _ _ _)
  . intro value vars htruthy
    simp only [htruthy, if_true]
    rw [after_modifyCursor, Cursor.skip_moved]
  . intro value vars htruthy
    simp only [htruthy, Bool.false_eq_true, if_false]

theorem after_skipRest (d : Directive) {skipped : Nat}
    (hcount : countToEndIf 0 (c.unread.drop count) = some skipped)
    : Course.after table act (skipRest d) { cursor := c.moved count (ifDepth + 1) loops latest, vars }
        =
      .of table act { cursor := c.moved (count + skipped) ifDepth loops latest, vars } := by
  unfold skipRest
  rw [after_get_bind]
  simp only [Cursor.ifDepth_moved, Cursor.unread_moved, hcount, Nat.add_one_ne_zero, if_false]
  change Course.after table act (modifyCursor (·.skip skipped) >>= fun _ => closeIf) _ = _
  rw [after_modifyCursor_bind, Cursor.skip_moved]
  rfl

theorem after_endIf
    : Course.after table act endIf { cursor := c.moved count (ifDepth + 1) loops latest, vars }
        =
      .of table act { cursor := c.moved count ifDepth loops latest, vars } :=
  rfl

/-! ### Loops -/

theorem run_skipBody {scan : LoopScan} (hscan : scanLoop 0 0 0 0 (c.unread.drop count) = some scan)
    : skipBody.run.run { cursor := c.moved count (ifDepth + scan.closed) loops latest, vars }
        =
      (.ok (), { cursor := c.moved (count + scan.count) ifDepth loops latest, vars }) := by
  unfold skipBody
  rw [run_get_bind]
  dsimp only
  rw [Cursor.unread_moved, hscan]
  have : ¬ (c.moved count (ifDepth + scan.closed) loops latest).ifDepth < scan.closed :=
    Nat.not_lt.2 (Nat.le_add_left scan.closed ifDepth)
  simp only [this, if_false]
  change (Except.ok (), ({
    cursor := { (c.moved count (ifDepth + scan.closed) loops latest).skip scan.count with
      ifDepth := ifDepth + scan.closed - scan.closed }
    vars } : Scene)) = _
  rw [Cursor.skip_moved, Nat.add_sub_cancel]
  rfl

theorem after_startLoop_zero (index : String) {skipped : Nat}
    (hscan : scanLoop 0 0 0 0 (c.unread.drop count) = some { count := skipped, closed := 0 })
    : Course.after table act (startLoop 0 index) { cursor := c.moved count ifDepth loops latest, vars }
        =
      .of table act { cursor := c.moved (count + skipped) ifDepth loops latest, vars } :=
  Course.after_ok (run_skipBody hscan)

def openedLoop (c : Cursor) (count : Nat) (index : String) (rounds round : Nat) : LoopFrame := {
  start := c.framePoint + count
  depth := c.macroDepth
  indexVariable := index
  loops := rounds
  count := round
}

@[simp]
theorem openedLoop_depth (c : Cursor) (count : Nat) (index : String) (rounds round : Nat)
    : (openedLoop c count index rounds round).depth = c.macroDepth :=
  rfl

theorem after_startLoop_succ (rounds : Nat) (index : String)
    : Course.after table act (startLoop (rounds + 1) index)
        { cursor := c.moved count ifDepth loops latest, vars }
        =
      .of table act {
        cursor := c.moved count ifDepth (openedLoop c count index (rounds + 1) 0 :: loops) latest
        vars := vars.set .temporary index (.ofNat 0)
      } := by
  unfold startLoop
  simp only [Nat.add_one_ne_zero, if_false]
  rw [after_modifyCursor_bind, after_setTemporary]
  simp only [Cursor.framePoint_moved, Cursor.macroDepth_moved]
  rfl

theorem after_endRound_again (start rounds round : Nat) (index : String) (hround : round + 1 < rounds)
    : Course.after table act endRound
        { cursor := c.moved count ifDepth (openedLoop c start index rounds round :: loops) latest, vars }
        =
      .of table act {
        cursor := c.moved start ifDepth (openedLoop c start index rounds (round + 1) :: loops) latest
        vars := vars.set .temporary index (.ofNat (round + 1))
      } := by
  unfold endRound
  rw [after_get_bind]
  simp only [Cursor.loops_moved, Cursor.macroDepth_moved, openedLoop, bne_self_eq_false, hround,
    Bool.false_eq_true, if_true, if_false]
  change Course.after table act (setTemporary index (.ofNat (round + 1)) >>= fun _ => modifyCursor _) _ = _
  rw [after_setTemporary_bind, after_modifyCursor]
  have hback := c.setFramePoint_moved count ifDepth (openedLoop c start index rounds (round + 1) :: loops)
    latest start
  unfold openedLoop at hback
  rw [← hback]
  rfl

theorem after_endRound_last (start rounds round : Nat) (index : String) (hround : rounds ≤ round + 1)
    : Course.after table act endRound
        { cursor := c.moved count ifDepth (openedLoop c start index rounds round :: loops) latest, vars }
        =
      .of table act { cursor := c.moved count ifDepth loops latest, vars } := by
  unfold endRound
  rw [after_get_bind]
  simp only [Cursor.loops_moved, Cursor.macroDepth_moved, openedLoop, bne_self_eq_false,
    Nat.not_lt.2 hround, Bool.false_eq_true, if_false]
  rfl

theorem after_breakLoop {frame : LoopFrame} {scan : LoopScan} (hframe : frame.depth = c.macroDepth)
    (hscan : scanLoop 0 0 0 0 (c.unread.drop count) = some scan)
    : Course.after table act breakLoop
        { cursor := c.moved count (ifDepth + scan.closed) (frame :: loops) latest, vars }
        =
      .of table act { cursor := c.moved (count + scan.count) ifDepth loops latest, vars } := by
  unfold breakLoop
  rw [after_get_bind]
  simp only [Cursor.loops_moved, Cursor.macroDepth_moved, hframe, bne_self_eq_false, Bool.false_eq_true,
    if_false]
  change Course.after table act (skipBody >>= fun _ => modifyCursor _) _ = _
  rw [after_bind_ok (run_skipBody hscan)]
  rfl

end Obeying

/-! ### Reading a directive and obeying it -/

section Read

variable {table : MacroTable} {bodies : String → Option Program} {act : LeafAction} {inLoop : Bool}
  {c : Cursor} {count ifDepth : Nat} {loops : List LoopFrame} {latest : Option Tag} {vars : Variables}
  {tag : Tag} {rest : List Tag}

theorem obey {d : Directive} {first : Play Unit} (hunread : c.unread.drop count = tag :: rest)
    (htag : Obeyed table d tag) (hd : d.isStructural) (hperform : perform tag = do first; return .nothing)
    (limit : Nat)
    : Course.of table act { cursor := c.moved count ifDepth loops latest, vars } (limit + 1)
        =
      Course.after table act first
        { cursor := c.moved (count + 1) ifDepth loops (some tag), vars } limit := by
  have hstructural : tag.isStructural = true := by
    unfold Tag.isStructural
    rw [htag.1]
    exact hd
  rw [drive_structural hunread htag.2 hstructural, hperform, Course.after_return]

theorem leads_of_skipRest {d : Directive} {tags : List Tag}
    (hunread : c.unread.drop count = tag :: (tags ++ rest)) (htag : Obeyed table d tag)
    (hd : d.isStructural) (hif : d ≠ .ifThen) (hend : d ≠ .endIf)
    (hperform : perform tag = do skipRest d; return .nothing)
    (hcount : countToEndIf 0 (tag :: (tags ++ rest)) = some (tags.length + 1))
    : (Course.of table act { cursor := c.moved count (ifDepth + 1) loops latest, vars }).Leads table act []
        { cursor := c.moved (count + (tags.length + 1)) ifDepth loops (some tag), vars } := by
  have hlater : countToEndIf 0 (tags ++ rest) = some tags.length := by
    rw [countToEndIf_of_neutral _ _ (by simp [htag.1, hif]) (by simp [htag.1, hend])] at hcount
    simpa using hcount
  have hdrop : c.unread.drop (count + 1) = tags ++ rest := by
    rw [← List.drop_drop, hunread, List.drop_one, List.tail_cons]
  apply Course.Leads.of_step (obey hunread htag hd hperform)
  rw [after_skipRest d (by rw [hdrop, hlater]), Nat.add_assoc, Nat.add_comm 1]
  exact Course.leads_refl _

theorem leads_of_branches {o : Branches} (ho : o.Valid table bodies inLoop)
    (hunread : c.unread.drop count = o.tags ++ rest)
    : ∃ latest', (Course.of table act { cursor := c.moved count (ifDepth + 1) loops latest, vars }).Leads
        table act [] { cursor := c.moved (count + o.tags.length) ifDepth loops latest', vars } := by
  -- one directive passes all branches: it is their end, or it seeks the end
  have hcount := o.countToEndIf_tags ho rest
  cases o with
  | close tail =>
    exists some tail
    apply Course.Leads.of_step (obey hunread ho rfl (by rw [perform, ho.1]))
    rw [after_endIf]
    exact Course.leads_refl _
  | otherwise head body tail =>
    exists some head
    exact leads_of_skipRest hunread ho.1 rfl (by decide) (by decide) (by rw [perform, ho.1.1]) hcount
  | elsif head condition body others =>
    exists some head
    exact leads_of_skipRest hunread ho.1.1 rfl (by decide) (by decide) (by rw [perform, ho.1.1.1]) hcount

end Read
end Structured
end VisualNovel
