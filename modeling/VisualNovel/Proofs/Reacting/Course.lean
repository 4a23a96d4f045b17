import VisualNovel.Reactor.Run

/-!
This module contains the course of a run: the work that has been done, piece by piece, each with the reactor
before it and with what has set it off, and the work that is left.
-/

namespace VisualNovel

variable {α : Type}

namespace Reactor

theorem run_nil (r : Reactor α) : r.run [] = ([], r) := by
  rw [run]

theorem run_cons (r : Reactor α) (w : Work α) (rest : List (Work α))
    : r.run (w :: rest)
        =
      (r.events w ++ ((r.step w).reactor.run ((r.step w).work ++ rest)).1,
        ((r.step w).reactor.run ((r.step w).work ++ rest)).2) := by
  rw [run]

theorem run_append (r : Reactor α) (first second : List (Work α))
    : r.run (first ++ second)
        =
      ((r.run first).1 ++ ((r.run first).2.run second).1, ((r.run first).2.run second).2) := by
  fun_induction Reactor.run r first with
  | case1 r => simp
  | case2 r w rest effect later last hrun ih =>
    rw [hrun] at ih
    rw [List.cons_append, run_cons, ← List.append_assoc, ih]
    simp

end Reactor

/--
A piece of work that is left, with the number of the stroke that has set it off. Nothing has set off the
operations that a run begins with.
-/
structure Piece (α : Type) where
  work : Work α
  cause : Option Nat := none

/--
A piece of work that has been done, with the reactor before it.
-/
structure Stroke (α : Type) extends Piece α where
  reactor : Reactor α

namespace Stroke

def effect (s : Stroke α) : Effect α :=
  s.reactor.step s.work

def events (s : Stroke α) : List (Event α) :=
  s.reactor.events s.work

end Stroke

theorem filterMap_cons_toList {β γ : Type} (f : β → Option γ) (b : β) (l : List β)
    : (b :: l).filterMap f = (f b).toList ++ l.filterMap f := by
  cases h : f b <;> simp [h]

theorem filterMap_concat {β γ : Type} (f : β → Option γ) (l : List β) (b : β)
    : (l ++ [b]).filterMap f = l.filterMap f ++ (f b).toList := by
  rw [List.filterMap_append, filterMap_cons_toList, List.filterMap_nil, List.append_nil]

theorem filterMap_pieces {β : Type} (f : Work α → Option β) (work : List (Work α)) (cause : Option Nat)
    : (work.map fun w => ({ work := w, cause } : Piece α)).filterMap (fun piece => f piece.work)
        =
      work.filterMap f := by
  rw [List.filterMap_map]
  rfl

/--
How far the run of some operations may have come: the strokes so far, the reactor, and the work that is left.
The strokes are numbered from zero on.
-/
inductive Course (ops : List (Op α)) : List (Stroke α) → Reactor α → List (Piece α) → Prop
  | start : Course ops [] {} (ops.map fun op => { work := .op op })
  | stroke {past : List (Stroke α)} {r : Reactor α} {piece : Piece α} {left : List (Piece α)}
      (h : Course ops past r (piece :: left))
      : Course ops (past ++ [{ piece with reactor := r }]) (r.step piece.work).reactor
          ((r.step piece.work).work.map (fun w => { work := w, cause := some past.length }) ++ left)

/--
The strokes, the reactor and the work that is left after at most so many more strokes.
-/
def proceed : Nat → List (Stroke α) → Reactor α → List (Piece α) → List (Stroke α) × Reactor α × List (Piece α)
  | n + 1, past, r, piece :: left =>
    proceed n (past ++ [{ piece with reactor := r }]) (r.step piece.work).reactor
      ((r.step piece.work).work.map (fun w => { work := w, cause := some past.length }) ++ left)
  | _, past, r, left => (past, r, left)

namespace Course

variable {ops : List (Op α)} {past : List (Stroke α)} {r : Reactor α} {left : List (Piece α)}

theorem proceed (h : Course ops past r left) (n : Nat)
    : Course ops (proceed n past r left).1 (proceed n past r left).2.1 (proceed n past r left).2.2 := by
  fun_induction VisualNovel.proceed n past r left with
  | case1 n past r piece left ih => exact ih h.stroke
  | case2 => exact h

/--
A course is part of the run: the run shows what the strokes show and goes on with the work that is left.
-/
theorem exec_eq (h : Course ops past r left)
    : ({} : Reactor α).exec ops
        =
      (past.flatMap Stroke.events ++ (r.run (left.map Piece.work)).1, (r.run (left.map Piece.work)).2) := by
  induction h with
  | start => simp [Reactor.exec, Function.comp_def]
  | stroke h ih =>
    rw [ih, List.map_cons, Reactor.run_cons]
    simp [Stroke.events, Function.comp_def]

/--
Every course comes to its end, where no work is left.
-/
theorem exists_end (h : Course ops past r left)
    : ∃ more, Course ops (past ++ more) (({} : Reactor α).exec ops).2 [] := by
  rw [h.exec_eq]
  change ∃ more, Course ops (past ++ more) (r.run (left.map Piece.work)).2 []
  generalize hwork : left.map Piece.work = work
  -- the run is followed stroke by stroke, with the work that is left in place of the pieces
  revert past left
  fun_induction Reactor.run r work with
  | case1 r =>
    intro past left h hwork
    rw [List.map_eq_nil_iff] at hwork
    subst hwork
    exact ⟨[], by simpa using h⟩
  | case2 r w rest effect later last hrun =>
    rename_i ih
    intro past left h hwork
    obtain ⟨piece, left, rfl, rfl, rfl⟩ := List.map_eq_cons_iff.1 hwork
    rw [hrun] at ih
    obtain ⟨more, hmore⟩ := ih h.stroke (by simp [effect, Function.comp_def])
    exact ⟨_, by simpa using hmore⟩

theorem before (h : Course ops past r left) {k : Nat} {s : Stroke α} (hs : past[k]? = some s)
    : ∃ rest, Course ops (past.take k) s.reactor (s.toPiece :: rest) := by
  induction h with
  | start => cases hs
  | @stroke past r piece left h ih =>
    by_cases hk : k < past.length
    . rw [List.getElem?_append_left hk] at hs
      rw [List.take_append_of_le_length (Nat.le_of_lt hk)]
      exact ih hs
    . rw [List.getElem?_append_right (Nat.le_of_not_lt hk), List.getElem?_singleton] at hs
      split at hs
      next hzero =>
        cases hs
        obtain rfl : k = past.length := by omega
        rw [List.take_left]
        exact ⟨left, h⟩
      next => cases hs

/--
A cause is a stroke of the past, and no piece of work is lost, doubled or done out of turn: what a stroke has
set off is done in its order or left.
-/
theorem caused (h : Course ops past r left) (k : Nat)
    : (past.filter (·.cause = some k)).map (·.work) ++ (left.filter (·.cause = some k)).map (·.work)
        =
      (past[k]?.map (·.effect.work)).getD [] := by
  induction h with
  | start => simp [List.filter_map, Function.comp_def]
  | @stroke past r piece left h ih =>
    by_cases hk : k = past.length
    -- nothing can have been set off by the new stroke before
    . subst hk
      simp only [List.getElem?_eq_none (Nat.le_refl _), Option.map_none, Option.getD_none, List.append_eq_nil_iff,
        List.map_eq_nil_iff, List.filter_cons] at ih
      obtain ⟨hpast, hleft⟩ := ih
      split at hleft
      . cases hleft
      . next hpiece =>
        simp [hpast, hleft, hpiece, List.filter_map, Function.comp_def, Stroke.effect]
    . have hget : (past ++ [{ piece with reactor := r }])[k]? = past[k]? := by
        rw [List.getElem?_append]
        split
        . rfl
        . rw [List.getElem?_singleton, if_neg (by omega), List.getElem?_eq_none (by omega)]
      have hnew (work : List (Work α))
          : (work.map fun w => ({ work := w, cause := some past.length } : Piece α)).filter (·.cause = some k)
              =
            [] := by
        simp [Ne.symm hk]
      rw [hget, ← ih, List.filter_append, List.filter_append, hnew, List.nil_append, List.filter_cons,
        List.filter_cons, List.filter_nil]
      split <;> simp

end Course
end VisualNovel
