import VisualNovel.Cursor.Branch
import VisualNovel.Cursor.Definition
import VisualNovel.Cursor.Loop

/-!
This module contains what the scans over tags do with one tag, and how far they get. None of them gets behind
the last tag.
-/

namespace VisualNovel
namespace Play

section Tag

variable {tag : Tag} (line nested passed loops ifs closed count : Nat) (tags : List Tag)

theorem countToEndIf_of_if (h : tag.directive? = some .ifThen)
    : countToEndIf nested (tag :: tags) = (countToEndIf (nested + 1) tags).map (· + 1) := by
  rw [countToEndIf.eq_def]
  simp [h]

theorem countToEndIf_of_endIf (h : tag.directive? = some .endIf)
    : countToEndIf (nested + 1) (tag :: tags) = (countToEndIf nested tags).map (· + 1) := by
  rw [countToEndIf.eq_def]
  simp [h]

theorem countToEndIf_of_neutral (hif : tag.directive? ≠ some .ifThen)
    (hend : tag.directive? ≠ some .endIf)
    : countToEndIf nested (tag :: tags) = (countToEndIf nested tags).map (· + 1) := by
  rw [countToEndIf.eq_def]
  dsimp only
  split <;> simp_all

theorem seekBranch_of_if (h : tag.directive? = some .ifThen)
    : seekBranch line nested passed (tag :: tags) = seekBranch line (nested + 1) (passed + 1) tags := by
  rw [seekBranch.eq_def]
  simp [h]

theorem seekBranch_of_endIf (h : tag.directive? = some .endIf)
    : seekBranch line (nested + 1) passed (tag :: tags) = seekBranch line nested (passed + 1) tags := by
  rw [seekBranch.eq_def]
  simp [h]

theorem seekBranch_of_neutral (hif : tag.directive? ≠ some .ifThen) (hend : tag.directive? ≠ some .endIf)
    : seekBranch line (nested + 1) passed (tag :: tags)
        =
      seekBranch line (nested + 1) (passed + 1) tags := by
  rw [seekBranch.eq_def]
  dsimp only
  split <;> simp_all

theorem seekBranch_of_plain (hif : tag.directive? ≠ some .ifThen) (helsif : tag.directive? ≠ some .elsif)
    (hother : tag.directive? ≠ some .otherwise) (hend : tag.directive? ≠ some .endIf)
    : seekBranch line nested passed (tag :: tags) = seekBranch line nested (passed + 1) tags := by
  rw [seekBranch.eq_def]
  dsimp only
  split <;> simp_all

theorem scanLoop_of_for (h : tag.directive? = some .forLoop)
    : scanLoop loops ifs closed count (tag :: tags)
        =
      scanLoop (loops + 1) ifs closed (count + 1) tags := by
  simp [scanLoop, h]

theorem scanLoop_of_endFor (h : tag.directive? = some .endFor)
    : scanLoop (loops + 1) ifs closed count (tag :: tags)
        =
      scanLoop loops ifs closed (count + 1) tags := by
  simp [scanLoop, h]

theorem scanLoop_of_last_endFor (h : tag.directive? = some .endFor)
    : scanLoop 0 ifs closed count (tag :: tags) = some { count := count + 1, closed } := by
  simp [scanLoop, h]

theorem scanLoop_of_if (h : tag.directive? = some .ifThen)
    : scanLoop loops ifs closed count (tag :: tags)
        =
      scanLoop loops (ifs + 1) closed (count + 1) tags := by
  simp [scanLoop, h]

theorem scanLoop_of_endIf (h : tag.directive? = some .endIf)
    : scanLoop loops (ifs + 1) closed count (tag :: tags)
        =
      scanLoop loops ifs closed (count + 1) tags := by
  simp [scanLoop, h]

theorem scanLoop_of_outer_endIf (h : tag.directive? = some .endIf)
    : scanLoop loops 0 closed count (tag :: tags)
        =
      scanLoop loops 0 (closed + 1) (count + 1) tags := by
  simp [scanLoop, h]

theorem scanLoop_of_neutral (hif : tag.directive? ≠ some .ifThen) (hend : tag.directive? ≠ some .endIf)
    (hfor : tag.directive? ≠ some .forLoop) (hendfor : tag.directive? ≠ some .endFor)
    : scanLoop loops ifs closed count (tag :: tags) = scanLoop loops ifs closed (count + 1) tags := by
  rw [scanLoop.eq_def]
  dsimp only
  split <;> simp_all

end Tag

theorem scanLoop_shift (a b loops ifs closed count : Nat) (tags : List Tag)
    : scanLoop loops ifs (closed + a) (count + b) tags
        =
      (scanLoop loops ifs closed count tags).map
        fun scan => { count := scan.count + b, closed := scan.closed + a } := by
  fun_induction scanLoop loops ifs closed count tags with
  | case1 => simp
  | case2 loops ifs closed count tag tags h ih =>
    rw [scanLoop_of_for _ _ _ _ _ h, ← ih, Nat.add_right_comm]
  | case3 ifs closed count tag tags h =>
    rw [scanLoop_of_last_endFor _ _ _ _ h, Option.map_some]
    simp
    omega
  | case4 ifs closed count tag tags h loops ih =>
    rw [scanLoop_of_endFor _ _ _ _ _ h, ← ih, Nat.add_right_comm]
  | case5 loops ifs closed count tag tags h ih =>
    rw [scanLoop_of_if _ _ _ _ _ h, ← ih, Nat.add_right_comm]
  | case6 loops closed count tag tags h ih =>
    rw [scanLoop_of_outer_endIf _ _ _ _ h, ← ih, Nat.add_right_comm closed, Nat.add_right_comm count]
  | case7 loops closed count tag tags h ifs ih =>
    rw [scanLoop_of_endIf _ _ _ _ _ h, ← ih, Nat.add_right_comm]
  | case8 loops ifs closed count tag tags hfor hendfor hif hend ih =>
    rw [scanLoop_of_neutral _ _ _ _ _ hif hend hfor hendfor, ← ih, Nat.add_right_comm]

/-! ### Bounds -/

theorem countToEndIf_le {nested count : Nat} {tags : List Tag} (h : countToEndIf nested tags = some count)
    : count ≤ tags.length := by
  fun_induction countToEndIf nested tags generalizing count with
  | case1 => cases h
  | case2 nested tag tags _ ih | case4 tag tags nested _ ih | case5 nested tag tags _ _ _ ih =>
    obtain ⟨rest, hrest, rfl⟩ := Option.map_eq_some_iff.1 h
    exact Nat.succ_le_succ (ih hrest)
  | case3 tag tags =>
    cases h
    exact Nat.succ_le_succ (Nat.zero_le _)

theorem scanLoop_le {loops ifs closed count : Nat} {tags : List Tag} {scan : LoopScan}
    (h : scanLoop loops ifs closed count tags = some scan) : scan.count ≤ count + tags.length := by
  fun_induction scanLoop loops ifs closed count tags with
  | case1 => cases h
  | case3 =>
    cases h
    simp
  | _ =>
    next ih =>
    have := ih h
    rw [List.length_cons]
    omega

theorem length_readBody_lt {name : String} {line : Nat} {tags body : List Tag}
    (h : readBody name line tags = .ok body) : body.length < tags.length := by
  fun_induction readBody name line tags generalizing body with
  | case1 => cases h
  | case2 =>
    cases h
    exact Nat.succ_pos _
  | case3 | case4 | case5 => cases h
  | case6 tag tags _ _ _ _ ih =>
    cases hrest : readBody name line tags with
    | error e =>
      rw [hrest] at h
      cases h
    | ok rest =>
      rw [hrest] at h
      cases h
      exact Nat.succ_lt_succ (ih hrest)

end Play
end VisualNovel
