import VisualNovel.Proofs.Scanning
import VisualNovel.Proofs.Structured.Program

/-!
This module contains the scans over the tags of a program. A scan for the end of a branch or a loop passes a
whole program without a change to its counters, and the branches that follow a body close one conditional.
-/

namespace VisualNovel

theorem Tag.directive?_ne_of_not_structural {tag : Tag} (h : tag.isStructural = false) {d : Directive}
    (hd : d.isStructural) : tag.directive? ≠ some d := by
  intro htag
  simp [Tag.isStructural, htag, hd] at h

namespace Structured

open Play

variable {table : MacroTable} {bodies : String → Option Program}

/-! ### The end of a conditional -/

mutual

theorem Program.countToEndIf_tags {inLoop : Bool} (p : Program) (h : p.Valid table bodies inLoop)
    (nested : Nat) (rest : List Tag)
    : countToEndIf nested (p.tags ++ rest) = (countToEndIf nested rest).map (· + p.tags.length) := by
  cases p with
  | done => simp [Program.tags]
  | leaf tag later | call tag later =>
    obtain ⟨⟨hplain, _⟩, hlater⟩ := h
    have hif := Tag.directive?_ne_of_not_structural hplain (d := .ifThen) rfl
    have hend := Tag.directive?_ne_of_not_structural hplain (d := .endIf) rfl
    rw [Program.tags, List.cons_append, countToEndIf_of_neutral _ _ hif hend,
      later.countToEndIf_tags hlater]
    cases countToEndIf nested rest <;> simp
    omega
  | leave tag later =>
    obtain ⟨⟨_, hbreak, _⟩, hlater⟩ := h
    rw [Program.tags, List.cons_append,
      countToEndIf_of_neutral _ _ (by simp [hbreak]) (by simp [hbreak]), later.countToEndIf_tags hlater]
    cases countToEndIf nested rest <;> simp
    omega
  | loop head rounds body tail later =>
    obtain ⟨⟨⟨hfor, _⟩, _⟩, hbody, ⟨hendfor, _⟩, hlater⟩ := h
    rw [Program.tags, List.cons_append, List.append_assoc, List.cons_append,
      countToEndIf_of_neutral _ _ (by simp [hfor]) (by simp [hfor]), body.countToEndIf_tags hbody,
      countToEndIf_of_neutral _ _ (by simp [hendfor]) (by simp [hendfor]),
      later.countToEndIf_tags hlater]
    cases countToEndIf nested rest <;> simp
    omega
  | choice head condition body others later =>
    obtain ⟨⟨⟨hif, _⟩, _⟩, hbody, hothers, hlater⟩ := h
    rw [Program.tags, List.cons_append, List.append_assoc, List.append_assoc,
      countToEndIf_of_if _ _ hif, body.countToEndIf_tags hbody, others.countToEndIf_tags_succ hothers,
      later.countToEndIf_tags hlater]
    cases countToEndIf nested rest <;> simp
    omega

theorem Branches.countToEndIf_tags_succ {inLoop : Bool} (o : Branches) (h : o.Valid table bodies inLoop)
    (nested : Nat) (rest : List Tag)
    : countToEndIf (nested + 1) (o.tags ++ rest)
        =
      (countToEndIf nested rest).map (· + o.tags.length) := by
  cases o with
  | close tail =>
    rw [Branches.tags, List.singleton_append, countToEndIf_of_endIf _ _ h.1]
    simp
  | otherwise head body tail =>
    obtain ⟨⟨hother, _⟩, hbody, hend, _⟩ := h
    rw [Branches.tags, List.cons_append, List.append_assoc, List.singleton_append,
      countToEndIf_of_neutral _ _ (by simp [hother]) (by simp [hother]), body.countToEndIf_tags hbody,
      countToEndIf_of_endIf _ _ hend]
    cases countToEndIf nested rest <;> simp
    omega
  | elsif head condition body others =>
    obtain ⟨⟨⟨helsif, _⟩, _⟩, hbody, hothers⟩ := h
    rw [Branches.tags, List.cons_append, List.append_assoc,
      countToEndIf_of_neutral _ _ (by simp [helsif]) (by simp [helsif]), body.countToEndIf_tags hbody,
      others.countToEndIf_tags_succ hothers]
    cases countToEndIf nested rest <;> simp
    omega

end

theorem Branches.countToEndIf_tags {inLoop : Bool} (o : Branches) (h : o.Valid table bodies inLoop)
    (rest : List Tag) : countToEndIf 0 (o.tags ++ rest) = some o.tags.length := by
  cases o with
  | close tail => simp [Branches.tags, countToEndIf, h.1]
  | otherwise head body tail =>
    obtain ⟨⟨hother, _⟩, hbody, hend, _⟩ := h
    rw [Branches.tags, List.cons_append, List.append_assoc, List.singleton_append,
      countToEndIf_of_neutral _ _ (by simp [hother]) (by simp [hother]), body.countToEndIf_tags hbody]
    simp [countToEndIf, hend]
    omega
  | elsif head condition body others =>
    obtain ⟨⟨⟨helsif, _⟩, _⟩, hbody, hothers⟩ := h
    rw [Branches.tags, List.cons_append, List.append_assoc,
      countToEndIf_of_neutral _ _ (by simp [helsif]) (by simp [helsif]), body.countToEndIf_tags hbody,
      others.countToEndIf_tags hothers]
    simp
    omega

/-! ### The branch that is taken -/

mutual

theorem Program.seekBranch_tags {inLoop : Bool} (p : Program) (h : p.Valid table bodies inLoop)
    (line nested passed : Nat) (rest : List Tag)
    : seekBranch line nested passed (p.tags ++ rest)
        =
      seekBranch line nested (passed + p.tags.length) rest := by
  cases p with
  | done => simp [Program.tags]
  | leaf tag later | call tag later =>
    obtain ⟨⟨hplain, _⟩, hlater⟩ := h
    have hne {d : Directive} (hd : d.isStructural) := Tag.directive?_ne_of_not_structural hplain hd
    rw [Program.tags, List.cons_append,
      seekBranch_of_plain _ _ _ _ (hne rfl) (hne rfl) (hne rfl) (hne rfl),
      later.seekBranch_tags hlater, List.length_cons]
    congr 1
    omega
  | leave tag later =>
    obtain ⟨⟨_, hbreak, _⟩, hlater⟩ := h
    rw [Program.tags, List.cons_append,
      seekBranch_of_plain _ _ _ _ (by simp [hbreak]) (by simp [hbreak]) (by simp [hbreak])
        (by simp [hbreak]),
      later.seekBranch_tags hlater, List.length_cons]
    congr 1
    omega
  | loop head rounds body tail later =>
    obtain ⟨⟨⟨hfor, _⟩, _⟩, hbody, ⟨hendfor, _⟩, hlater⟩ := h
    rw [Program.tags, List.cons_append, List.append_assoc, List.cons_append,
      seekBranch_of_plain _ _ _ _ (by simp [hfor]) (by simp [hfor]) (by simp [hfor]) (by simp [hfor]),
      body.seekBranch_tags hbody,
      seekBranch_of_plain _ _ _ _ (by simp [hendfor]) (by simp [hendfor]) (by simp [hendfor])
        (by simp [hendfor]),
      later.seekBranch_tags hlater]
    congr 1
    simp
    omega
  | choice head condition body others later =>
    obtain ⟨⟨⟨hif, _⟩, _⟩, hbody, hothers, hlater⟩ := h
    rw [Program.tags, List.cons_append, List.append_assoc, List.append_assoc,
      seekBranch_of_if _ _ _ _ hif, body.seekBranch_tags hbody, others.seekBranch_tags_succ hothers,
      later.seekBranch_tags hlater]
    congr 1
    simp
    omega

theorem Branches.seekBranch_tags_succ {inLoop : Bool} (o : Branches) (h : o.Valid table bodies inLoop)
    (line nested passed : Nat) (rest : List Tag)
    : seekBranch line (nested + 1) passed (o.tags ++ rest)
        =
      seekBranch line nested (passed + o.tags.length) rest := by
  cases o with
  | close tail => rw [Branches.tags, List.singleton_append, seekBranch_of_endIf _ _ _ _ h.1]; rfl
  | otherwise head body tail =>
    obtain ⟨⟨hother, _⟩, hbody, hend, _⟩ := h
    rw [Branches.tags, List.cons_append, List.append_assoc, List.singleton_append,
      seekBranch_of_neutral _ _ _ _ (by simp [hother]) (by simp [hother]), body.seekBranch_tags hbody,
      seekBranch_of_endIf _ _ _ _ hend]
    congr 1
    simp
    omega
  | elsif head condition body others =>
    obtain ⟨⟨⟨helsif, _⟩, _⟩, hbody, hothers⟩ := h
    rw [Branches.tags, List.cons_append, List.append_assoc,
      seekBranch_of_neutral _ _ _ _ (by simp [helsif]) (by simp [helsif]), body.seekBranch_tags hbody,
      others.seekBranch_tags_succ hothers]
    congr 1
    simp
    omega

end

/-! ### The end of a loop -/

mutual

theorem Program.scanLoop_tags {inLoop : Bool} (p : Program) (h : p.Valid table bodies inLoop)
    (loops ifs closed count : Nat) (rest : List Tag)
    : scanLoop loops ifs closed count (p.tags ++ rest)
        =
      scanLoop loops ifs closed (count + p.tags.length) rest := by
  cases p with
  | done => simp [Program.tags]
  | leaf tag later | call tag later =>
    obtain ⟨⟨hplain, _⟩, hlater⟩ := h
    have hne {d : Directive} (hd : d.isStructural) := Tag.directive?_ne_of_not_structural hplain hd
    rw [Program.tags, List.cons_append,
      scanLoop_of_neutral _ _ _ _ _ (hne rfl) (hne rfl) (hne rfl) (hne rfl),
      later.scanLoop_tags hlater, List.length_cons]
    congr 1
    omega
  | leave tag later =>
    obtain ⟨⟨_, hbreak, _⟩, hlater⟩ := h
    rw [Program.tags, List.cons_append,
      scanLoop_of_neutral _ _ _ _ _ (by simp [hbreak]) (by simp [hbreak]) (by simp [hbreak])
        (by simp [hbreak]),
      later.scanLoop_tags hlater, List.length_cons]
    congr 1
    omega
  | loop head rounds body tail later =>
    obtain ⟨⟨⟨hfor, _⟩, _⟩, hbody, ⟨hendfor, _⟩, hlater⟩ := h
    rw [Program.tags, List.cons_append, List.append_assoc, List.cons_append,
      scanLoop_of_for _ _ _ _ _ hfor, body.scanLoop_tags hbody, scanLoop_of_endFor _ _ _ _ _ hendfor,
      later.scanLoop_tags hlater]
    congr 1
    simp
    omega
  | choice head condition body others later =>
    obtain ⟨⟨⟨hif, _⟩, _⟩, hbody, hothers, hlater⟩ := h
    rw [Program.tags, List.cons_append, List.append_assoc, List.append_assoc,
      scanLoop_of_if _ _ _ _ _ hif, body.scanLoop_tags hbody, others.scanLoop_tags_succ hothers,
      later.scanLoop_tags hlater]
    congr 1
    simp
    omega

theorem Branches.scanLoop_tags_succ {inLoop : Bool} (o : Branches) (h : o.Valid table bodies inLoop)
    (loops ifs closed count : Nat) (rest : List Tag)
    : scanLoop loops (ifs + 1) closed count (o.tags ++ rest)
        =
      scanLoop loops ifs closed (count + o.tags.length) rest := by
  cases o with
  | close tail => rw [Branches.tags, List.singleton_append, scanLoop_of_endIf _ _ _ _ _ h.1]; rfl
  | otherwise head body tail =>
    obtain ⟨⟨hother, _⟩, hbody, hend, _⟩ := h
    rw [Branches.tags, List.cons_append, List.append_assoc, List.singleton_append,
      scanLoop_of_neutral _ _ _ _ _ (by simp [hother]) (by simp [hother]) (by simp [hother])
        (by simp [hother]),
      body.scanLoop_tags hbody, scanLoop_of_endIf _ _ _ _ _ hend]
    congr 1
    simp
    omega
  | elsif head condition body others =>
    obtain ⟨⟨⟨helsif, _⟩, _⟩, hbody, hothers⟩ := h
    rw [Branches.tags, List.cons_append, List.append_assoc,
      scanLoop_of_neutral _ _ _ _ _ (by simp [helsif]) (by simp [helsif]) (by simp [helsif])
        (by simp [helsif]),
      body.scanLoop_tags hbody, others.scanLoop_tags_succ hothers]
    congr 1
    simp
    omega

end

theorem Branches.scanLoop_tags {inLoop : Bool} (o : Branches) (h : o.Valid table bodies inLoop)
    (loops closed count : Nat) (rest : List Tag)
    : scanLoop loops 0 closed count (o.tags ++ rest)
        =
      scanLoop loops 0 (closed + 1) (count + o.tags.length) rest := by
  -- these branches belong to a conditional that was opened before the scanned tags
  cases o with
  | close tail => rw [Branches.tags, List.singleton_append, scanLoop_of_outer_endIf _ _ _ _ h.1]; rfl
  | otherwise head body tail =>
    obtain ⟨⟨hother, _⟩, hbody, hend, _⟩ := h
    rw [Branches.tags, List.cons_append, List.append_assoc, List.singleton_append,
      scanLoop_of_neutral _ _ _ _ _ (by simp [hother]) (by simp [hother]) (by simp [hother])
        (by simp [hother]),
      body.scanLoop_tags hbody, scanLoop_of_outer_endIf _ _ _ _ hend]
    congr 1
    simp
    omega
  | elsif head condition body others =>
    obtain ⟨⟨⟨helsif, _⟩, _⟩, hbody, hothers⟩ := h
    rw [Branches.tags, List.cons_append, List.append_assoc,
      scanLoop_of_neutral _ _ _ _ _ (by simp [helsif]) (by simp [helsif]) (by simp [helsif])
        (by simp [helsif]),
      body.scanLoop_tags hbody, others.scanLoop_tags hothers]
    congr 1
    simp
    omega

end Structured
end VisualNovel
