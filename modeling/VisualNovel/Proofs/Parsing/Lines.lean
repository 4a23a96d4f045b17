import VisualNovel.Grammar.Basic

/-!
This module contains the lines of a script that is put together from others: how a text is split into its parts, and how
the lines are numbered.
-/

namespace VisualNovel

/-! ### Parts of a text -/

namespace Path

variable (separator : Char)

theorem splitAt_ne_nil (cs : List Char) : splitAt separator cs ≠ [] := by
  cases cs with
  | nil => exact nofun
  | cons c cs =>
    unfold splitAt
    split
    . exact nofun
    . split <;> exact nofun

theorem splitAt_cons_of_ne {c : Char} (h : c ≠ separator) {cs part : List Char} {parts : List (List Char)}
    (hsplit : splitAt separator cs = part :: parts) : splitAt separator (c :: cs) = (c :: part) :: parts := by
  rw [splitAt, if_neg h, hsplit]

theorem splitAt_append (cs ds : List Char)
    : splitAt separator (cs ++ separator :: ds) = splitAt separator cs ++ splitAt separator ds := by
  induction cs with
  | nil => simp [splitAt]
  | cons c cs ih =>
    rw [List.cons_append]
    by_cases hc : c = separator
    . rw [splitAt, splitAt, if_pos hc, if_pos hc, ih, List.cons_append]
    . obtain ⟨part, parts, hparts⟩ := List.exists_cons_of_ne_nil (splitAt_ne_nil separator cs)
      rw [hparts, List.cons_append] at ih
      rw [splitAt_cons_of_ne separator hc ih, splitAt_cons_of_ne separator hc hparts, List.cons_append]

theorem splitAt_of_not_mem {cs : List Char} (h : separator ∉ cs) : splitAt separator cs = [cs] := by
  induction cs with
  | nil => rfl
  | cons c cs ih =>
    rw [List.mem_cons, not_or] at h
    exact splitAt_cons_of_ne separator (Ne.symm h.1) (ih h.2)

theorem not_mem_of_mem_splitAt {cs part : List Char} (h : part ∈ splitAt separator cs) : separator ∉ part := by
  induction cs generalizing part with
  | nil =>
    rw [splitAt, List.mem_singleton] at h
    simp [h]
  | cons c cs ih =>
    obtain ⟨first, parts, hparts⟩ := List.exists_cons_of_ne_nil (splitAt_ne_nil separator cs)
    rw [hparts] at ih
    by_cases hc : c = separator
    . rw [splitAt, if_pos hc, hparts, List.mem_cons] at h
      obtain rfl | h := h
      . exact List.not_mem_nil
      . exact ih h
    . rw [splitAt_cons_of_ne separator hc hparts, List.mem_cons] at h
      obtain rfl | h := h
      . have := ih List.mem_cons_self
        simp [this, Ne.symm hc]
      . exact ih (List.mem_cons_of_mem _ h)

end Path

theorem Construct.splitAt_joinLines {parts : List (List Char)} (h : ∀ part ∈ parts, '\n' ∉ part) (hparts : parts ≠ [])
    : Path.splitAt '\n' (joinLines parts) = parts := by
  fun_induction joinLines parts with
  | case1 => exact absurd rfl hparts
  | case2 l => exact Path.splitAt_of_not_mem '\n' (h l List.mem_cons_self)
  | case3 l parts hrest ih =>
    rw [Path.splitAt_append, Path.splitAt_of_not_mem '\n' (h l List.mem_cons_self), List.singleton_append,
      ih (fun part hpart => h part (List.mem_cons_of_mem l hpart)) hrest]

/-! ### Numbers of lines -/

namespace SourceLine

/--
The same line, further down by a number of lines.
-/
def shift (count : Nat) (l : SourceLine) : SourceLine :=
  { l with number := l.number + count }

theorem enumerate_append (first : Nat) (xs ys : List (List Char))
    : enumerate first (xs ++ ys) = enumerate first xs ++ enumerate (first + xs.length) ys := by
  induction xs generalizing first with
  | nil => rfl
  | cons x xs ih =>
    rw [List.cons_append, enumerate, enumerate, ih, List.cons_append, List.length_cons, Nat.add_right_comm first,
      Nat.add_assoc first]

theorem enumerate_add (first count : Nat) (xs : List (List Char))
    : enumerate (first + count) xs = (enumerate first xs).map (shift count) := by
  induction xs generalizing first with
  | nil => rfl
  | cons x xs ih =>
    rw [enumerate, enumerate, List.map_cons, Nat.add_right_comm, ih]
    rfl

@[simp]
theorem length_enumerate (first : Nat) (xs : List (List Char)) : (enumerate first xs).length = xs.length := by
  induction xs generalizing first with
  | nil => rfl
  | cons x xs ih => rw [enumerate, List.length_cons, List.length_cons, ih]

theorem take_enumerate (first count : Nat) (xs : List (List Char))
    : (enumerate first xs).take count = enumerate first (xs.take count) := by
  induction xs generalizing first count with
  | nil => simp [enumerate]
  | cons x xs ih =>
    cases count with
    | zero => rfl
    | succ count => rw [enumerate, List.take_succ_cons, List.take_succ_cons, enumerate, ih]

theorem number_of_getElem? {first i : Nat} {xs : List (List Char)} {l : SourceLine}
    (h : (enumerate first xs)[i]? = some l) : l.number = first + i := by
  induction xs generalizing first i with
  | nil => cases h
  | cons x xs ih =>
    cases i with
    | zero =>
      cases h
      rfl
    | succ i =>
      have := ih h
      omega

end SourceLine

def rawLines (source : String) : List (List Char) :=
  Path.splitAt '\n' source.toList

def lineCount (source : String) : Nat :=
  (sourceLines source).length

/--
The first lines of a source alone.
-/
def firstLines (count : Nat) (source : String) : String :=
  String.ofList (Construct.joinLines ((rawLines source).take count))

theorem lineCount_pos (source : String) : 0 < lineCount source := by
  unfold lineCount sourceLines
  rw [SourceLine.length_enumerate, List.length_map]
  exact List.length_pos_iff.2 (Path.splitAt_ne_nil '\n' _)

theorem sourceLines_append (a b : String)
    : sourceLines (a ++ "\n" ++ b) = sourceLines a ++ (sourceLines b).map (SourceLine.shift (lineCount a)) := by
  have hlist : (a ++ "\n" ++ b).toList = a.toList ++ '\n' :: b.toList := by simp
  unfold lineCount sourceLines
  rw [hlist, Path.splitAt_append, List.map_append, SourceLine.enumerate_append, SourceLine.enumerate_add,
    SourceLine.length_enumerate]

theorem sourceLines_firstLines {count : Nat} (hcount : count ≠ 0) (source : String)
    : sourceLines (firstLines count source) = (sourceLines source).take count := by
  have hraw : rawLines source ≠ [] := Path.splitAt_ne_nil '\n' _
  unfold sourceLines firstLines
  rw [String.toList_ofList, Construct.splitAt_joinLines, SourceLine.take_enumerate, List.map_take]
  . rfl
  . intro part hpart
    exact Path.not_mem_of_mem_splitAt '\n' (List.mem_of_mem_take hpart)
  . simp [hcount, hraw]

theorem getElem?_of_mem_sourceLines {source : String} {l : SourceLine} (h : l ∈ sourceLines source)
    : (sourceLines source)[l.number - 1]? = some l := by
  obtain ⟨i, hi⟩ := List.mem_iff_getElem?.1 h
  have hnumber : l.number = 1 + i := SourceLine.number_of_getElem? hi
  rw [hnumber, Nat.add_sub_cancel_left]
  exact hi

end VisualNovel
