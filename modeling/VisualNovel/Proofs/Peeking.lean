import VisualNovel.Proofs.Reading

/-!
This module contains that looking at the next tag agrees with reading it. The look goes through all frames at once, while
reading closes the frames that have nothing left one after another.
-/

namespace VisualNovel

variable {σ : Type}

/--
A resolver that takes down the calls it is asked about, the first one first.
-/
def Resolver.noting (resolve : Resolver σ) : Resolver (σ × List Tag) :=
  fun call parameters => ExceptT.mk fun (s, calls) =>
    let (answer, t) := (resolve call parameters).run.run s
    (answer, t, calls ++ [call])

theorem Resolver.run_noting (resolve : Resolver σ) (call : Tag) (parameters : Option Fields) (s : σ) (calls : List Tag)
    : (resolve.noting call parameters).run.run (s, calls)
        =
      (((resolve call parameters).run.run s).1, ((resolve call parameters).run.run s).2, calls ++ [call]) :=
  rfl

namespace Cursor

/--
What comes of the tag in front of a cursor: there is none, it is delivered and remembered, or it is the first call that is
resolved.
-/
inductive StartsWith (table : MacroTable) : Option Tag → Except CursorError (Option Tag) → Cursor → List Tag → Prop where
  | finished (after : Cursor) : StartsWith table none (.ok none) after []
  | delivered {tag : Tag} {after : Cursor} (hplain : table.contains tag.name = false) (hlatest : after.latest = some tag)
    : StartsWith table (some tag) (.ok (some tag)) after []
  | called {tag : Tag} (hcall : table.contains tag.name = true) (result : Except CursorError (Option Tag))
    (after : Cursor) (later : List Tag) : StartsWith table (some tag) result after (tag :: later)

/--
This is the next tag that is read, whatever macros there are and however their calls are resolved. That the calls are
taken down changes nothing else.
-/
def ReadsFirst (c : Cursor) (tag? : Option Tag) : Prop :=
  ∀ (σ : Type) (table : MacroTable) (resolve : Resolver σ) (s : σ),
    let (result, after, t) := c.next table resolve s
    ∃ calls, c.next table resolve.noting (s, []) = (result, after, t, calls) ∧ StartsWith table tag? result after calls

/-! ### Frames that have nothing left -/

section Frames

variable {c : Cursor} {tag : Tag} {rest : List Tag}

theorem head?_unread_of_macros_nil (hm : c.macros = []) : c.unread.head? = c.peek? := by
  unfold unread frameTags framePoint peek?
  rw [hm, List.head?_drop]
  rfl

theorem peek?_of_unread_cons (h : c.unread = tag :: rest) : c.peek? = some tag := by
  cases hm : c.macros with
  | nil => rw [← head?_unread_of_macros_nil hm, h, List.head?_cons]
  | cons m ms =>
    unfold unread frameTags framePoint at h
    rw [hm] at h
    have hnext : m.tags[m.point]? = some tag := by rw [← List.head?_drop, h, List.head?_cons]
    unfold peek?
    rw [hm, List.findSome?_cons, hnext]
    rfl

theorem peek?_of_frame_end (h : c.unread = []) (hm : c.macros ≠ []) : c.peek? = c.closeMacro.peek? := by
  obtain ⟨m, ms, hms⟩ := List.exists_cons_of_ne_nil hm
  unfold unread frameTags framePoint at h
  rw [hms] at h
  have hnext : m.tags[m.point]? = none := by rw [← List.head?_drop, h, List.head?_nil]
  unfold peek? closeMacro
  rw [hms, List.findSome?_cons, hnext]

/--
Without the frames that have nothing left, the cursor stands at the tag that is looked at, and reads on in the same way.
-/
theorem exists_settled (c : Cursor)
    : ∃ d : Cursor, d.unread.head? = c.peek? ∧ (d.unread = [] → d.macros = []) ∧
        ∀ (σ : Type) (table : MacroTable) (resolve : Resolver σ) (s : σ),
          c.next table resolve s = d.next table resolve s := by
  -- By induction on the macros that are running: a frame that has nothing left is closed, and one of them less is running.
  induction hdepth : c.macros.length generalizing c with
  | zero =>
    have hm : c.macros = [] := List.length_eq_zero_iff.1 hdepth
    exact ⟨c, head?_unread_of_macros_nil hm, fun _ => hm, fun _ _ _ _ => rfl⟩
  | succ depth ih =>
    have hm : c.macros ≠ [] := List.ne_nil_of_length_eq_add_one hdepth
    cases h : c.unread with
    | cons tag rest =>
      refine ⟨c, ?_, ?_, fun _ _ _ _ => rfl⟩
      . rw [h, peek?_of_unread_cons h, List.head?_cons]
      . rw [h]
        exact nofun
    | nil =>
      have hclosed : c.closeMacro.macros.length = depth := by
        obtain ⟨m, ms, hms⟩ := List.exists_cons_of_ne_nil hm
        rw [hms, List.length_cons] at hdepth
        unfold closeMacro
        rw [hms]
        exact Nat.succ.inj hdepth
      obtain ⟨d, hpeek, hend, hnext⟩ := ih c.closeMacro hclosed
      refine ⟨d, hpeek.trans (peek?_of_frame_end h hm).symm, hend, ?_⟩
      intro σ table resolve s
      rw [next_of_frame_end h hm, hnext]

end Frames

section Calls

variable (table : MacroTable) (resolve : Resolver σ)

/-! ### Calls that are taken down -/

theorem step_noting (c : Cursor) (s : σ) (calls : List Tag)
    : ∃ more, c.step table resolve.noting (s, calls)
        =
      ((c.step table resolve s).1, (c.step table resolve s).2.1, (c.step table resolve s).2.2, calls ++ more) := by
  unfold step
  cases htake : c.take? with
  | none => by_cases hm : c.macros.isEmpty <;> exact ⟨[], by simp [hm]⟩
  | some taken =>
    obtain ⟨tag, d⟩ := taken
    dsimp only
    cases hfind : table.find? tag.name with
    | none => exact ⟨[], by simp⟩
    | some definition =>
      refine ⟨[tag], ?_⟩
      dsimp only
      rw [Resolver.run_noting]
      cases (resolve tag d.parameters).run.run s with
      | mk answer t =>
        cases answer with
        | error e => rfl
        | ok parameters =>
          dsimp only
          cases d.openMacro definition parameters <;> rfl

/--
Taking down the calls does not change what is read, and what has been taken down stays in front.
-/
theorem next_noting (c : Cursor) (s : σ) (calls : List Tag)
    : ∃ more, c.next table resolve.noting (s, calls)
        =
      ((c.next table resolve s).1, (c.next table resolve s).2.1, (c.next table resolve s).2.2, calls ++ more) := by
  fun_induction c.next table resolve s generalizing calls with
  | case1 c s e d t hstep | case2 c s tag d t hstep | case3 c s d t hstep =>
    obtain ⟨more, hnoting⟩ := step_noting table resolve c s calls
    rw [hstep] at hnoting
    exact ⟨more, by rw [next_eq, hnoting]⟩
  | case4 c s d t hstep ih =>
    obtain ⟨more, hnoting⟩ := step_noting table resolve c s calls
    rw [hstep] at hnoting
    obtain ⟨later, hlater⟩ := ih (calls ++ more)
    refine ⟨more ++ later, ?_⟩
    rw [next_of_step_more hnoting, hlater, List.append_assoc]

/--
The call in front of the cursor is resolved before any other one.
-/
theorem startsWith_of_call {c : Cursor} {tag : Tag} {rest : List Tag} {m : Macro} (h : c.unread = tag :: rest)
    (hfind : table.find? tag.name = some m) (s : σ)
    : let (result, after, t) := c.next table resolve s
      ∃ calls, c.next table resolve.noting (s, []) = (result, after, t, calls) ∧
        StartsWith table (some tag) result after calls := by
  have hcall : table.contains tag.name = true := by rw [MacroTable.contains, hfind, Option.isSome_some]
  -- The resolver is asked before the depth is looked at, so the call is taken down even where it is too deep.
  cases hresolve : (resolve tag c.parameters).run.run s with
  | mk answer t =>
    have hnoted : (resolve.noting tag c.parameters).run.run (s, []) = (answer, t, [tag]) := by
      rw [Resolver.run_noting, hresolve, List.nil_append]
    cases answer with
    | error e =>
      rw [next_of_unresolved h hfind hresolve, next_of_unresolved h hfind hnoted]
      exact ⟨[tag], rfl, .called hcall _ _ []⟩
    | ok parameters =>
      by_cases hdepth : c.macroDepth < c.maxDepth
      . obtain ⟨later, hlater⟩ := next_noting table resolve (c.enter m parameters) t [tag]
        rw [next_of_call h hfind hresolve hdepth, next_of_call h hfind hnoted hdepth]
        exact ⟨tag :: later, hlater, .called hcall _ _ later⟩
      . have hdeep := Nat.not_lt.1 hdepth
        rw [next_of_too_deep h hfind hresolve hdeep, next_of_too_deep h hfind hnoted hdeep]
        exact ⟨[tag], rfl, .called hcall _ _ []⟩

/-! ### Tags that are delivered -/

theorem contains_of_step {c d : Cursor} {s t : σ} {tag : Tag}
    (h : c.step table resolve s = (.ok (.read tag), d, t)) : table.contains tag.name = false := by
  unfold step at h
  split at h
  . split at h <;> cases h
  . split at h
    . next hfind =>
      cases h
      rw [MacroTable.contains, hfind, Option.isSome_none]
    . split at h
      . cases h
      . split at h <;> cases h

theorem contains_of_next {c : Cursor} {s : σ} {tag : Tag} (h : (c.next table resolve s).1 = .ok (some tag))
    : table.contains tag.name = false := by
  fun_induction c.next table resolve s with
  | case1 => cases h
  | case2 c s read d t hstep =>
    cases h
    exact contains_of_step table resolve hstep
  | case3 => cases h
  | case4 c s d t hstep ih => exact ih h

end Calls

theorem readsFirst_peek? (c : Cursor) : c.ReadsFirst c.peek? := by
  intro σ table resolve s
  obtain ⟨d, hpeek, hend, hnext⟩ := exists_settled c
  -- Both readings go on from the same cursor, since closing a frame asks the resolver nothing.
  rw [hnext, hnext, ← hpeek]
  cases h : d.unread with
  | nil =>
    rw [next_of_end h (hend h), next_of_end h (hend h)]
    exact ⟨[], rfl, .finished d⟩
  | cons tag rest =>
    cases hfind : table.find? tag.name with
    | none =>
      have hplain : table.contains tag.name = false := by rw [MacroTable.contains, hfind, Option.isSome_none]
      rw [next_of_tag h hfind, next_of_tag h hfind]
      exact ⟨[], rfl, .delivered hplain rfl⟩
    | some m => exact startsWith_of_call table resolve h hfind s

/--
The tag that a look shows is the one that the next reading starts with, and no reading delivers a call.
-/
theorem next_agrees_with_peek? (c : Cursor)
    : c.ReadsFirst c.peek? ∧
        ∀ (σ : Type) (table : MacroTable) (resolve : Resolver σ) (s : σ) (tag : Tag),
          (c.next table resolve s).1 = .ok (some tag) → table.contains tag.name = false :=
  ⟨readsFirst_peek? c, fun _ table resolve _ _ => contains_of_next table resolve⟩

section Sample

/--
A macro that has nothing left runs in one that has been read in part.
-/
def nestedEnd : Cursor where
  file := "start"
  tags := [.stop 9]
  maxDepth := 4
  macros := [
    { name := "nod", tags := [.lineBreak 2], line := 1, point := 1 },
    { name := "greet", tags := [.withBody "nod" "" 5, .withBody "bow" "" 6, .withBody "nod" "" 7], line := 4, point := 1 }
  ]

theorem nestedEnd_reads
    : nestedEnd.ReadsFirst (some (.withBody "bow" "" 6)) ∧
        (nestedEnd.next {} .written ()).1 = .ok (some (.withBody "bow" "" 6)) ∧
        MacroTable.contains {} "bow" = false := by
  obtain ⟨hfirst, hplain⟩ := next_agrees_with_peek? nestedEnd
  have hread : (nestedEnd.next {} .written ()).1 = .ok (some (.withBody "bow" "" 6)) := by
    rw [next_of_frame_end rfl (List.cons_ne_nil _ _), next_of_tag rfl rfl]
  exact ⟨hfirst, hread, hplain Unit {} .written () _ hread⟩

end Sample

end Cursor
end VisualNovel
