import VisualNovel.Proofs.Reading

/-!
This module contains that the reading of a tag comes to an end. Each round of a reading closes a frame that has nothing left
or opens one for a call, so neither the frames nor the tags that are left grow fewer. The weight of the cursor does, whatever
macros there are, also with macros that have no tags or that call each other for ever.
-/

namespace VisualNovel
namespace Cursor

variable {σ : Type}

/--
So many rounds lead from one cursor to another, each of them opening or closing a frame.
-/
inductive Rounds (table : MacroTable) (resolve : Resolver σ) : Nat → Cursor → σ → Cursor → σ → Prop where
  | here (c : Cursor) (s : σ) : Rounds table resolve 0 c s c s
  | round {n : Nat} {c d last : Cursor} {s t u : σ} (h : c.step table resolve s = (.ok .more, d, t))
    (hlater : Rounds table resolve n d t last u) : Rounds table resolve (n + 1) c s last u

/--
The ways in which a reading ends where a cursor stands: with a tag that is no call, with the end of the script, with the
fault of a call whose parameters cannot be worked out, or with a call for which macros are nested too deep already.
-/
inductive Ends (table : MacroTable) (resolve : Resolver σ) (c : Cursor) (s : σ)
    : Except CursorError (Option Tag) × Cursor × σ → Prop where
  | delivered {tag : Tag} {rest : List Tag} (h : c.unread = tag :: rest) (hplain : table.find? tag.name = none)
    : Ends table resolve c s (.ok (some tag), { c.skip 1 with latest := some tag }, s)
  | finished (h : c.unread = []) (hm : c.macros = []) : Ends table resolve c s (.ok none, c, s)
  | unresolved {call : Tag} {rest : List Tag} {m : Macro} {e : CursorError} {t : σ} (h : c.unread = call :: rest)
    (hfind : table.find? call.name = some m) (hresolve : (resolve call c.parameters).run.run s = (.error e, t))
    : Ends table resolve c s (.error e, c.skip 1, t)
  | tooDeep {call : Tag} {rest : List Tag} {m : Macro} {parameters : Fields} {t : σ} (h : c.unread = call :: rest)
    (hfind : table.find? call.name = some m)
    (hresolve : (resolve call c.parameters).run.run s = (.ok parameters, t)) (hdepth : c.maxDepth ≤ c.macroDepth)
    : Ends table resolve c s (.error (.macroDepth m.name c.maxDepth), c.skip 1, t)

section Step

variable {table : MacroTable} {resolve : Resolver σ} {c d : Cursor} {s t : σ}

theorem maxDepth_of_step (h : c.step table resolve s = (.ok .more, d, t)) : d.maxDepth = c.maxDepth := by
  unfold step at h
  split at h
  . split at h
    . cases h
    . cases h
      unfold closeMacro
      split <;> rfl
  . next htake =>
    obtain ⟨_, hmax, _⟩ := weight_take? table.base htake
    split at h
    . cases h
    . split at h
      . cases h
      . split at h
        . cases h
        . next hopen =>
          cases h
          unfold openMacro at hopen
          split at hopen
          . cases hopen
            exact hmax
          . cases hopen

/--
Where no further round follows, the reading ends.
-/
theorem ends_or_more (table : MacroTable) (resolve : Resolver σ) (c : Cursor) (s : σ)
    : Ends table resolve c s (c.next table resolve s) ∨ ∃ d t, c.step table resolve s = (.ok .more, d, t) := by
  cases h : c.unread with
  | nil =>
    by_cases hm : c.macros = []
    . rw [next_of_end h hm]
      exact .inl (.finished h hm)
    . right
      exact ⟨c.closeMacro, s, by simp [step, take?_of_unread_nil h, hm]⟩
  | cons tag rest =>
    cases hfind : table.find? tag.name with
    | none =>
      rw [next_of_tag h hfind]
      exact .inl (.delivered h hfind)
    | some m =>
      obtain ⟨answer, t, hresolve⟩ : ∃ answer t, (resolve tag c.parameters).run.run s = (answer, t) := ⟨_, _, rfl⟩
      cases answer with
      | error e =>
        rw [next_of_unresolved h hfind hresolve]
        exact .inl (.unresolved h hfind hresolve)
      | ok parameters =>
        by_cases hdepth : c.macroDepth < c.maxDepth
        . right
          exact ⟨c.enter m parameters, t,
            by simp [step, take?_of_unread_cons h, hfind, hresolve, openMacro, hdepth, enter]⟩
        . rw [next_of_too_deep h hfind hresolve (Nat.not_lt.1 hdepth)]
          exact .inl (.tooDeep h hfind hresolve (Nat.not_lt.1 hdepth))

end Step

namespace Rounds

variable {table : MacroTable} {resolve : Resolver σ} {n : Nat} {c d : Cursor} {s t : σ}

theorem add_weight_le (h : Rounds table resolve n c s d t) : n + d.weight table.base ≤ c.weight table.base := by
  induction h with
  | here c s => omega
  | round h _ ih =>
    have := weight_step_lt h
    omega

theorem maxDepth_eq (h : Rounds table resolve n c s d t) : d.maxDepth = c.maxDepth := by
  induction h with
  | here c s => rfl
  | round h _ ih => rw [ih, maxDepth_of_step h]

end Rounds

theorem exists_rounds (table : MacroTable) (resolve : Resolver σ) (c : Cursor) (s : σ)
    : ∃ n d t, Rounds table resolve n c s d t ∧ Ends table resolve d t (c.next table resolve s) := by
  -- By induction on the weight, which every round makes smaller.
  induction hweight : c.weight table.base using Nat.strongRecOn generalizing c s with
  | ind weight ih =>
    obtain hends | ⟨d, t, hstep⟩ := ends_or_more table resolve c s
    . exact ⟨0, c, s, .here c s, hends⟩
    . have hlt : d.weight table.base < weight := hweight ▸ weight_step_lt hstep
      obtain ⟨n, last, u, hrounds, hends⟩ := ih _ hlt d t rfl
      rw [next_of_step_more hstep]
      exact ⟨n + 1, last, u, .round hstep hrounds, hends⟩

/--
A reading ends after finitely many rounds, of which there are no more than the cursor weighs: with a tag, with the end of the
script, with the fault of a call, or at the limit of the nesting.
-/
theorem reading_ends (table : MacroTable) (resolve : Resolver σ) (c : Cursor) (s : σ)
    : (∃ n d t, Rounds table resolve n c s d t ∧ Ends table resolve d t (c.next table resolve s)) ∧
        ∀ n d t, Rounds table resolve n c s d t → n ≤ c.weight table.base ∧ d.maxDepth = c.maxDepth := by
  refine ⟨exists_rounds table resolve c s, ?_⟩
  intro n d t hrounds
  have := hrounds.add_weight_le
  exact ⟨by omega, hrounds.maxDepth_eq⟩

/-!
A macro that does nothing but call itself.
-/

example
    : let chase : Macro := { name := "chase", tags := [.withBody "chase" "" 2], line := 1 }
      let c : Cursor := { file := "start", tags := [.withBody "chase" "" 4], maxDepth := 2 }
      (c.next (MacroTable.define {} chase) .written ()).1 = .error (.macroDepth "chase" 2) := by
  cbv

end Cursor
end VisualNovel
