import VisualNovel.Cursor.Basic

/-!
This module contains the reading of tags. A tag that names a macro is never delivered: the macro is run in
its place. Reading ends because every step takes a tag from a frame or closes a frame, and what a step adds
in its place weighs less, since macros are nested at most so deep.
-/

namespace VisualNovel

/--
The parameters that a call gives to its macro, from the tag of the call and the parameters of the macro that
the call stands in. Working them out may change a state.
-/
abbrev Resolver (σ : Type) := Tag → Option Fields → ExceptT CursorError (StateM σ) Fields

/--
The values of the call as they are written.
-/
def Resolver.written : Resolver σ := fun call _ => return call.values

namespace MacroTable

/--
More than the number of tags in the longest macro, by two.
-/
def base (table : MacroTable) : Nat :=
  go table.entries
where
  go : List (String × Macro) → Nat
    | [] => 2
    | (_, m) :: entries => max (m.tags.length + 2) (go entries)

theorem base.two_le_go (entries : List (String × Macro)) : 2 ≤ base.go entries := by
  cases entries with
  | nil => simp [go]
  | cons e es => simp only [go]; omega

theorem two_le_base (table : MacroTable) : 2 ≤ table.base :=
  base.two_le_go table.entries

theorem base.length_lt_go {entries : List (String × Macro)} {name : String} {m : Macro}
    (h : entries.lookup name = some m) : m.tags.length + 2 ≤ base.go entries := by
  induction entries with
  | nil => simp at h
  | cons e es ih =>
    obtain ⟨key, other⟩ := e
    simp only [List.lookup_cons] at h
    split at h
    . cases h
      simp only [go]
      omega
    . have := ih h
      simp only [go]
      omega

theorem length_lt_base {table : MacroTable} {name : String} {m : Macro}
    (h : table.find? name = some m) : m.tags.length + 2 ≤ table.base :=
  base.length_lt_go h

end MacroTable

namespace Cursor

/--
The weight of running macros: each weighs its unread tags and one more, in units that shrink with its depth.
-/
def macroWeight (base maxDepth : Nat) : List Macro → Nat
  | [] => 0
  | m :: ms =>
    (m.unread.length + 1) * Nat.pow base (maxDepth - (ms.length + 1)) + macroWeight base maxDepth ms

def weight (base : Nat) (c : Cursor) : Nat :=
  (c.tags.drop c.point).length * Nat.pow base c.maxDepth + macroWeight base c.maxDepth c.macros

/--
Closes the innermost macro, and the loops that were opened in it.
-/
def closeMacro (c : Cursor) : Cursor :=
  match c.macros with
  | [] => c
  | _ :: ms => { c with macros := ms, loops := c.loops.filter (·.depth ≤ ms.length) }

/--
Takes the next tag of the current frame.
-/
def take? (c : Cursor) : Option (Tag × Cursor) :=
  match c.macros with
  | m :: ms => m.next?.map fun (tag, m) => (tag, { c with macros := m :: ms })
  | [] => c.tags[c.point]?.map (·, { c with point := c.point + 1 })

/--
What a step of reading comes to: a tag that has been read, the end of the script, or a frame that has been
opened or closed, so that reading goes on.
-/
inductive Progress where
  | read (tag : Tag)
  | finished
  | more
  deriving Repr

/--
Opens a macro for a call, unless macros are nested as deep as they may be.
-/
def openMacro (definition : Macro) (parameters : Fields) (c : Cursor) : Except CursorError Cursor :=
  if c.macroDepth < c.maxDepth then
    .ok { c with macros := definition.instantiate parameters :: c.macros }
  else
    .error (.macroDepth definition.name c.maxDepth)

/--
One step of reading. A call is consumed before its parameters are worked out, so a fault of these leaves the
cursor behind the call.
-/
def step (table : MacroTable) (resolve : Resolver σ) (c : Cursor) (s : σ)
    : Except CursorError Progress × Cursor × σ :=
  match c.take? with
  | none => if c.macros.isEmpty then (.ok .finished, c, s) else (.ok .more, c.closeMacro, s)
  | some (tag, c) =>
    match table.find? tag.name with
    | none => (.ok (.read tag), { c with latest := some tag }, s)
    | some definition =>
      match (resolve tag c.parameters).run.run s with
      | (.error e, s) => (.error e, c, s)
      | (.ok parameters, s) =>
        match c.openMacro definition parameters with
        | .error e => (.error e, c, s)
        | .ok c => (.ok .more, c, s)

theorem drop_length_succ {α : Type} {l : List α} {i : Nat} {a : α} (h : l[i]? = some a)
    : (l.drop i).length = (l.drop (i + 1)).length + 1 := by
  have := (List.getElem?_eq_some_iff.1 h).1
  simp
  omega

theorem weight_closeMacro_lt {base : Nat} (hbase : 2 ≤ base) {c : Cursor} (h : c.macros ≠ [])
    : c.closeMacro.weight base < c.weight base := by
  match hm : c.macros with
  | [] => exact absurd hm h
  | m :: ms =>
    have : 0 < Nat.pow base (c.maxDepth - (ms.length + 1)) := Nat.pow_pos (by omega)
    have : 0 < (m.unread.length + 1) * Nat.pow base (c.maxDepth - (ms.length + 1)) :=
      Nat.mul_pos (by omega) this
    simp only [weight, closeMacro, hm, macroWeight]
    omega

/--
Taking a tag frees the weight of a unit of its frame.
-/
theorem weight_take? (base : Nat) {c d : Cursor} {tag : Tag} (h : c.take? = some (tag, d))
    : d.weight base + Nat.pow base (c.maxDepth - c.macroDepth) = c.weight base ∧ d.maxDepth = c.maxDepth ∧
      d.macroDepth = c.macroDepth := by
  match hm : c.macros with
  | [] =>
    simp only [take?, hm, Option.map_eq_some_iff] at h
    obtain ⟨t, ht, he⟩ := h
    cases he
    have := drop_length_succ ht
    simp only [weight, this, hm, macroWeight, macroDepth, List.length_nil, Nat.sub_zero, and_self,
      and_true, Nat.add_mul]
    omega
  | m :: ms =>
    simp only [take?, hm, Macro.next?, Option.map_map, Option.map_eq_some_iff] at h
    obtain ⟨t, ht, he⟩ := h
    cases he
    have := drop_length_succ ht
    simp only [weight, hm, macroWeight, Macro.unread, this, macroDepth, List.length_cons, and_self,
      and_true, Nat.add_mul]
    omega

theorem weight_openMacro_lt {table : MacroTable} {name : String} {definition : Macro}
    (hfind : table.find? name = some definition) {c d : Cursor} {parameters : Fields}
    (h : c.openMacro definition parameters = .ok d)
    : d.weight table.base < c.weight table.base + Nat.pow table.base (c.maxDepth - c.macroDepth) := by
  unfold openMacro at h
  split at h
  . next hdepth =>
    cases h
    have hlen := MacroTable.length_lt_base hfind
    have hdiff : c.maxDepth - c.macroDepth = c.maxDepth - (c.macros.length + 1) + 1 := by
      simp only [macroDepth] at hdepth ⊢
      omega
    have hpow : Nat.pow table.base (c.maxDepth - c.macroDepth) =
        table.base * Nat.pow table.base (c.maxDepth - (c.macros.length + 1)) := by
      rw [hdiff, Nat.mul_comm]
      rfl
    have hpos : 0 < Nat.pow table.base (c.maxDepth - (c.macros.length + 1)) :=
      Nat.pow_pos (by have := table.two_le_base; omega)
    have := Nat.mul_lt_mul_of_pos_right (show definition.tags.length + 1 < table.base by omega) hpos
    simp only [weight, macroWeight, Macro.instantiate, Macro.unread, List.drop_zero]
    omega
  . cases h

theorem weight_step_lt {table : MacroTable} {resolve : Resolver σ} {c d : Cursor} {s t : σ}
    (h : c.step table resolve s = (.ok .more, d, t)) : d.weight table.base < c.weight table.base := by
  unfold step at h
  split at h
  . split at h
    . cases h
    . next hm =>
      cases h
      exact weight_closeMacro_lt table.two_le_base (by simpa using hm)
  . next tag c' htake =>
    have htake := weight_take? table.base htake
    split at h
    . cases h
    . next definition hfind =>
      split at h
      . cases h
      . split at h
        . cases h
        . next d' hopen =>
          cases h
          have := weight_openMacro_lt hfind hopen
          rw [htake.2.1, htake.2.2] at this
          omega

/--
Reads the next tag, none at the end of the script.
-/
def next (table : MacroTable) (resolve : Resolver σ) (c : Cursor) (s : σ)
    : Except CursorError (Option Tag) × Cursor × σ :=
  match _h : c.step table resolve s with
  | (.error e, c, s) => (.error e, c, s)
  | (.ok (.read tag), c, s) => (.ok (some tag), c, s)
  | (.ok .finished, c, s) => (.ok none, c, s)
  | (.ok .more, d, s) => next table resolve d s
termination_by c.weight table.base
decreasing_by exact weight_step_lt ‹_›

end Cursor
end VisualNovel
