import VisualNovel.Proofs.Reading

/-!
This module contains the inlining of macros by recursion on the tags, and the proof that reading tags one
after another delivers it. The inlining knows neither positions nor a stack: a call is replaced by the inlining
of the body, for as many levels as there is room for.
-/

namespace VisualNovel

variable {σ : Type}

def Resolver.total (answer : Tag → Option Fields → StateM σ Fields) : Resolver σ :=
  fun tag parameters => ExceptT.lift (answer tag parameters)

theorem Resolver.run_total (answer : Tag → Option Fields → StateM σ Fields) (tag : Tag)
    (parameters : Option Fields) (s : σ)
    : (Resolver.total answer tag parameters).run.run s
        =
      (.ok ((answer tag parameters).run s).1, ((answer tag parameters).run s).2) :=
  rfl

structure Delivery (σ : Type) where
  tag : Tag
  parameters : Option Fields
  state : σ

/--
Tags that have been delivered, the fault behind them if there is one, and the state of the resolver at the end.
-/
structure Deliveries (σ : Type) where
  delivered : List (Delivery σ)
  fault : Option CursorError
  state : σ

namespace Deliveries

def nothing (s : σ) : Deliveries σ :=
  { delivered := [], fault := none, state := s }

def failed (e : CursorError) (s : σ) : Deliveries σ :=
  { delivered := [], fault := some e, state := s }

def deliver (d : Delivery σ) (ds : Deliveries σ) : Deliveries σ :=
  { ds with delivered := d :: ds.delivered }

def andThen (ds : Deliveries σ) (next : σ → Deliveries σ) : Deliveries σ :=
  match ds.fault with
  | some _ => ds
  | none =>
    let later := next ds.state
    { later with delivered := ds.delivered ++ later.delivered }

@[simp]
theorem andThen_deliver (d : Delivery σ) (ds : Deliveries σ) (next : σ → Deliveries σ)
    : (ds.deliver d).andThen next = (ds.andThen next).deliver d := by
  unfold andThen deliver
  cases h : ds.fault <;> simp [h]

@[simp]
theorem nothing_andThen (s : σ) (next : σ → Deliveries σ) : (nothing s).andThen next = next s := by
  simp [andThen, nothing]

@[simp]
theorem andThen_nothing (ds : Deliveries σ) : ds.andThen nothing = ds := by
  unfold andThen nothing
  cases ds with
  | mk delivered fault state => cases fault <;> simp

theorem fault_andThen_of_some (ds : Deliveries σ) (next : σ → Deliveries σ) {e : CursorError}
    (h : ds.fault = some e) : (ds.andThen next).fault = ds.fault := by
  simp [andThen, h]

theorem fault_andThen_of_none (ds : Deliveries σ) (next : σ → Deliveries σ) (h : ds.fault = none)
    : (ds.andThen next).fault = (next ds.state).fault := by
  simp [andThen, h]

theorem andThen_assoc (ds : Deliveries σ) (next last : σ → Deliveries σ)
    : (ds.andThen next).andThen last = ds.andThen (fun s => (next s).andThen last) := by
  unfold andThen
  cases h : ds.fault with
  | some e => simp [h]
  | none => cases hnext : (next ds.state).fault <;> simp [hnext]

end Deliveries

/--
The inlining of tags that stand in a frame with the given parameters, with room for as many levels of macros.
The parameters of a call are worked out before it shows that there is no room.
-/
def inlining (table : MacroTable) (resolve : Resolver σ) (limit room : Nat) (parameters : Option Fields)
    (tags : List Tag) (s : σ) : Deliveries σ :=
  match tags with
  | [] => .nothing s
  | tag :: tags =>
    match table.find? tag.name with
    | none => (inlining table resolve limit room parameters tags s).deliver ⟨tag, parameters, s⟩
    | some m =>
      match (resolve tag parameters).run.run s, room with
      | (.error e, t), _ => .failed e t
      | (.ok _, t), 0 => .failed (.macroDepth m.name limit) t
      | (.ok own, t), room + 1 =>
        (inlining table resolve limit room (some own) m.tags t).andThen
          (inlining table resolve limit (room + 1) parameters tags)
termination_by (room, tags.length)

namespace Cursor

theorem weight_read_lt {table : MacroTable} {resolve : Resolver σ} {c d : Cursor} {s t : σ} {tag : Tag}
    (h : c.step table resolve s = (.ok (.read tag), d, t))
    : d.weight table.base < c.weight table.base := by
  unfold step at h
  split at h
  . split at h <;> cases h
  . next c' htake =>
    have hweight := weight_take? table.base htake
    have hpos : 0 < Nat.pow table.base (c.maxDepth - c.macroDepth) := by
      apply Nat.pow_pos
      have := table.two_le_base
      omega
    split at h
    . cases h
      change c'.weight table.base < c.weight table.base
      omega
    . split at h
      . cases h
      . split at h <;> cases h

theorem weight_next_lt {table : MacroTable} {resolve : Resolver σ} {c d : Cursor} {s t : σ} {tag : Tag}
    (h : c.next table resolve s = (.ok (some tag), d, t))
    : d.weight table.base < c.weight table.base := by
  fun_induction Cursor.next table resolve c s with
  | case1 => simp at h
  | case2 c s read c' s' hstep =>
    cases h
    exact weight_read_lt hstep
  | case3 => simp at h
  | case4 c s d s' hstep ih =>
    have := ih h
    have := weight_step_lt hstep
    omega

/--
Reads tag after tag, until the script ends or a tag cannot be read.
-/
def readAll (table : MacroTable) (resolve : Resolver σ) (c : Cursor) (s : σ) : Deliveries σ :=
  match _h : c.next table resolve s with
  | (.error e, _, t) => .failed e t
  | (.ok none, _, t) => .nothing t
  | (.ok (some tag), d, t) => (readAll table resolve d t).deliver ⟨tag, d.parameters, t⟩
termination_by c.weight table.base
decreasing_by exact weight_next_lt ‹_›

/--
The inlining of what running macros have left, the innermost first, and then of what the script has left.
-/
def inliningFrames (table : MacroTable) (resolve : Resolver σ) (limit : Nat) (script : List Tag)
    (macros : List Macro) (s : σ) : Deliveries σ :=
  match macros with
  | [] => inlining table resolve limit limit none script s
  | m :: ms =>
    (inlining table resolve limit (limit - (ms.length + 1)) (some m.parameters) m.unread s).andThen
      (inliningFrames table resolve limit script ms)

def inliningLeft (table : MacroTable) (resolve : Resolver σ) (c : Cursor) (s : σ) : Deliveries σ :=
  inliningFrames table resolve c.maxDepth (c.tags.drop c.point) c.macros s

def inliningAround (table : MacroTable) (resolve : Resolver σ) (c : Cursor) (s : σ) : Deliveries σ :=
  match c.macros with
  | [] => .nothing s
  | _ :: ms => inliningFrames table resolve c.maxDepth (c.tags.drop c.point) ms s

section Left

variable (table : MacroTable) (resolve : Resolver σ) (c : Cursor) (s : σ)

theorem inliningLeft_eq_andThen
    : c.inliningLeft table resolve s
        =
      (inlining table resolve c.maxDepth (c.maxDepth - c.macroDepth) c.parameters c.unread s).andThen
        (c.inliningAround table resolve) := by
  unfold inliningLeft inliningAround unread frameTags framePoint parameters macroDepth
  cases hm : c.macros with
  | nil =>
    simp only [inliningFrames, List.length_nil, Nat.sub_zero, List.head?_nil, Option.map_none]
    exact (Deliveries.andThen_nothing _).symm
  | cons m ms => simp [inliningFrames, Macro.unread]

theorem inliningAround_skip (count : Nat)
    : (c.skip count).inliningAround table resolve = c.inliningAround table resolve := by
  funext s
  unfold inliningAround skip setFramePoint
  cases c.macros <;> simp

theorem inliningLeft_of_frame_end (h : c.unread = [])
    : c.inliningLeft table resolve s = c.inliningAround table resolve s := by
  rw [inliningLeft_eq_andThen, h, inlining]
  simp

theorem inliningAround_eq_closeMacro (h : c.macros ≠ [])
    : c.inliningAround table resolve s = c.closeMacro.inliningLeft table resolve s := by
  unfold inliningAround inliningLeft closeMacro
  cases hm : c.macros with
  | nil => exact absurd hm h
  | cons m ms => rfl

def inliningAfter (result : Except CursorError Progress × Cursor × σ) : Deliveries σ :=
  match result with
  | (.error e, _, t) => .failed e t
  | (.ok .finished, _, t) => .nothing t
  | (.ok .more, d, t) => d.inliningLeft table resolve t
  | (.ok (.read tag), d, t) => (d.inliningLeft table resolve t).deliver ⟨tag, d.parameters, t⟩

theorem inliningLeft_of_tag {tag : Tag} {rest : List Tag} (h : c.unread = tag :: rest)
    (hfind : table.find? tag.name = none)
    : c.inliningLeft table resolve s
        =
      ((c.skip 1).inliningLeft table resolve s).deliver ⟨tag, c.parameters, s⟩ := by
  rw [inliningLeft_eq_andThen, inliningLeft_eq_andThen, inliningAround_skip, h, inlining]
  simp [hfind, h]

theorem inliningLeft_of_call {tag : Tag} {rest : List Tag} {m : Macro} {own : Fields} {t : σ}
    (h : c.unread = tag :: rest) (hfind : table.find? tag.name = some m)
    (hresolve : (resolve tag c.parameters).run.run s = (.ok own, t)) (hdepth : c.macroDepth < c.maxDepth)
    : c.inliningLeft table resolve s = (c.enter m own).inliningLeft table resolve t := by
  -- the frame of the call has room for one more level, of which the body takes one
  obtain ⟨room, hroom⟩ : ∃ room, c.maxDepth - c.macroDepth = room + 1 := by
    exists c.maxDepth - c.macroDepth - 1
    omega
  have hleft : (c.skip 1).inliningLeft table resolve
      = fun s => (inlining table resolve c.maxDepth (room + 1) c.parameters rest s).andThen
          (c.inliningAround table resolve) := by
    funext s
    rw [inliningLeft_eq_andThen, inliningAround_skip]
    simp [hroom, h]
  have henter : (c.enter m own).inliningLeft table resolve t
      = (inlining table resolve c.maxDepth room (some own) m.tags t).andThen
          ((c.skip 1).inliningLeft table resolve) := by
    have hdepth' : c.maxDepth - ((c.skip 1).macros.length + 1) = room := by
      have := c.macroDepth_skip 1
      unfold macroDepth at this hroom
      omega
    unfold inliningLeft enter
    simp only [inliningFrames, Macro.instantiate, Macro.unread, List.drop_zero, maxDepth_skip, hdepth']
  rw [inliningLeft_eq_andThen, h, inlining, henter, hleft, ← Deliveries.andThen_assoc]
  simp [hfind, hresolve, hroom]

theorem inliningLeft_eq_inliningAfter
    : c.inliningLeft table resolve s = inliningAfter table resolve (c.step table resolve s) := by
  cases h : c.unread with
  | nil =>
    -- nothing is left in this frame, so the frame around it goes on
    rw [inliningLeft_of_frame_end _ _ _ _ h, step, take?_of_unread_nil h]
    by_cases hm : c.macros = []
    . simp [inliningAfter, inliningAround, hm]
    . rw [inliningAround_eq_closeMacro _ _ _ _ hm]
      simp [inliningAfter, hm]
  | cons tag rest =>
    rw [step, take?_of_unread_cons h]
    cases hfind : table.find? tag.name with
    | none =>
      rw [inliningLeft_of_tag _ _ _ _ h hfind]
      simp only [hfind, inliningAfter]
      rw [← parameters_skip c 1]
      rfl
    | some m =>
      obtain ⟨result, t, hresolve⟩ : ∃ result t, (resolve tag c.parameters).run.run s = (result, t) :=
        ⟨_, _, rfl⟩
      cases result with
      | error e =>
        rw [inliningLeft_eq_andThen, h, inlining]
        simp [hfind, hresolve, inliningAfter, Deliveries.failed, Deliveries.andThen]
      | ok own =>
        by_cases hdepth : c.macroDepth < c.maxDepth
        . rw [inliningLeft_of_call _ _ _ _ h hfind hresolve hdepth]
          simp [hfind, hresolve, inliningAfter, openMacro, hdepth, enter]
        . rw [inliningLeft_eq_andThen, h, inlining]
          have : c.maxDepth - c.macroDepth = 0 := by omega
          simp [hfind, hresolve, inliningAfter, openMacro, hdepth, this, Deliveries.failed,
            Deliveries.andThen]

end Left

theorem readAll_eq_inliningLeft (table : MacroTable) (resolve : Resolver σ) (c : Cursor) (s : σ)
    : c.readAll table resolve s = c.inliningLeft table resolve s := by
  -- one reading of a tag is several steps, and the tags are several readings: an induction for either
  have hnext (c : Cursor) (s : σ)
      : c.inliningLeft table resolve s
          =
        match c.next table resolve s with
        | (.error e, _, t) => .failed e t
        | (.ok none, _, t) => .nothing t
        | (.ok (some tag), d, t) => (d.inliningLeft table resolve t).deliver ⟨tag, d.parameters, t⟩ := by
    fun_induction Cursor.next table resolve c s with
    | case1 c s e d t hstep => rw [inliningLeft_eq_inliningAfter, hstep, inliningAfter]
    | case2 c s tag d t hstep => rw [inliningLeft_eq_inliningAfter, hstep, inliningAfter]
    | case3 c s d t hstep => rw [inliningLeft_eq_inliningAfter, hstep, inliningAfter]
    | case4 c s d t hstep ih => rw [inliningLeft_eq_inliningAfter, hstep, inliningAfter, ih]
  fun_induction Cursor.readAll table resolve c s with
  | case1 c s e d t h => rw [hnext, h]
  | case2 c s d t h => rw [hnext, h]
  | case3 c s tag d t h ih => rw [hnext, h, ih]

end Cursor

theorem fault_inlining_total (table : MacroTable) (answer : Tag → Option Fields → StateM σ Fields)
    (limit room : Nat) (parameters : Option Fields) (tags : List Tag) (s : σ) {e : CursorError}
    (h : (inlining table (.total answer) limit room parameters tags s).fault = some e)
    : ∃ name m, table.find? name = some m ∧ e = .macroDepth m.name limit := by
  fun_induction inlining table (.total answer) limit room parameters tags s with
  | case1 => cases h
  | case2 room parameters s tag tags hfind ih => exact ih h
  | case3 room parameters s tag tags m hfind e' t hresolve =>
    rw [Resolver.run_total] at hresolve
    cases hresolve
  | case4 parameters s tag tags m hfind own t hresolve =>
    cases h
    exact ⟨tag.name, m, hfind, rfl⟩
  | case5 parameters s tag tags m hfind own t room hresolve ihbody ihrest =>
    cases hbody : (inlining table (.total answer) limit room (some own) m.tags t).fault with
    | some e' =>
      apply ihbody
      rw [← h, Deliveries.fault_andThen_of_some _ _ hbody, hbody]
    | none =>
      apply ihrest
      rw [← h, Deliveries.fault_andThen_of_none _ _ hbody]

/--
Reading a script tag by tag delivers the inlining of its macros.
-/
theorem readAll_eq_inlining (file : String) (tags : List Tag) (maxDepth : Nat) (table : MacroTable)
    (answer : Tag → Option Fields → StateM σ Fields) (s : σ)
    : ({ file, tags, maxDepth } : Cursor).readAll table (.total answer) s
        =
      inlining table (.total answer) maxDepth maxDepth none tags s
        ∧
      ∀ e, (inlining table (.total answer) maxDepth maxDepth none tags s).fault = some e →
        ∃ name m, table.find? name = some m ∧ e = .macroDepth m.name maxDepth := by
  constructor
  . rw [Cursor.readAll_eq_inliningLeft]
    rfl
  . intro e h
    exact fault_inlining_total table answer maxDepth maxDepth none tags s h

end VisualNovel
