import VisualNovel.Proofs.Evaluating.Footprint

/-!
This module contains the laws of paths into variables: what has been written is read, the last of several writes counts,
and a write does not reach anything that lies apart from its path.
-/

namespace VisualNovel
namespace Value

/-! ### One key -/

/--
What there is under a key of an object or an array.
-/
def child? (key : String) : Value → Option Value
  | .object fields => Fields.find? key fields
  | .array items => (index? key).bind (items[·]?)
  | _ => none

theorem index?_length : index? "length" = none := by
  decide

theorem property_of_child {key : String} {container child : Value} (h : container.child? key = some child)
    : container.property key = child := by
  cases container with
  | object fields =>
    rw [child?] at h
    rw [property, h, Option.getD_some]
  | array items =>
    have hkey : key ≠ "length" := by
      rintro rfl
      rw [child?, index?_length] at h
      cases h
    rw [child?] at h
    rw [property, if_neg hkey, h, Option.getD_some]
  | _ => cases h

theorem setProperty_array_cases {key : String} {value changed : Value} {items : List Value}
    (h : setProperty key value (.array items) = .ok changed)
    : ∃ i, index? key = some i ∧
        (i = items.length ∧ changed = .array (items ++ [value]) ∨
          i < items.length ∧ changed = .array (items.set i value)) := by
  rw [setProperty] at h
  split at h
  . cases h
  . next i hindex =>
    refine ⟨i, hindex, ?_⟩
    split at h
    . next hend => exact Or.inl ⟨hend, (Except.ok.inj h).symm⟩
    . split at h
      . next hlt => exact Or.inr ⟨hlt, (Except.ok.inj h).symm⟩
      . cases h

theorem child?_setProperty {key : String} {value container changed : Value}
    (h : setProperty key value container = .ok changed) : changed.child? key = some value := by
  cases container with
  | object fields =>
    cases h
    exact Fields.find?_insert_self key value fields
  | array items =>
    obtain ⟨i, hindex, ⟨rfl, rfl⟩ | ⟨hlt, rfl⟩⟩ := setProperty_array_cases h
    . simp [child?, hindex]
    . simp [child?, hindex, hlt]
  | _ => cases h

theorem setProperty_setProperty {key : String} {value container changed : Value}
    (h : setProperty key value container = .ok changed) (other : Value)
    : ∃ final, setProperty key other changed = .ok final ∧ setProperty key other container = .ok final := by
  cases container with
  | object fields =>
    cases h
    refine ⟨_, rfl, ?_⟩
    rw [Fields.insert_insert]
    rfl
  | array items =>
    obtain ⟨i, hindex, ⟨rfl, rfl⟩ | ⟨hlt, rfl⟩⟩ := setProperty_array_cases h
    . exact ⟨.array (items ++ [other]), by simp [setProperty, hindex], by simp [setProperty, hindex]⟩
    . have hne : i ≠ items.length := Nat.ne_of_lt hlt
      exact ⟨.array (items.set i other), by simp [setProperty, hindex, hlt, hne],
        by simp [setProperty, hindex, hlt, hne]⟩
  | _ => cases h

/--
Do two keys lead to different places, such that a write under the first one cannot be seen under the second one? Two
spellings of a position are the same place, and the length of an array changes with its items.
-/
def Differ : Value → String → String → Prop
  | .object _, key, other => other ≠ key
  | .array _, key, other => other ≠ "length" ∧ ∀ i, index? key = some i → index? other ≠ some i
  | _, _, _ => False

/--
Do two keys lead to the same place?
-/
def Coincide : Value → String → String → Prop
  | .object _, key, other => other = key
  | .array _, key, other => ∃ i, index? key = some i ∧ index? other = some i
  | _, _, _ => False

theorem property_setProperty_of_differ {key other : String} {value container changed : Value}
    (h : setProperty key value container = .ok changed) (hdiffer : container.Differ key other)
    : changed.property other = container.property other := by
  cases container with
  | object fields =>
    cases h
    rw [property, property, Fields.find?_insert_of_ne value fields hdiffer]
  | array items =>
    obtain ⟨hlength, hindices⟩ := hdiffer
    obtain ⟨i, hindex, ⟨rfl, rfl⟩ | ⟨hlt, rfl⟩⟩ := setProperty_array_cases h
    . have hother := hindices _ hindex
      rw [property, property, if_neg hlength, if_neg hlength]
      cases hposition : index? other with
      | none => rfl
      | some j =>
        have hne : j ≠ items.length := fun heq => hother (by rw [hposition, heq])
        rw [Option.bind_some, Option.bind_some, List.getElem?_append]
        split
        . rfl
        . next hge => simp [show j - items.length ≠ 0 by omega, hge]
    . have hother := hindices _ hindex
      rw [property, property, if_neg hlength, if_neg hlength]
      cases hposition : index? other with
      | none => rfl
      | some j =>
        have hne : i ≠ j := fun heq => hother (by rw [hposition, heq])
        rw [Option.bind_some, Option.bind_some, List.getElem?_set_ne hne]
  | _ => cases h

theorem child?_of_coincide {key other : String} {container : Value} (h : container.Coincide key other)
    : container.child? other = container.child? key := by
  cases container with
  | object fields =>
    cases h
    rfl
  | array items =>
    obtain ⟨i, hkey, hother⟩ := h
    rw [child?, child?, hkey, hother]
  | _ => cases h

theorem Coincide.setProperty {key other : String} {value container changed : Value} (h : container.Coincide key other)
    (hset : Value.setProperty key value container = .ok changed) : changed.Coincide key other := by
  cases container with
  | object fields =>
    cases hset
    exact h
  | array items =>
    obtain ⟨_, _, ⟨_, rfl⟩ | ⟨_, rfl⟩⟩ := setProperty_array_cases hset <;> exact h
  | _ => cases h

/-! ### Paths -/

/--
The value that a path leads to, null where it leads nowhere.
-/
def getPath (keys : List String) (container : Value) : Value :=
  keys.foldl (fun value key => value.property key) container

theorem getPath_cons (key : String) (keys : List String) (container : Value)
    : getPath (key :: keys) container = getPath keys (container.property key) :=
  rfl

/--
A path is written from its end: the changed child is set under its key.
-/
theorem setPath_cons (last : String) (value : Value) (key : String) (keys : List String) (container : Value)
    : setPath last value (key :: keys) container
        =
      match container.child? key with
      | none => .error (.undefinedParent last)
      | some child => (setPath last value keys child).bind (setProperty key · container) := by
  cases container with
  | object fields =>
    rw [setPath, child?]
    cases Fields.find? key fields with
    | none => rfl
    | some child => rfl
  | array items =>
    rw [setPath, child?]
    cases hindex : index? key with
    | none => rfl
    | some i =>
      rw [Option.bind_some, Option.bind_some]
      cases hchild : items[i]? with
      | none => rfl
      | some child =>
        obtain ⟨hlt, _⟩ := List.getElem?_eq_some_iff.1 hchild
        have hset (changed : Value) : setProperty key changed (.array items) = .ok (.array (items.set i changed)) := by
          simp [setProperty, hindex, hlt, Nat.ne_of_lt hlt]
        simp only [hset, Option.map_some]
        cases setPath last value keys child <;> rfl
  | _ => rfl

theorem setPath_cons_eq_ok {last key : String} {value container changed : Value} {keys : List String}
    (h : setPath last value (key :: keys) container = .ok changed)
    : ∃ child inner, container.child? key = some child ∧ setPath last value keys child = .ok inner ∧
        setProperty key inner container = .ok changed := by
  rw [setPath_cons] at h
  split at h
  . cases h
  . next child hchild =>
    cases hinner : setPath last value keys child with
    | error fault =>
      rw [hinner] at h
      cases h
    | ok inner =>
      rw [hinner] at h
      exact ⟨child, inner, hchild, hinner, h⟩

theorem setPath_cons_of_child {last key : String} {container child : Value} (h : container.child? key = some child)
    (value : Value) (keys : List String)
    : setPath last value (key :: keys) container
        =
      (setPath last value keys child).bind (setProperty key · container) := by
  rw [setPath_cons, h]

/--
What has been written is read.
-/
theorem getPath_setPath {last : String} {value container changed : Value} {keys : List String}
    (h : setPath last value keys container = .ok changed) : getPath (keys ++ [last]) changed = value := by
  induction keys generalizing container changed with
  | nil => exact property_of_child (child?_setProperty h)
  | cons key keys ih =>
    obtain ⟨child, inner, _, hinner, hset⟩ := setPath_cons_eq_ok h
    rw [List.cons_append, getPath_cons, property_of_child (child?_setProperty hset)]
    exact ih hinner

/--
A write makes up for a write to the same path before it.
-/
theorem setPath_setPath {last : String} {value container changed : Value} {keys : List String}
    (h : setPath last value keys container = .ok changed) (other : Value)
    : ∃ final, setPath last other keys changed = .ok final ∧ setPath last other keys container = .ok final := by
  induction keys generalizing container changed with
  | nil => exact setProperty_setProperty h other
  | cons key keys ih =>
    obtain ⟨child, inner, hchild, hinner, hset⟩ := setPath_cons_eq_ok h
    obtain ⟨other', hchanged, hcontainer⟩ := ih hinner
    obtain ⟨final, hfinal, halone⟩ := setProperty_setProperty hset other'
    refine ⟨final, ?_, ?_⟩
    . rw [setPath_cons_of_child (child?_setProperty hset), hchanged]
      exact hfinal
    . rw [setPath_cons_of_child hchild, hcontainer]
      exact halone

/--
The second path leaves the first one inside of a value: up to some key they lead to the same places, and there they go
on to different ones.
-/
inductive Apart : Value → List String → List String → Prop where
  | here {container : Value} {key other : String} {keys others : List String} (h : container.Differ key other)
    : Apart container (key :: keys) (other :: others)
  | inside {container child : Value} {key other : String} {keys others : List String}
    (h : container.Coincide key other) (hchild : container.child? key = some child) (later : Apart child keys others)
    : Apart container (key :: keys) (other :: others)

theorem getPath_setPath_of_apart {last : String} {value container changed : Value} {keys others : List String}
    (h : setPath last value keys container = .ok changed) (hapart : Apart container (keys ++ [last]) others)
    : getPath others changed = getPath others container := by
  induction keys generalizing container changed others with
  | nil =>
    cases hapart with
    | here hdiffer => rw [getPath_cons, getPath_cons, property_setProperty_of_differ h hdiffer]
    | inside _ _ later => cases later
  | cons key keys ih =>
    obtain ⟨child, inner, hchild, hinner, hset⟩ := setPath_cons_eq_ok h
    cases hapart with
    | here hdiffer => rw [getPath_cons, getPath_cons, property_setProperty_of_differ hset hdiffer]
    | @inside _ child' _ other _ others hcoincide hchild' later =>
      rw [hchild] at hchild'
      cases hchild'
      have hbefore : container.property other = child :=
        property_of_child ((child?_of_coincide hcoincide).trans hchild)
      have hafter : changed.property other = inner :=
        property_of_child ((child?_of_coincide (hcoincide.setProperty hset)).trans (child?_setProperty hset))
      rw [getPath_cons, getPath_cons, hbefore, hafter]
      exact ih hinner later

theorem exists_fields_of_setPath {last : String} {value changed : Value} {keys : List String} {fields : Fields}
    (h : setPath last value keys (.object fields) = .ok changed) : ∃ others, changed = .object others := by
  cases keys with
  | nil => exact ⟨_, (Except.ok.inj h).symm⟩
  | cons key keys =>
    obtain ⟨_, inner, _, _, hset⟩ := setPath_cons_eq_ok h
    exact ⟨_, (Except.ok.inj hset).symm⟩

end Value

namespace Expr
namespace Scope

variable {space : Space} {keys : List String} {value : Value} {vars : Variables} {parameters : Option Fields}

theorem read_space (vars : Variables) (parameters : Option Fields) (space : Space) (keys : List String)
    : read { vars := some vars, parameters } (.space space) keys
        =
      .ok (Value.getPath keys (.object (vars.fields space))) :=
  rfl

/--
A write that succeeds sets a path in the fields of its space.
-/
theorem write_eq_ok_iff {after : Scope}
    : write { vars := some vars, parameters } (.space space) keys value = .ok after
        ↔
      ∃ before last fields, keys = before ++ [last] ∧
        Value.setPath last value before (.object (vars.fields space)) = .ok (.object fields) ∧
        after = { vars := some (vars.setFields fields space), parameters } := by
  constructor
  . intro h
    unfold write at h
    split at h
    . next last hspace hlast =>
      cases hspace
      obtain ⟨before, rfl⟩ := List.getLast?_eq_some_iff.1 hlast
      rw [List.dropLast_concat] at h
      dsimp only at h
      cases hset : Value.setPath last value before (.object (vars.fields space)) with
      | error fault =>
        rw [hset] at h
        cases h
      | ok changed =>
        obtain ⟨fields, rfl⟩ := Value.exists_fields_of_setPath hset
        rw [hset] at h
        exact ⟨before, last, fields, rfl, hset, (Except.ok.inj h).symm⟩
    . cases h
  . rintro ⟨before, last, fields, rfl, hset, rfl⟩
    unfold write
    simp [hset]

/--
A second write to the same path comes to what it would have come to without the first one.
-/
theorem write_write {after : Scope}
    (h : write { vars := some vars, parameters } (.space space) keys value = .ok after) (other : Value)
    : ∃ final, write after (.space space) keys other = .ok final ∧
        write { vars := some vars, parameters } (.space space) keys other = .ok final := by
  obtain ⟨before, last, fields, rfl, hset, rfl⟩ := write_eq_ok_iff.1 h
  obtain ⟨final, hafter, halone⟩ := Value.setPath_setPath hset other
  obtain ⟨fields', rfl⟩ := Value.exists_fields_of_setPath halone
  refine ⟨{ vars := some (vars.setFields fields' space), parameters }, ?_, ?_⟩
  . apply write_eq_ok_iff.2
    refine ⟨before, last, fields', rfl, ?_, by cases space <;> rfl⟩
    rw [Variables.fields_setFields_self]
    exact hafter
  . exact write_eq_ok_iff.2 ⟨before, last, fields', rfl, halone, rfl⟩

end Scope

theorem run_write_eq_ok_iff {root : Root} {keys : List String} {value : Value} {s t : Scope}
    : (write root keys value).run.run s = (.ok (), t) ↔ s.write root keys value = .ok t := by
  rw [run_write]
  constructor
  . intro h
    split at h
    . next hwrite =>
      cases h
      exact hwrite
    . cases h
  . intro h
    rw [h]

theorem eq_of_run_write_error {root : Root} {keys : List String} {value : Value} {fault : Fault} {s t : Scope}
    (h : (write root keys value).run.run s = (.error fault, t)) : t = s := by
  rw [run_write] at h
  split at h
  . cases h
  . exact (congrArg Prod.snd h).symm

/--
The laws of paths. A write that succeeds is read at its path, makes up for a write there before it, and leaves alone the
other spaces, the passed save marks and all paths that lie apart. One that fails changes nothing.
-/
theorem write_path_laws (vars : Variables) (parameters : Option Fields) (space : Space) (keys : List String)
    (value : Value)
    : let scope : Scope := { vars := some vars, parameters }
      (∀ after, (write (.space space) keys value).run.run scope = (.ok (), after) →
        (read (.space space) keys).run.run after = (.ok value, after) ∧
        (∀ other, ∃ final,
          (write (.space space) keys other).run.run after = (.ok (), final) ∧
          (write (.space space) keys other).run.run scope = (.ok (), final)) ∧
        (∃ changed, after = { vars := some changed, parameters } ∧ changed.readMarks = vars.readMarks ∧
          ∀ other, other ≠ space → changed.fields other = vars.fields other) ∧
        ∀ others, Value.Apart (.object (vars.fields space)) keys others →
          ((read (.space space) others).run.run after).1 = ((read (.space space) others).run.run scope).1) ∧
      ∀ fault after, (write (.space space) keys value).run.run scope = (.error fault, after) →
        after = scope ∧
          ∀ root others, ((read root others).run.run after).1 = ((read root others).run.run scope).1 := by
  intro scope
  constructor
  . intro after hwrite
    have hok := run_write_eq_ok_iff.1 hwrite
    have hagain (other : Value) := Scope.write_write hok other
    obtain ⟨before, last, fields, rfl, hset, rfl⟩ := Scope.write_eq_ok_iff.1 hok
    refine ⟨?_, ?_, ⟨_, rfl, by cases space <;> rfl, ?_⟩, ?_⟩
    . rw [run_read, Scope.read_space, Variables.fields_setFields_self, Value.getPath_setPath hset]
    . intro other
      obtain ⟨final, hafter, halone⟩ := hagain other
      exact ⟨final, run_write_eq_ok_iff.2 hafter, run_write_eq_ok_iff.2 halone⟩
    . intro other hother
      exact Variables.fields_setFields_of_ne vars fields hother
    . intro others hapart
      rw [run_read, run_read, Scope.read_space, Scope.read_space, Variables.fields_setFields_self,
        Value.getPath_setPath_of_apart hset hapart]
  . intro fault after hwrite
    obtain rfl := eq_of_run_write_error hwrite
    exact ⟨rfl, fun _ _ => rfl⟩

section Sample

def sampleLog : Variables :=
  { temporary := [("log", .array [.null])], readMarks := ["f:m"] }

/--
A write behind the last item of an array, whose position is spelled with a sign, and one that is out of range.
-/
theorem sampleLog_path_laws
    : let scope : Scope := { vars := some sampleLog }
      let after : Scope := { vars := some { sampleLog with temporary := [("log", .array [.null, .bool true])] } }
      let failed := (write (.space .temporary) ["log", "7"] .null).run.run scope
      (write (.space .temporary) ["log", "+1"] (.bool true)).run.run scope = (.ok (), after) ∧
        (read (.space .temporary) ["log", "+1"]).run.run after = (.ok (.bool true), after) ∧
        (∃ final, (write (.space .temporary) ["log", "+1"] .null).run.run after = (.ok (), final) ∧
          (write (.space .temporary) ["log", "+1"] .null).run.run scope = (.ok (), final)) ∧
        ((read (.space .temporary) ["log", "00"]).run.run after).1
          = ((read (.space .temporary) ["log", "00"]).run.run scope).1 ∧
        failed.1 = .error (.badWrite (.outOfRange 7)) ∧ failed.2 = scope ∧
        ((read (.space .temporary) ["log", "0"]).run.run failed.2).1
          = ((read (.space .temporary) ["log", "0"]).run.run scope).1 := by
  intro scope after failed
  have hwrite : (write (.space .temporary) ["log", "+1"] (.bool true)).run.run scope = (.ok (), after) := by
    rfl
  have hfault : failed.1 = .error (.badWrite (.outOfRange 7)) := by
    rfl
  have hapart : Value.Apart (.object (sampleLog.fields .temporary)) ["log", "+1"] ["log", "00"] := by
    have hlog : Value.Coincide (.object (sampleLog.fields .temporary)) "log" "log" := rfl
    have hdiffer : Value.Differ (.array [.null]) "+1" "00" := by
      refine ⟨by decide, fun i hi => ?_⟩
      rw [← hi]
      decide
    exact .inside hlog rfl (.here hdiffer)
  obtain ⟨hread, hagain, _, hothers⟩ := (write_path_laws sampleLog none .temporary _ _).1 after hwrite
  obtain ⟨hscope, hsame⟩ := (write_path_laws sampleLog none .temporary _ _).2 _ failed.2 (Prod.ext hfault rfl)
  exact ⟨hwrite, hread, hagain .null, hothers _ hapart, hfault, hscope, hsame _ _⟩

end Sample

end Expr
end VisualNovel
