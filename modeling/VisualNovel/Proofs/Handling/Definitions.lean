import VisualNovel.Proofs.Handling.Change
import VisualNovel.Proofs.Reading

/-!
This module contains which definitions of macros a script can hold: a body that no other directive of definitions or
marks stands in, up to its end. A directive that does is reported before anything has moved.
-/

namespace VisualNovel

/--
A tag that can stand in the body of a macro.
-/
def Tag.IsInner (tag : Tag) : Prop :=
  tag.directive? ∉ [some .endDefine, some .label, some .saveMark, some .define]

instance (tag : Tag) : Decidable tag.IsInner :=
  inferInstanceAs (Decidable (_ ∉ _))

/--
The faults of directives that cannot stand in the body of a macro.
-/
inductive Directive.Intrudes (name : String) : Directive → DefinitionFault → Prop where
  | label : Intrudes name .label (.markInside name)
  | saveMark : Intrudes name .saveMark (.markInside name)
  | define : Intrudes name .define (.nested name)

namespace Macro

def nameOf (written : String) : String :=
  String.ofList (Text.trim written.toList)

/--
A name that a macro can have.
-/
structure IsName (name : String) : Prop where
  nonempty : name ≠ ""
  unreserved : Directive.ofName? name = none

/--
Tags that are the body of a macro, the end of its definition, and others.
-/
structure Defines (tags body rest : List Tag) : Prop where
  ends : ∃ closing, tags = body ++ closing :: rest ∧ closing.directive? = some .endDefine
  inner : ∀ tag ∈ body, tag.IsInner

end Macro

namespace Play

section Body

variable {name : String} {line : Nat} {tag : Tag} {tags body : List Tag}

/-! ### Bodies -/

theorem inner_or_ends (name : String) (tag : Tag)
    : tag.IsInner ∨ tag.directive? = some .endDefine ∨
        ∃ d fault, tag.directive? = some d ∧ Directive.Intrudes name d fault := by
  by_cases hinner : tag.IsInner
  . exact Or.inl hinner
  . unfold Tag.IsInner at hinner
    simp only [List.mem_cons, List.not_mem_nil, or_false, Classical.not_not] at hinner
    obtain hend | hlabel | hmark | hdefine := hinner
    . exact Or.inr (Or.inl hend)
    . exact Or.inr (Or.inr ⟨_, _, hlabel, .label⟩)
    . exact Or.inr (Or.inr ⟨_, _, hmark, .saveMark⟩)
    . exact Or.inr (Or.inr ⟨_, _, hdefine, .define⟩)

theorem readBody_of_inner (h : tag.IsInner) (tags : List Tag)
    : readBody name line (tag :: tags) = (readBody name line tags).map (tag :: ·) := by
  unfold Tag.IsInner at h
  simp only [List.mem_cons, List.not_mem_nil, or_false, not_or] at h
  rw [readBody.eq_def]
  dsimp only
  split <;> simp_all

theorem readBody_of_end (h : tag.directive? = some .endDefine) (tags : List Tag)
    : readBody name line (tag :: tags) = .ok [] := by
  simp [readBody, h]

theorem readBody_of_intruder {d : Directive} {fault : DefinitionFault} (hd : tag.directive? = some d)
    (h : d.Intrudes name fault) (tags : List Tag)
    : readBody name line (tag :: tags) = .error (.definition tag.line fault) := by
  cases h <;> simp [readBody, hd]

theorem readBody_append (h : ∀ tag ∈ body, tag.IsInner) (tags : List Tag)
    : readBody name line (body ++ tags) = (readBody name line tags).map (body ++ ·) := by
  induction body with
  | nil => cases hread : readBody name line tags <;> simp [hread, Except.map]
  | cons tag body ih =>
    have hbody := ih fun tag htag => h tag (List.mem_cons_of_mem _ htag)
    rw [List.cons_append, readBody_of_inner (h tag List.mem_cons_self), hbody]
    cases readBody name line tags <;> rfl

theorem readBody_eq_ok_iff : readBody name line tags = .ok body ↔ ∃ rest, Macro.Defines tags body rest := by
  constructor
  -- By induction on the tags: each of them belongs to the body, ends it, or is refused.
  . intro h
    induction tags generalizing body with
    | nil => cases h
    | cons tag tags ih =>
      obtain hinner | hend | ⟨d, fault, hd, hintrudes⟩ := inner_or_ends name tag
      . rw [readBody_of_inner hinner] at h
        cases hread : readBody name line tags with
        | error e =>
          rw [hread] at h
          cases h
        | ok inner =>
          rw [hread] at h
          cases h
          obtain ⟨rest, ⟨closing, rfl, hclosing⟩, hall⟩ := ih hread
          exact ⟨rest, ⟨closing, rfl, hclosing⟩, List.forall_mem_cons.2 ⟨hinner, hall⟩⟩
      . rw [readBody_of_end hend] at h
        cases h
        exact ⟨tags, ⟨tag, rfl, hend⟩, nofun⟩
      . rw [readBody_of_intruder hd hintrudes] at h
        cases h
  . rintro ⟨rest, ⟨closing, rfl, hclosing⟩, hinner⟩
    rw [readBody_append hinner, readBody_of_end hclosing]
    exact congrArg Except.ok (List.append_nil body)

end Body

/-! ### Definitions -/

/--
The script holds a whole definition in front of the cursor. It is that of the macro, and the cursor has passed it.
-/
structure Accepts (written : String) (scene : Scene) (m : Macro) (after : Scene) : Prop where
  isName : Macro.IsName (Macro.nameOf written)
  nonempty : m.tags ≠ []
  defines : Macro.Defines scene.cursor.unread m.tags after.cursor.unread
  new : m = { name := Macro.nameOf written, tags := m.tags, line := scene.cursor.latestLine }
  passed : after = { scene with cursor := scene.cursor.skip (m.tags.length + 1) }

section Definition

variable {written : String} {scene : Scene}

theorem run_define (h : Macro.IsName (Macro.nameOf written))
    : (define written).run.run scene
        =
      match readBody (Macro.nameOf written) scene.cursor.latestLine scene.cursor.unread with
      | .error e => (.error e, scene)
      | .ok body =>
        let after := { scene with cursor := scene.cursor.skip (body.length + 1) }
        if body.isEmpty then
          (.error (.definition scene.cursor.latestLine (.emptyBody (Macro.nameOf written))), after)
        else
          (.ok { name := Macro.nameOf written, tags := body, line := scene.cursor.latestLine }, after) := by
  have hnonempty : ¬ (Macro.nameOf written).isEmpty = true := by simpa using h.nonempty
  have hunreserved : ¬ (Directive.ofName? (Macro.nameOf written)).isSome = true := by simp [h.unreserved]
  unfold Macro.nameOf at *
  unfold define
  rw [run_get_bind]
  dsimp only
  rw [if_neg hnonempty, if_neg hunreserved]
  cases readBody _ scene.cursor.latestLine scene.cursor.unread with
  | error e => rfl
  | ok body =>
    dsimp only
    unfold modifyCursor
    rw [run_modify_bind]
    split <;> rfl

theorem isName_of_define {m : Macro} {after : Scene} (h : (define written).run.run scene = (.ok m, after))
    : Macro.IsName (Macro.nameOf written) := by
  unfold define at h
  rw [run_get_bind] at h
  dsimp only at h
  split at h
  . cases h
  . next hnonempty =>
    split at h
    . cases h
    . next hunreserved => exact ⟨by simpa [Macro.nameOf] using hnonempty, by simpa [Macro.nameOf] using hunreserved⟩

theorem define_eq_ok_iff {m : Macro} {after : Scene}
    : (define written).run.run scene = (.ok m, after) ↔ Accepts written scene m after := by
  constructor
  . intro h
    have hname := isName_of_define h
    rw [run_define hname] at h
    cases hread : readBody (Macro.nameOf written) scene.cursor.latestLine scene.cursor.unread with
    | error e =>
      rw [hread] at h
      cases h
    | ok body =>
      rw [hread] at h
      dsimp only at h
      obtain ⟨rest, hdefines⟩ := readBody_eq_ok_iff.1 hread
      obtain ⟨closing, htags, _⟩ := hdefines.ends
      have hrest : (scene.cursor.skip (body.length + 1)).unread = rest := by
        rw [Cursor.unread_skip, htags]
        simp
      split at h
      . cases h
      . next hbody =>
        cases h
        -- What is unread behind the definition is the rest that the body left.
        refine ⟨hname, by simpa using hbody, ?_, rfl, rfl⟩
        dsimp only
        rw [hrest]
        exact hdefines
  . intro h
    rw [run_define h.isName, readBody_eq_ok_iff.2 ⟨_, h.defines⟩]
    dsimp only
    rw [if_neg (by simpa using h.nonempty), ← h.new, ← h.passed]

theorem define_of_intruder (hname : Macro.IsName (Macro.nameOf written)) {inner behind : List Tag} {tag : Tag}
    {d : Directive} {fault : DefinitionFault} (hunread : scene.cursor.unread = inner ++ tag :: behind)
    (hinner : ∀ tag ∈ inner, tag.IsInner) (hd : tag.directive? = some d) (hfault : d.Intrudes (Macro.nameOf written) fault)
    : (define written).run.run scene = (.error (.definition tag.line fault), scene) := by
  rw [run_define hname, hunread, readBody_append hinner, readBody_of_intruder hd hfault]
  rfl

end Definition

/--
A definition is accepted exactly when its name is free and a whole body is in front of the cursor. A directive that cannot
stand in the body is reported at its own line, and nothing has moved then.
-/
theorem define_accepts_iff (written : String) (scene : Scene)
    : (∀ m after, (define written).run.run scene = (.ok m, after) ↔ Accepts written scene m after) ∧
        (Macro.IsName (Macro.nameOf written) →
          ∀ inner tag behind d fault, scene.cursor.unread = inner ++ tag :: behind → (∀ tag ∈ inner, tag.IsInner) →
            tag.directive? = some d → d.Intrudes (Macro.nameOf written) fault →
            (define written).run.run scene = (.error (.definition tag.line fault), scene)) :=
  ⟨fun _ _ => define_eq_ok_iff,
    fun hname _ _ _ _ _ hunread hinner hd hfault => define_of_intruder hname hunread hinner hd hfault⟩

section Sample

/-!
The first script defines a macro of one tag. In the second one, a label stands in the body, and it is in a macro itself.
-/

def sampleDefinition : Scene where
  cursor := {
    file := "start"
    tags := [.withBody "macro" "name: ' greet '" 1, .lineBreak 2, .withBody "endmacro" "" 3, .stop 4]
    maxDepth := 4
    point := 1
    latest := some (.withBody "macro" "name: ' greet '" 1)
  }
  vars := {}

def sampleLabel : Scene where
  cursor := {
    file := "start"
    tags := [.stop 9]
    maxDepth := 4
    macros := [
      {
        name := "outer"
        tags := [.withBody "macro" "" 2, .lineBreak 3, .label "top" 4, .withBody "endmacro" "" 5]
        line := 1
        point := 1
      }
    ]
  }
  vars := {}

theorem define_samples
    : (define " greet ").run.run sampleDefinition
          =
        (.ok { name := "greet", tags := [.lineBreak 2], line := 1 },
          { sampleDefinition with cursor := { sampleDefinition.cursor with point := 3 } }) ∧
      Macro.IsName (Macro.nameOf " greet ") ∧
      (define " greet ").run.run sampleLabel = (.error (.definition 4 (.markInside "greet")), sampleLabel) := by
  have hname : Macro.IsName (Macro.nameOf " greet ") := ⟨by decide, by decide⟩
  have haccepts : Accepts " greet " sampleDefinition { name := "greet", tags := [.lineBreak 2], line := 1 }
      { sampleDefinition with cursor := { sampleDefinition.cursor with point := 3 } } := by
    refine ⟨hname, List.cons_ne_nil _ _, ⟨⟨.withBody "endmacro" "" 3, rfl, rfl⟩, ?_⟩, rfl, rfl⟩
    decide
  refine ⟨((define_accepts_iff " greet " sampleDefinition).1 _ _).2 haccepts, hname, ?_⟩
  refine (define_accepts_iff " greet " sampleLabel).2 hname [.lineBreak 3] (.label "top" 4)
    [.withBody "endmacro" "" 5] .label (.markInside "greet") rfl ?_ rfl .label
  decide

end Sample

end Play
end VisualNovel
