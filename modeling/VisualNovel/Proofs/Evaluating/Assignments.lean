import VisualNovel.Proofs.Evaluating.Accesses
import VisualNovel.Proofs.Printing.Inversion

/-!
This module contains assignments with an operator. Such an assignment reads its target after the value has been evaluated,
and still it is short for the assignment of the operation to the same target, as long as nothing else is assigned.
-/

namespace VisualNovel
namespace Expr

/-! ### Expressions without assignments -/

/--
Where nothing may be written, nothing is changed.
-/
theorem Scope.Frame.eq_of_nil {before after : Scope} (h : Scope.Frame [] before after) : after = before := by
  have hvars : after.vars = before.vars := by
    cases hbefore : before.vars with
    | none =>
      have hmarks := h.readMarks
      rw [hbefore] at hmarks
      exact Option.map_eq_none_iff.1 hmarks
    | some vars =>
      have hmarks := h.readMarks
      rw [hbefore] at hmarks
      obtain ⟨others, hafter, hreadMarks⟩ := Option.map_eq_some_iff.1 hmarks
      have hspace (space : Space) : others.fields space = vars.fields space := by
        have hfields := h.fields (.space space) List.not_mem_nil
        simp only [Scope.fields, hafter, hbefore] at hfields
        exact Except.ok.inj hfields
      have hothers : others = vars := by
        cases others
        cases vars
        have htemporary := hspace .temporary
        have hgame := hspace .game
        have hsystem := hspace .system
        simp only [Variables.fields] at htemporary hgame hsystem
        simp only [Variables.mk.injEq]
        exact ⟨htemporary, hgame, hsystem, hreadMarks⟩
      rw [hafter, hothers]
  cases after
  cases before
  have hparameters := h.parameters
  simp only at hvars hparameters
  rw [hvars, hparameters]

theorem Confined.run_snd {α : Type} {reads : List Root} {x : Eval α} (h : Confined reads [] x) (scope : Scope)
    : (x.run.run scope).2 = scope :=
  (h.frame scope).eq_of_nil

theorem scope_after_eval {e : Expr} (h : e.assigned = []) (scope : Scope) : ((eval e).run.run scope).2 = scope :=
  (confined_eval e (.refl e.mentioned) (List.subset_nil.2 h)).run_snd scope

theorem scope_after_displays {keys : List Expr} (h : ∀ key ∈ keys, key.assigned = []) (scope : Scope)
    : ((Means.plain.displays keys).run.run scope).2 = scope := by
  have hconfined : Confined (keys.flatMap mentioned) [] (Means.plain.displays keys) := by
    apply Means.confined_displays
    intro key hkey
    exact ⟨fun _ hroot => List.mem_flatMap.2 ⟨key, hkey, hroot⟩, List.subset_nil.2 (h key hkey)⟩
  exact hconfined.run_snd scope

/-! ### Assignments -/

section Assign

variable {target value : Expr} {root : Root} {scope : Scope}

theorem run_assign_of_fault (hroot : target.pathRoot? = some root) {fault : Fault} {after : Scope}
    (h : (Means.plain.displays target.accessKeys).run.run scope = (.error fault, after)) (op : Option BinaryOp)
    : (eval (.assign op target value)).run.run scope = (.error fault, after) := by
  rw [eval, ← Means.plain_resolve, Means.resolve_of_root _ hroot, ← bind_pure_comp, run_bind, run_bind, h]

theorem run_assign_of_texts (hroot : target.pathRoot? = some root) {texts : List String}
    (h : (Means.plain.displays target.accessKeys).run.run scope = (.ok texts, scope)) (op : Option BinaryOp)
    : (eval (.assign op target value)).run.run scope
        =
      (eval value >>= fun value =>
        match op with
        | none => do
          write root texts value
          return value
        | some op => do
          let current ← read root texts
          let value ← op.apply current value
          write root texts value
          return value).run.run scope := by
  rw [eval, ← Means.plain_resolve, Means.resolve_of_root _ hroot, ← bind_pure_comp, run_bind, run_bind, h]
  rfl

theorem run_eval_of_texts (hroot : target.pathRoot? = some root) {texts : List String}
    (h : (Means.plain.displays target.accessKeys).run.run scope = (.ok texts, scope))
    : (eval target).run.run scope = (scope.read root texts, scope) := by
  rw [← Means.plain_eval, Means.eval_of_root _ hroot, run_bind, h]
  apply run_read

theorem run_assign_operator {fields : Fields} (hroot : target.pathRoot? = some root)
    (hfields : scope.fields root = .ok fields) (hkeys : ∀ key ∈ target.accessKeys, key.assigned = [])
    (hvalue : value.assigned = []) (op : BinaryOp)
    : (eval (.assign (some op) target value)).run.run scope
        =
      (eval (.assign none target (.binary op target value))).run.run scope := by
  have hafter := scope_after_displays hkeys scope
  cases hdisplays : (Means.plain.displays target.accessKeys).run.run scope with
  | mk answer after =>
    obtain rfl : scope = after := by rw [← hafter, hdisplays]
    cases answer with
    | error fault => rw [run_assign_of_fault hroot hdisplays, run_assign_of_fault hroot hdisplays]
    | ok texts =>
      have hread : scope.read root texts = .ok (Value.getPath texts (.object fields)) := by
        rw [Scope.read, hfields]
        rfl
      have hold := run_eval_of_texts hroot hdisplays
      rw [hread] at hold
      rw [run_assign_of_texts hroot hdisplays, run_assign_of_texts hroot hdisplays, run_bind, run_bind, eval,
        run_bind, hold]
      dsimp only
      rw [run_bind]
      -- the old value is the same before and after the evaluation of the new one
      have hafter := scope_after_eval hvalue scope
      cases hnew : (eval value).run.run scope with
      | mk answer after =>
        obtain rfl : scope = after := by rw [← hafter, hnew]
        cases answer with
        | error fault => rfl
        | ok new =>
          dsimp only
          rw [run_bind, run_read, hread]
          dsimp only
          rw [run_bind]

end Assign

/-! ### Assignments as texts -/

def HasTokens (text : String) (kinds : List TokenKind) : Prop :=
  ∃ ts, tokenize false text.toList = .ok ts ∧ ts.map Token.kind = kinds

theorem HasTokens.parse_eq {text : String} {kinds : List TokenKind} {e : Expr} (h : HasTokens text kinds)
    (hspells : SpellsStatement kinds e) : parse text = .ok e := by
  obtain ⟨ts, htokens, rfl⟩ := h
  have hread := readStatements_single (hspells (.of_map ts) quiet_nil)
  rw [parse_of_tokenize htokens, parseTokens, hread]
  rfl

/--
The first text assigns with an operator. The second text assigns the operation without it: it has the tokens of the target
again in front of the operator, and the tokens of the value in parentheses behind.
-/
structure Expansion (op : BinaryOp) (target value : Expr) (compound expanded : String) where
  assign : Punct
  left : List TokenKind
  right : List TokenKind
  assign_eq : op.assign? = some assign
  spells_target : SpellsPrimary left target
  spells_value : SpellsStatement right value
  compound_tokens : HasTokens compound (left ++ .punct assign :: right)
  expanded_tokens : HasTokens expanded
    (left ++ .punct .assign :: (left ++ .punct op.punct :: .punct .leftParen :: (right ++ [.punct .rightParen])))

namespace Expansion

variable {op : BinaryOp} {target value : Expr} {compound expanded : String}

theorem parse_compound (x : Expansion op target value compound expanded) (htarget : target.isTarget)
    : parse compound = .ok (.assign (some op) target value) := by
  have hop : ∀ o ∈ some op, o.assign?.isSome := by
    intro o ho
    cases ho
    rw [x.assign_eq]
    rfl
  have hpunct : assignPunct (some op) = x.assign := congrArg (·.getD .assign) x.assign_eq
  have htokens := x.compound_tokens
  rw [← hpunct] at htokens
  have hleft := x.spells_target.spells.operand (Nat.zero_le levels) (by decide)
  exact htokens.parse_eq (spells_assign hop htarget hleft x.spells_value)

theorem parse_expanded (x : Expansion op target value compound expanded) (htarget : target.isTarget)
    : parse expanded = .ok (.assign none target (.binary op target value)) := by
  have hlevel := level_lt op
  have hle : op.level + 3 ≤ 9 := Nat.le_trans (Nat.add_le_add_right hlevel 2) (by decide)
  have htokens := x.spells_target.spells
  have hleft := htokens.left hlevel (Nat.le_of_succ_le hle)
  have hright := (spells_paren x.spells_value).spells.operand hlevel hle
  have hvalue := ((spells_operator (operator?_punct op) hleft hright).spells hlevel).statement
  have hplain : ∀ o ∈ (none : Option BinaryOp), o.assign?.isSome := nofun
  exact x.expanded_tokens.parse_eq
    (spells_assign hplain htarget (htokens.operand (Nat.zero_le levels) (by decide)) hvalue)

end Expansion

theorem isTarget_of_pathRoot? {e : Expr} {root : Root} (h : e.pathRoot? = some root) : e.isTarget := by
  cases e with
  | name | member => rfl
  | _ => cases h

/--
An assignment with an operator has the outcome of the assignment that it is short for: the same value or the same fault,
and the same variables afterwards. Neither the value nor the keys of the target may assign to anything.
-/
theorem evaluate_assign_operator {target value : Expr} {space : Space} (hroot : target.pathRoot? = some (.space space))
    (hkeys : ∀ key ∈ target.accessKeys, key.assigned = []) (hvalue : value.assigned = []) (op : BinaryOp)
    (vars : Variables) (parameters : Option Fields)
    : let scope : Scope := { vars := some vars, parameters }
      (eval (.assign (some op) target value)).run.run scope
          = (eval (.assign none target (.binary op target value))).run.run scope ∧
        ∀ compound expanded, Expansion op target value compound expanded →
          (evaluate compound scope).1.mapError Error.fault = (evaluate expanded scope).1.mapError Error.fault ∧
            (evaluate compound scope).2 = (evaluate expanded scope).2 := by
  intro scope
  have hfields : scope.fields (.space space) = .ok (vars.fields space) := rfl
  have hrun := run_assign_operator hroot hfields hkeys hvalue op
  refine ⟨hrun, ?_⟩
  intro compound expanded x
  have htarget := isTarget_of_pathRoot? hroot
  rw [evaluate_of_parse (x.parse_compound htarget), evaluate_of_parse (x.parse_expanded htarget), hrun]
  refine ⟨?_, rfl⟩
  cases ((eval (.assign none target (.binary op target value))).run.run scope).1 <;> rfl

section Sample

def sampleTarget : Expr := .member (.name "tv") (.literal (.string "a"))

def targetTokens : List Token :=
  [⟨.name "tv", false⟩, ⟨.punct .dot, false⟩, ⟨.name "a", false⟩]

theorem tokenize_sampleCompound
    : tokenize false "tv.a+=gv".toList = .ok (targetTokens ++ [⟨.punct .addAssign, false⟩, ⟨.name "gv", false⟩]) := by
  apply eq_ok_of_toOption
  decide +kernel

theorem tokenize_sampleExpanded
    : tokenize false "tv.a=tv.a+(gv)".toList
        =
      .ok (targetTokens ++ ⟨.punct .assign, false⟩ :: (targetTokens ++ [⟨.punct .plus, false⟩, ⟨.punct .leftParen, false⟩,
        ⟨.name "gv", false⟩, ⟨.punct .rightParen, false⟩])) := by
  apply eq_ok_of_toOption
  decide +kernel

theorem spells_sampleTarget : SpellsPrimary (targetTokens.map Token.kind) sampleTarget :=
  spells_dot (spells_name (by decide)) "a"

def sampleExpansion : Expansion .add sampleTarget (.name "gv") "tv.a+=gv" "tv.a=tv.a+(gv)" where
  assign := .addAssign
  left := targetTokens.map Token.kind
  right := [.name "gv"]
  assign_eq := rfl
  spells_target := spells_sampleTarget
  spells_value := (spells_name (by decide)).spells.statement
  compound_tokens := ⟨_, tokenize_sampleCompound, rfl⟩
  expanded_tokens := ⟨_, tokenize_sampleExpanded, rfl⟩

/--
A text is joined with the display of all game variables.
-/
theorem sampleCompound_assigns
    : let scope : Scope := { vars := some { temporary := [("a", .string "x")] } }
      let after : Scope := { vars := some { temporary := [("a", .string "x[object Object]")] } }
      sampleTarget.pathRoot? = some (.space .temporary) ∧ (∀ key ∈ sampleTarget.accessKeys, key.assigned = []) ∧
        (Expr.name "gv").assigned = [] ∧ evaluate "tv.a+=gv" scope = (.ok (.string "x[object Object]"), after) ∧
        (evaluate "tv.a=tv.a+(gv)" scope).1.mapError Error.fault = .ok (.string "x[object Object]") ∧
        (evaluate "tv.a=tv.a+(gv)" scope).2 = after := by
  intro scope after
  have hroot : sampleTarget.pathRoot? = some (.space .temporary) := by decide
  have hkeys : ∀ key ∈ sampleTarget.accessKeys, key.assigned = [] := by
    simp [sampleTarget, accessKeys, assigned, collect, targetRoots]
  have hvalue : (Expr.name "gv").assigned = [] := rfl
  have hcompound : evaluate "tv.a+=gv" scope = (.ok (.string "x[object Object]"), after) := by
    rw [evaluate_of_parse (sampleExpansion.parse_compound rfl)]
    rfl
  obtain ⟨_, htexts⟩ := evaluate_assign_operator hroot hkeys hvalue .add { temporary := [("a", .string "x")] } none
  obtain ⟨hanswer, hafter⟩ := htexts _ _ sampleExpansion
  rw [hcompound] at hanswer hafter
  exact ⟨hroot, hkeys, hvalue, hcompound, hanswer.symm, hafter.symm⟩

end Sample
end Expr
end VisualNovel
