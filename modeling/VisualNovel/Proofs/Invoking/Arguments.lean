import VisualNovel.Conductor.Dispatch
import VisualNovel.Proofs.Computation

/-!
This module contains the arguments of a call. They are computed one after another, in the order of their names, and
all with the parameters that are visible where the call stands. None of them is computed twice.
-/

namespace VisualNovel

namespace Tag

/--
What the values of a tag come to, given its line and the parameters that are visible there: a value that starts with
the mark of expressions becomes what the rest of it comes to, and every other value stays as it is written. The
variables are those that the entry before has left. With the first fault all is over.
-/
inductive Passes (line : Nat) (scope : Option Fields)
    : Variables → Fields → Except CursorError Fields → Variables → Prop where
  | done (vars : Variables) : Passes line scope vars [] (.ok []) vars
  | kept {key : String} {value : Value} {entries : Fields} {before after : Variables}
    {result : Except CursorError Fields} (hkept : key = bodyKey ∨ ∀ source, value ≠ .string ("&" ++ source))
    (later : Passes line scope before entries result after)
    : Passes line scope before ((key, value) :: entries) (result.map ((key, value) :: ·)) after
  | computed {key source : String} {value : Value} {entries : Fields} {before between after : Variables}
    {result : Except CursorError Fields} (hkey : key ≠ bodyKey)
    (hvalue : (Expr.evaluateAt source line scope).run.run before = (.ok value, between))
    (later : Passes line scope between entries result after)
    : Passes line scope before ((key, .string ("&" ++ source)) :: entries) (result.map ((key, value) :: ·)) after
  | fault {key source : String} {entries : Fields} {before after : Variables} {e : CursorError}
    (hkey : key ≠ bodyKey) (hfault : (Expr.evaluateAt source line scope).run.run before = (.error e, after))
    : Passes line scope before ((key, .string ("&" ++ source)) :: entries) (.error e) after

theorem deferred?_eq_some {value : Value} {source : String}
    : deferred? value = some source ↔ value = .string ("&" ++ source) := by
  constructor
  . intro h
    unfold deferred? at h
    split at h
    . next s =>
      split at h
      . next c rest hs =>
        split at h
        . next hmark =>
          cases h
          have hs' : s = "&" ++ String.ofList rest := by
            rw [← String.toList_inj, String.toList_append, String.toList_ofList, hs, hmark, deferredMark]
            simp
          rw [hs']
        . cases h
      . cases h
    . cases h
  . intro h
    subst h
    unfold deferred?
    simp [deferredMark]

section Resolve

variable (line : Nat) (scope : Option Fields) {key : String} (entries : Fields) (vars : Variables)

theorem run_mapM_resolveEntry_kept {value : Value}
    (hkept : key = bodyKey ∨ ∀ source, value ≠ .string ("&" ++ source))
    : (((key, value) :: entries).mapM (resolveEntry line scope)).run.run vars
        =
      (((entries.mapM (resolveEntry line scope)).run.run vars).1.map ((key, value) :: ·),
        ((entries.mapM (resolveEntry line scope)).run.run vars).2) := by
  have hentry : resolveEntry line scope (key, value) = pure (key, value) := by
    have hnone : (if key = bodyKey then none else deferred? value) = none := by
      split
      . rfl
      . next hkey =>
        obtain hbody | hplain := hkept
        . exact absurd hbody hkey
        . rw [Option.eq_none_iff_forall_ne_some]
          exact fun source hsource => hplain source (deferred?_eq_some.1 hsource)
    unfold resolveEntry
    simp only [hnone]
  rw [List.mapM_cons, hentry, pure_bind, run_bind]
  cases (entries.mapM (resolveEntry line scope)).run.run vars with
  | mk result after => cases result <;> rfl

theorem run_mapM_resolveEntry_computed (source : String) (hkey : key ≠ bodyKey)
    : (((key, .string ("&" ++ source)) :: entries).mapM (resolveEntry line scope)).run.run vars
        =
      match (Expr.evaluateAt source line scope).run.run vars with
      | (.error e, after) => (.error e, after)
      | (.ok value, between) =>
        (((entries.mapM (resolveEntry line scope)).run.run between).1.map ((key, value) :: ·),
          ((entries.mapM (resolveEntry line scope)).run.run between).2) := by
  have hentry : resolveEntry line scope (key, .string ("&" ++ source))
      = do return (key, ← Expr.evaluateAt source line scope) := by
    have hsome : (if key = bodyKey then none else deferred? (.string ("&" ++ source))) = some source := by
      rw [if_neg hkey, deferred?_eq_some]
    unfold resolveEntry
    simp only [hsome]
  rw [List.mapM_cons, hentry, bind_assoc, run_bind]
  cases (Expr.evaluateAt source line scope).run.run vars with
  | mk result between =>
    cases result with
    | error e => rfl
    | ok value =>
      dsimp only
      rw [pure_bind, run_bind]
      cases (entries.mapM (resolveEntry line scope)).run.run between with
      | mk result after => cases result <;> rfl

end Resolve

theorem passes_mapM (line : Nat) (scope : Option Fields) (entries : Fields) (vars : Variables)
    : Passes line scope vars entries ((entries.mapM (resolveEntry line scope)).run.run vars).1
        ((entries.mapM (resolveEntry line scope)).run.run vars).2 := by
  induction entries generalizing vars with
  | nil => exact .done vars
  | cons entry entries ih =>
    obtain ⟨key, value⟩ := entry
    by_cases hkept : key = bodyKey ∨ ∀ source, value ≠ .string ("&" ++ source)
    . rw [run_mapM_resolveEntry_kept line scope entries vars hkept]
      exact .kept hkept (ih vars)
    . obtain ⟨hkey, hmarked⟩ := not_or.1 hkept
      obtain ⟨source, hsource⟩ := Classical.not_forall_not.1 hmarked
      subst hsource
      rw [run_mapM_resolveEntry_computed line scope entries vars source hkey]
      cases hevaluated : (Expr.evaluateAt source line scope).run.run vars with
      | mk result between =>
        cases result with
        | error e => exact .fault hkey hevaluated
        | ok value => exact .computed hkey hevaluated (ih between)

theorem Passes.mapM_eq {line : Nat} {scope : Option Fields} {before after : Variables} {entries : Fields}
    {result : Except CursorError Fields} (h : Passes line scope before entries result after)
    : (entries.mapM (resolveEntry line scope)).run.run before = (result, after) := by
  induction h with
  | done vars => rfl
  | kept hkept _ ih => rw [run_mapM_resolveEntry_kept _ _ _ _ hkept, ih]
  | computed hkey hvalue _ ih =>
    rw [run_mapM_resolveEntry_computed _ _ _ _ _ hkey, hvalue]
    dsimp only
    rw [ih]
  | fault hkey hfault => rw [run_mapM_resolveEntry_computed _ _ _ _ _ hkey, hfault]

theorem passes_iff {tag : Tag} {scope : Option Fields} {before after : Variables}
    {result : Except CursorError Fields}
    : Passes tag.line scope before tag.values result after ↔ (tag.resolve scope).run.run before = (result, after) := by
  constructor
  . exact Passes.mapM_eq
  . intro h
    have hpasses := passes_mapM tag.line scope tag.values before
    unfold resolve at h
    rw [h] at hpasses
    exact hpasses

namespace Passes

variable {line : Nat} {scope : Option Fields} {before after : Variables} {values arguments : Fields}

/--
The arguments have the names of the values, in the same order.
-/
theorem names_eq (h : Passes line scope before values (.ok arguments) after)
    : arguments.map Prod.fst = values.map Prod.fst := by
  generalize hresult : Except.ok arguments = result at h
  induction h generalizing arguments with
  | done => cases hresult; rfl
  | fault => cases hresult
  | @kept _ _ _ _ _ result _ _ ih | @computed _ _ _ _ _ _ _ result _ _ _ ih =>
    cases result with
    | error e => cases hresult
    | ok others =>
      cases hresult
      rw [List.map_cons, List.map_cons, ih rfl]

theorem mem_of_evaluates (h : Passes line scope before values (.ok arguments) after) {key source : String}
    {value : Value} (hvalue : ∀ vars, ((Expr.evaluateAt source line scope).run.run vars).1 = .ok value)
    (hkey : key ≠ bodyKey) (hmem : (key, .string ("&" ++ source)) ∈ values) : (key, value) ∈ arguments := by
  generalize hresult : Except.ok arguments = result at h
  induction h generalizing arguments with
  | done => cases hmem
  | fault => cases hresult
  | @kept other written entries _ _ result hkept _ ih =>
    cases result with
    | error e => cases hresult
    | ok others =>
      cases hresult
      cases hmem with
      | head =>
        obtain hbody | hplain := hkept
        . exact absurd hbody hkey
        . exact absurd rfl (hplain source)
      | tail _ hmem => exact List.mem_cons_of_mem _ (ih hmem rfl)
  | @computed other text computed entries before _ _ result _ hcomputed _ ih =>
    cases result with
    | error e => cases hresult
    | ok others =>
      cases hresult
      rcases List.mem_cons.1 hmem with heq | hmem
      . obtain ⟨hother, hsource⟩ := Prod.mk.inj heq
        have htext : source = text := by simpa using hsource
        have hsame := hvalue before
        rw [htext, hcomputed] at hsame
        cases hsame
        rw [hother]
        exact List.mem_cons_self
      . exact List.mem_cons_of_mem _ (ih hmem rfl)

end Passes

/--
A parameter by its name. What it is worth is not computed, even if it looks like an expression.
-/
theorem evaluateAt_parameter {source name : String} {fields : Fields} {value : Value}
    (hparse : Expr.parse source = .ok (.member (.name "mp") (.literal (.string name))))
    (hvalue : Fields.find? name fields = some value) (line : Nat) (vars : Variables)
    : (Expr.evaluateAt source line (some fields)).run.run vars = (.ok value, vars) := by
  have heval : (Expr.eval (.member (.name "mp") (.literal (.string name)))).run.run
        { vars := some vars, parameters := some fields }
      = (.ok value, { vars := some vars, parameters := some fields }) := by
    have hread : ({ vars := some vars, parameters := some fields } : Expr.Scope).read .parameters [name]
        = .ok value := by
      change Except.ok ((Fields.find? name fields).getD .null) = _
      rw [hvalue]
      rfl
    have hrun : (Expr.read .parameters [name]).run.run { vars := some vars, parameters := some fields }
        = (.ok value, { vars := some vars, parameters := some fields }) := by
      unfold Expr.read
      rw [run_get_bind, hread]
      rfl
    rw [Expr.eval, Expr.resolve, Expr.eval]
    exact hrun
  unfold Expr.evaluateAt Expr.evaluate
  rw [run_get_bind]
  dsimp only
  rw [hparse]
  dsimp only
  rw [heval]
  rfl

/--
A value that is forwarded from the parameters of the caller is not computed again.
-/
theorem Passes.forwarded {line : Nat} {scope before after} {values arguments : Fields}
    (h : Passes line (some scope) before values (.ok arguments) after) {key source name : String} {value : Value}
    (hparse : Expr.parse source = .ok (.member (.name "mp") (.literal (.string name))))
    (hvalue : Fields.find? name scope = some value) (hkey : key ≠ bodyKey)
    (hmem : (key, .string ("&" ++ source)) ∈ values) : (key, value) ∈ arguments :=
  h.mem_of_evaluates (fun vars => congrArg Prod.fst (evaluateAt_parameter hparse hvalue line vars)) hkey hmem

end Tag

end VisualNovel
