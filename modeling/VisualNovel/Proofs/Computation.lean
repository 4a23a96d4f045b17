import VisualNovel.Cursor.Basic

/-!
This module contains the runs of computations that have a state and may fail, from the runs of their parts.
-/

namespace VisualNovel

section Computation

variable {ε σ α β : Type}

/--
A result can be found by evaluation although its type has no decidable equality of faults.
-/
theorem eq_ok_of_toOption {result : Except ε α} {a : α} (h : result.toOption = some a) : result = .ok a := by
  cases result with
  | error _ => cases h
  | ok _ => exact congrArg Except.ok (Option.some.inj h)

theorem run_bind (first : ExceptT ε (StateM σ) α) (next : α → ExceptT ε (StateM σ) β) (s : σ)
    : (first >>= next).run.run s
        =
      match first.run.run s with
      | (.ok a, s) => (next a).run.run s
      | (.error e, s) => (.error e, s) := by
  simp only [ExceptT.run_bind, StateT.run_bind]
  generalize first.run.run s = result
  obtain ⟨result, s'⟩ := result
  cases result <;> rfl

theorem run_bind_ok {first : ExceptT ε (StateM σ) α} {next : α → ExceptT ε (StateM σ) β} {s s' : σ} {b : β}
    (h : (first >>= next).run.run s = (.ok b, s'))
    : ∃ a t, first.run.run s = (.ok a, t) ∧ (next a).run.run t = (.ok b, s') := by
  rw [run_bind] at h
  cases hfirst : first.run.run s with
  | mk result t =>
    rw [hfirst] at h
    cases result with
    | error e => cases h
    | ok a => exact ⟨a, t, rfl, h⟩

theorem run_get_bind (next : σ → ExceptT ε (StateM σ) β) (s : σ)
    : (get >>= next).run.run s = (next s).run.run s :=
  rfl

theorem run_set_bind (s' : σ) (next : PUnit → ExceptT ε (StateM σ) β) (s : σ)
    : (set s' >>= next).run.run s = (next ⟨⟩).run.run s' :=
  rfl

theorem run_modify_bind (f : σ → σ) (next : PUnit → ExceptT ε (StateM σ) β) (s : σ)
    : (modify f >>= next).run.run s = (next ⟨⟩).run.run (f s) :=
  rfl

theorem run_tryCatch (first : ExceptT ε (StateM σ) α) (onFault : ε → ExceptT ε (StateM σ) α) (s : σ)
    : (tryCatch first onFault).run.run s
        =
      match first.run.run s with
      | (.ok a, s) => (.ok a, s)
      | (.error e, s) => (onFault e).run.run s := by
  simp only [ExceptT.run_tryCatch, StateT.run_bind]
  generalize first.run.run s = result
  obtain ⟨result, s'⟩ := result
  cases result <;> rfl

end Computation

theorem Play.run_evaluate (source : String) (line : Nat) (cursor : Cursor) (vars : Variables)
    : (Play.evaluate source line).run.run { cursor, vars }
        =
      (((Expr.evaluateAt source line cursor.parameters).run.run vars).1,
        { cursor, vars := ((Expr.evaluateAt source line cursor.parameters).run.run vars).2 }) := by
  unfold evaluate
  rw [run_get_bind]
  cases (Expr.evaluateAt source line cursor.parameters).run.run vars with
  | mk result vars' => cases result <;> rfl

end VisualNovel
