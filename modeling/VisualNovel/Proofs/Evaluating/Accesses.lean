import VisualNovel.Proofs.Evaluating.Paths

/-!
This module contains the accesses to members. A path from a root is resolved before it is read, and any other access goes
on from a value. Both evaluate their keys once, from left to right, and a path leads where its keys lead one after another.
-/

namespace VisualNovel
namespace Expr

/--
The keys of an access, from left to right.
-/
def accessKeys : Expr → List Expr
  | .member base key => base.accessKeys ++ [key]
  | _ => []

/--
What an access starts from.
-/
def accessStart : Expr → Expr
  | .member base _ => base.accessStart
  | e => e

/--
What the evaluation of an access is made of: the evaluation of a key, the evaluation of what the access starts from, and
the look at the place where a path leads.
-/
structure Means (m : Type → Type) where
  key : Expr → m Value
  start : Expr → m Value
  read : Root → List String → m Value

namespace Means

section Monad

variable {m : Type → Type} [Monad m]

def resolve (w : Means m) : Expr → m (Option (Root × List String))
  | .name word => return (root? word).map (·, [])
  | .member base key => do
    match ← w.resolve base with
    | some (root, keys) =>
      let key ← w.key key
      return some (root, keys ++ [key.display])
    | none => return none
  | _ => return none

/--
The evaluation of an access by the given means. The plain means make it the evaluation of expressions, see `plain_eval`.
-/
def eval (w : Means m) : Expr → m Value
  | .name word =>
    match root? word with
    | some root => w.read root []
    | none => w.start (.name word)
  | .member base key => do
    match ← w.resolve base with
    | some (root, keys) =>
      let key ← w.key key
      w.read root (keys ++ [key.display])
    | none =>
      let container ← w.eval base
      let key ← w.key key
      return container.property key.display
  | e => w.start e

/--
The texts that keys stand for.
-/
def displays (w : Means m) (keys : List Expr) : m (List String) :=
  keys.mapM fun key => do return (← w.key key).display

/--
Goes on from a value to the property under the first key, from there to the one under the second key, and so on.
-/
def descend (w : Means m) (container : Value) (keys : List Expr) : m Value :=
  keys.foldlM (fun container key => do return container.property (← w.key key).display) container

/-! ### The order of the keys -/

variable [LawfulMonad m] (w : Means m)

theorem displays_cons (key : Expr) (keys : List Expr)
    : w.displays (key :: keys)
        =
      do
        let value ← w.key key
        let texts ← w.displays keys
        return value.display :: texts := by
  simp [displays]

theorem displays_concat (keys : List Expr) (key : Expr)
    : w.displays (keys ++ [key])
        =
      do
        let texts ← w.displays keys
        let value ← w.key key
        return texts ++ [value.display] := by
  simp [displays, List.mapM_append]

theorem descend_cons (container : Value) (key : Expr) (keys : List Expr)
    : w.descend container (key :: keys)
        =
      w.key key >>= fun value => w.descend (container.property value.display) keys := by
  simp [descend]

theorem descend_concat (container : Value) (keys : List Expr) (key : Expr)
    : w.descend container (keys ++ [key])
        =
      do
        let inner ← w.descend container keys
        let value ← w.key key
        return inner.property value.display := by
  simp [descend, List.foldlM_append]

/--
It makes no difference whether the keys are evaluated all at first, or each when its property is asked for.
-/
theorem descend_eq_getPath (container : Value) (keys : List Expr)
    : w.descend container keys = (fun texts => Value.getPath texts container) <$> w.displays keys := by
  induction keys generalizing container with
  | nil => simp [descend, displays, Value.getPath]
  | cons key keys ih =>
    rw [descend_cons, displays_cons]
    simp [ih, Value.getPath_cons]

theorem resolve_of_root {e : Expr} {root : Root} (h : e.pathRoot? = some root)
    : w.resolve e = (fun texts => some (root, texts)) <$> w.displays e.accessKeys := by
  fun_induction pathRoot? e with
  | case1 word => simp [resolve, accessKeys, displays, h]
  | case2 base key ih =>
    rw [resolve, ih h, accessKeys, displays_concat]
    simp
  | case3 => cases h

/--
A search for the start of a path that has none evaluates no key.
-/
theorem resolve_of_no_root {e : Expr} (h : e.pathRoot? = none) : w.resolve e = pure none := by
  fun_induction pathRoot? e with
  | case1 word => simp [resolve, h]
  | case2 base key ih =>
    rw [resolve, ih h]
    simp
  | case3 e hname hmember => rw [resolve] <;> assumption

theorem eval_of_root {e : Expr} {root : Root} (h : e.pathRoot? = some root)
    : w.eval e = w.displays e.accessKeys >>= w.read root := by
  cases e with
  | name word =>
    rw [pathRoot?] at h
    simp [eval, accessKeys, displays, h]
  | member base key =>
    rw [pathRoot?] at h
    rw [eval, resolve_of_root w h, accessKeys, displays_concat]
    simp
  | _ => cases h

theorem eval_of_no_root {e : Expr} (h : e.pathRoot? = none)
    : w.eval e = w.start e.accessStart >>= (w.descend · e.accessKeys) := by
  fun_induction pathRoot? e with
  | case1 word => simp [eval, accessStart, accessKeys, descend, h]
  | case2 base key ih =>
    rw [eval, resolve_of_no_root w h, ih h, accessStart, accessKeys]
    simp [descend_concat]
  | case3 e hname hmember =>
    rw [eval, accessStart, accessKeys]
    . simp [descend]
    all_goals assumption

end Monad

/-! ### Evaluating accesses -/

/--
The means of the evaluation of expressions.
-/
def plain : Means Eval :=
  { key := Expr.eval, start := Expr.eval, read := Expr.read }

theorem plain_resolve (e : Expr) : plain.resolve e = Expr.resolve e := by
  fun_induction pathRoot? e with
  | case1 word => rw [resolve, Expr.resolve]
  | case2 base key ih =>
    rw [resolve, Expr.resolve, ih]
    rfl
  | case3 e hname hmember => rw [resolve, Expr.resolve] <;> assumption

theorem plain_eval (e : Expr) : plain.eval e = Expr.eval e := by
  fun_induction pathRoot? e with
  | case1 word =>
    rw [eval]
    cases hroot : root? word with
    | none => rfl
    | some root => rw [Expr.eval, hroot]; rfl
  | case2 base key ih =>
    rw [eval, Expr.eval, ih, plain_resolve]
    rfl
  | case3 e hname hmember =>
    rw [eval]
    . rfl
    all_goals assumption

/--
The displays of keys depend on, and change, only what the keys name.
-/
theorem confined_displays {reads writes : List Root} {keys : List Expr}
    (h : ∀ key ∈ keys, key.mentioned ⊆ reads ∧ key.assigned ⊆ writes)
    : Confined reads writes (plain.displays keys) := by
  induction keys with
  | nil => exact confined_pure []
  | cons key keys ih =>
    obtain ⟨hkey, hkeys⟩ := List.forall_mem_cons.1 h
    rw [displays_cons]
    apply (confined_eval key hkey.1 hkey.2).then
    intro value
    exact (ih hkeys).then fun _ => confined_pure _

theorem fields_after_displays {keys : List Expr} {root : Root} (h : ∀ key ∈ keys, root ∉ key.assigned) (scope : Scope)
    : ((plain.displays keys).run.run scope).2.fields root = scope.fields root := by
  have hconfined : Confined (keys.flatMap mentioned) (keys.flatMap assigned) (plain.displays keys) := by
    apply confined_displays
    intro key hkey
    exact ⟨fun _ hroot => List.mem_flatMap.2 ⟨key, hkey, hroot⟩, fun _ hroot => List.mem_flatMap.2 ⟨key, hkey, hroot⟩⟩
  apply (hconfined.frame scope).fields
  rw [List.mem_flatMap]
  rintro ⟨key, hkey, hroot⟩
  exact h key hkey hroot

/--
An access from a root comes to what the fields of the root lead to, key by key, if no key changes them.
-/
theorem run_eval_of_root {e : Expr} {root : Root} {fields : Fields} {scope : Scope} (hpath : e.pathRoot? = some root)
    (hfields : scope.fields root = .ok fields) (h : ∀ key ∈ e.accessKeys, root ∉ key.assigned)
    : (Expr.eval e).run.run scope = (plain.descend (.object fields) e.accessKeys).run.run scope := by
  have hafter := fields_after_displays h scope
  rw [← plain_eval, eval_of_root plain hpath, descend_eq_getPath, ← bind_pure_comp, run_bind, run_bind]
  cases hdisplays : (plain.displays e.accessKeys).run.run scope with
  | mk answer after =>
    rw [hdisplays, hfields] at hafter
    cases answer with
    | error fault => rfl
    | ok texts =>
      have hread : after.read root texts = .ok (Value.getPath texts (.object fields)) := by
        rw [Scope.read, hafter]
        rfl
      exact (run_read root texts after).trans (by rw [hread]; rfl)

end Means

/-! ### The record of the keys -/

/--
The computations that have, besides a scope, a record of the keys that have been evaluated.
-/
abbrev Recorded := ExceptT Fault (StateM (Scope × List Expr))

section Recorded

variable {α β : Type}

/--
A computation during which nothing is recorded.
-/
def unrecorded (x : Eval α) : Recorded α :=
  ExceptT.mk fun (scope, record) =>
    let (answer, after) := x.run.run scope
    (answer, after, record)

/--
The means of the evaluation of expressions, where every key that is evaluated is put on record before.
-/
def Means.recording : Means Recorded where
  key key := do
    modify fun (scope, record) => (scope, record ++ [key])
    unrecorded (Expr.eval key)
  start e := unrecorded (Expr.eval e)
  read root keys := unrecorded (Expr.read root keys)

/--
The first computation does what the second one does, and evaluates the given keys one after another: all of them, or all
up to the one that fails.
-/
def Evaluates (x : Recorded α) (y : Eval α) (keys : List Expr) : Prop :=
  ∀ scope record, ∃ evaluated, evaluated <+: keys ∧
    x.run.run (scope, record) = ((y.run.run scope).1, (y.run.run scope).2, record ++ evaluated) ∧
    ∀ a, (y.run.run scope).1 = .ok a → evaluated = keys

theorem evaluates_unrecorded (x : Eval α) : Evaluates (unrecorded x) x [] := by
  intro scope record
  refine ⟨[], List.prefix_rfl, ?_, fun _ _ => rfl⟩
  rw [List.append_nil]
  rfl

theorem evaluates_pure (a : α) : Evaluates (pure a) (pure a) [] :=
  fun _ record => ⟨[], List.prefix_rfl, by rw [List.append_nil]; rfl, fun _ _ => rfl⟩

theorem evaluates_key (key : Expr) : Evaluates (Means.recording.key key) (Means.plain.key key) [key] :=
  fun _ _ => ⟨[key], List.prefix_rfl, rfl, fun _ _ => rfl⟩

theorem Evaluates.bind {x : Recorded α} {y : Eval α} {f : α → Recorded β} {g : α → Eval β} {keys later : List Expr}
    (h : Evaluates x y keys) (hnext : ∀ a, Evaluates (f a) (g a) later)
    : Evaluates (x >>= f) (y >>= g) (keys ++ later) := by
  intro scope record
  obtain ⟨evaluated, hpart, hrun, hall⟩ := h scope record
  rw [run_bind, run_bind, hrun]
  cases hy : y.run.run scope with
  | mk answer after =>
    rw [hy] at hall
    cases answer with
    | error fault => exact ⟨evaluated, hpart.trans (List.prefix_append keys later), rfl, nofun⟩
    | ok a =>
      obtain ⟨others, hothers, hrest, hrestAll⟩ := hnext a after (record ++ evaluated)
      have hkeys := hall a rfl
      refine ⟨evaluated ++ others, ?_, ?_, ?_⟩
      . rw [hkeys]
        exact (List.prefix_append_right_inj keys).2 hothers
      . rw [← List.append_assoc]
        exact hrest
      . intro b hb
        rw [hkeys, hrestAll b hb]

theorem Evaluates.bind_unrecorded {x : Recorded α} {y : Eval α} {keys : List Expr} (h : Evaluates x y keys)
    (g : α → Eval β) : Evaluates (x >>= fun a => unrecorded (g a)) (y >>= g) keys := by
  have hbind := h.bind fun a => evaluates_unrecorded (g a)
  rwa [List.append_nil] at hbind

theorem evaluates_displays (keys : List Expr)
    : Evaluates (Means.recording.displays keys) (Means.plain.displays keys) keys := by
  induction keys with
  | nil => exact evaluates_pure []
  | cons key keys ih =>
    rw [Means.displays_cons, Means.displays_cons]
    apply (evaluates_key key).bind
    intro value
    exact ih.bind_unrecorded fun texts => pure (value.display :: texts)

theorem evaluates_descend (container : Value) (keys : List Expr)
    : Evaluates (Means.recording.descend container keys) (Means.plain.descend container keys) keys := by
  induction keys generalizing container with
  | nil => exact evaluates_pure container
  | cons key keys ih =>
    rw [Means.descend_cons, Means.descend_cons]
    apply (evaluates_key key).bind
    intro value
    exact ih (container.property value.display)

theorem evaluates_eval (e : Expr) : Evaluates (Means.recording.eval e) (Means.plain.eval e) e.accessKeys := by
  cases hroot : e.pathRoot? with
  | some root =>
    rw [Means.eval_of_root _ hroot, Means.eval_of_root _ hroot]
    exact (evaluates_displays e.accessKeys).bind_unrecorded (read root)
  | none =>
    rw [Means.eval_of_no_root _ hroot, Means.eval_of_no_root _ hroot]
    exact (evaluates_unrecorded (eval e.accessStart)).bind fun container => evaluates_descend container e.accessKeys

end Recorded

/--
An access from a root whose keys do not assign to it comes to what the whole space leads to, key by key: to the same value
or the same fault. And every access, whatever it starts from, evaluates each of its keys at most once, from left to right,
and all of them unless it fails.
-/
theorem eval_access_in_order (e : Expr) (scope : Scope)
    : (∀ root fields, e.pathRoot? = some root → scope.fields root = .ok fields →
        (∀ key ∈ e.accessKeys, root ∉ key.assigned) →
          (eval e).run.run scope = (Means.plain.descend (.object fields) e.accessKeys).run.run scope) ∧
      Means.plain.eval e = eval e ∧
      ∃ evaluated, evaluated <+: e.accessKeys ∧
        (Means.recording.eval e).run.run (scope, [])
            = (((eval e).run.run scope).1, ((eval e).run.run scope).2, evaluated) ∧
        ∀ value, ((eval e).run.run scope).1 = .ok value → evaluated = e.accessKeys := by
  refine ⟨fun root fields hpath hfields h => Means.run_eval_of_root hpath hfields h, Means.plain_eval e, ?_⟩
  rw [← Means.plain_eval]
  exact evaluates_eval e scope []

section Sample

/--
A path with a path as its first key, and with a last key that fails.
-/
def sampleAccess : Expr :=
  .member (.member (.name "tv") (.member (.name "gv") (.literal (.string "k")))) (.name "x")

def sampleSpaces : Scope :=
  { vars := some { temporary := [("a", .object [("n", .bool true)])], game := [("k", .string "a")] } }

theorem sampleAccess_in_order
    : sampleAccess.pathRoot? = some (.space .temporary) ∧
        sampleSpaces.fields (.space .temporary) = .ok [("a", .object [("n", .bool true)])] ∧
        (∀ key ∈ sampleAccess.accessKeys, .space .temporary ∉ key.assigned) ∧
        (eval sampleAccess).run.run sampleSpaces = (.error (.undefined "x"), sampleSpaces) ∧
        (Means.plain.descend (.object [("a", .object [("n", .bool true)])]) sampleAccess.accessKeys).run.run sampleSpaces
          = (.error (.undefined "x"), sampleSpaces) ∧
        ∃ evaluated, evaluated <+: sampleAccess.accessKeys ∧
          (Means.recording.eval sampleAccess).run.run (sampleSpaces, [])
            = (.error (.undefined "x"), sampleSpaces, evaluated) := by
  have hpath : sampleAccess.pathRoot? = some (.space .temporary) := by decide
  have hfields : sampleSpaces.fields (.space .temporary) = .ok [("a", .object [("n", .bool true)])] := rfl
  have hkeys : ∀ key ∈ sampleAccess.accessKeys, .space .temporary ∉ key.assigned := by
    simp [sampleAccess, accessKeys, assigned, collect, targetRoots]
  have heval : (eval sampleAccess).run.run sampleSpaces = (.error (.undefined "x"), sampleSpaces) := by
    rfl
  obtain ⟨hdescend, _, evaluated, hpart, hrecord, _⟩ := eval_access_in_order sampleAccess sampleSpaces
  have hsame := hdescend _ _ hpath hfields hkeys
  rw [heval] at hsame hrecord
  exact ⟨hpath, hfields, hkeys, heval, hsame.symm, evaluated, hpart, hrecord⟩

end Sample

end Expr
end VisualNovel
