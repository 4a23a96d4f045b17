import VisualNovel.Expr.Eval
import VisualNovel.Proofs.Computation

/-!
This module contains what an expression may read and write: the spaces of variables, and the parameters, that it
names. An evaluation leaves everything else as it is, and nothing else has an influence on it.
-/

namespace VisualNovel
namespace Expr

section Collect

variable {α : Type}

mutual

/--
All that is found in an expression and in the expressions inside of it.
-/
def collect (find : Expr → List α) : Expr → List α
  | .literal value => find (.literal value)
  | .name word => find (.name word)
  | .member base key => find (.member base key) ++ collect find base ++ collect find key
  | .array items => find (.array items) ++ collectItems find items
  | .object entries => find (.object entries) ++ collectEntries find entries
  | .unary op operand => find (.unary op operand) ++ collect find operand
  | .binary op left right => find (.binary op left right) ++ collect find left ++ collect find right
  | .and left right => find (.and left right) ++ collect find left ++ collect find right
  | .or left right => find (.or left right) ++ collect find left ++ collect find right
  | .conditional condition yes no =>
    find (.conditional condition yes no) ++ collect find condition ++ collect find yes ++ collect find no
  | .assign op target value => find (.assign op target value) ++ collect find target ++ collect find value
  | .sequence statements => find (.sequence statements) ++ collectItems find statements

def collectItems (find : Expr → List α) : List Expr → List α
  | [] => []
  | item :: items => collect find item ++ collectItems find items

def collectEntries (find : Expr → List α) : List (String × Expr) → List α
  | [] => []
  | (_, entry) :: entries => collect find entry ++ collectEntries find entries

end

end Collect

/--
The root that a path starts from.
-/
def pathRoot? : Expr → Option Root
  | .name word => root? word
  | .member base _ => pathRoot? base
  | _ => none

def nameRoots : Expr → List Root
  | .name word => (root? word).toList
  | _ => []

def targetRoots : Expr → List Root
  | .assign _ target _ => (pathRoot? target).toList
  | _ => []

/--
The roots that are named anywhere in an expression.
-/
def mentioned (e : Expr) : List Root :=
  e.collect nameRoots

/--
The roots of all assignments in an expression.
-/
def assigned (e : Expr) : List Root :=
  e.collect targetRoots

theorem pathRoot?_mem_mentioned {e : Expr} {root : Root} (h : e.pathRoot? = some root) : root ∈ e.mentioned := by
  fun_induction pathRoot? e with
  | case1 word => simp [mentioned, collect, nameRoots, h]
  | case2 base key ih => exact List.mem_append_left _ (List.mem_append_right _ (ih h))
  | case3 => cases h

/--
The two scopes look the same from the given roots.
-/
def Scope.Agree (roots : List Root) (s t : Scope) : Prop :=
  ∀ root ∈ roots, s.fields root = t.fields root

/--
Only what has the given roots is written, and an assignment never changes the parameters or the passed save marks.
-/
structure Scope.Frame (writes : List Root) (before after : Scope) : Prop where
  fields : ∀ root, root ∉ writes → after.fields root = before.fields root
  parameters : after.parameters = before.parameters
  readMarks : after.vars.map Variables.readMarks = before.vars.map Variables.readMarks

theorem Scope.Frame.refl (writes : List Root) (s : Scope) : Frame writes s s :=
  ⟨fun _ _ => rfl, rfl, rfl⟩

theorem Scope.Frame.trans {writes : List Root} {s t u : Scope} (h : Frame writes s t) (h' : Frame writes t u)
    : Frame writes s u where
  fields root hroot := (h'.fields root hroot).trans (h.fields root hroot)
  parameters := h'.parameters.trans h.parameters
  readMarks := h'.readMarks.trans h.readMarks

/--
A computation that writes nothing but what has the roots `writes`, and to which all scopes are the same that agree on
the roots `reads`.
-/
structure Confined {α : Type} (reads writes : List Root) (x : Eval α) : Prop where
  frame : ∀ s : Scope, s.Frame writes (x.run.run s).2
  agree : ∀ s t : Scope, s.Agree reads t →
    (x.run.run s).1 = (x.run.run t).1 ∧ (x.run.run s).2.Agree reads (x.run.run t).2

section Confined

variable {α β : Type} {reads writes : List Root}

theorem confined_pure (a : α) : Confined reads writes (pure a : Eval α) :=
  ⟨fun s => .refl writes s, fun _ _ h => ⟨rfl, h⟩⟩

theorem confined_throw (fault : Fault) : Confined reads writes (throw fault : Eval α) :=
  ⟨fun s => .refl writes s, fun _ _ h => ⟨rfl, h⟩⟩

theorem confined_except (answer : Except Fault α) : Confined reads writes (liftM answer : Eval α) := by
  cases answer with
  | error fault => exact confined_throw fault
  | ok a => exact confined_pure a

/--
What comes second has to be confined only for what can come out of the first part.
-/
theorem Confined.bind {x : Eval α} {f : α → Eval β} (h : Confined reads writes x)
    (hnext : ∀ a, (∃ s, (x.run.run s).1 = .ok a) → Confined reads writes (f a))
    : Confined reads writes (x >>= f) := by
  constructor
  . intro s
    have hframe := h.frame s
    have hanswer (a : α) (ha : (x.run.run s).1 = .ok a) := (hnext a ⟨s, ha⟩).frame (x.run.run s).2
    rw [run_bind]
    cases hx : x.run.run s with
    | mk answer t =>
      rw [hx] at hframe hanswer
      cases answer with
      | error fault => exact hframe
      | ok a => exact hframe.trans (hanswer a rfl)
  . intro s t hst
    obtain ⟨hsame, hagree⟩ := h.agree s t hst
    have hanswer (a : α) (ha : (x.run.run s).1 = .ok a) := (hnext a ⟨s, ha⟩).agree _ _ hagree
    rw [run_bind, run_bind]
    cases hx : x.run.run s with
    | mk answer s' =>
      cases hy : x.run.run t with
      | mk other t' =>
        rw [hx, hy] at hsame hagree hanswer
        cases hsame
        cases answer with
        | error fault => exact ⟨rfl, hagree⟩
        | ok a => exact hanswer a rfl

theorem Confined.then {x : Eval α} {f : α → Eval β} (h : Confined reads writes x)
    (hnext : ∀ a, Confined reads writes (f a)) : Confined reads writes (x >>= f) :=
  h.bind fun a _ => hnext a

/-! ### Reading and writing -/

theorem run_read (root : Root) (keys : List String) (s : Scope)
    : (read root keys).run.run s = (s.read root keys, s) := by
  unfold read
  rw [run_get_bind]
  cases s.read root keys <;> rfl

theorem run_write (root : Root) (keys : List String) (value : Value) (s : Scope)
    : (write root keys value).run.run s
        =
      match s.write root keys value with
      | .ok t => (.ok (), t)
      | .error fault => (.error fault, s) := by
  unfold write
  rw [run_get_bind]
  cases s.write root keys value <;> rfl

theorem confined_read {root : Root} (hread : root ∈ reads) (keys : List String)
    : Confined reads writes (read root keys) := by
  constructor
  . intro s
    rw [run_read]
    exact .refl writes s
  . intro s t h
    rw [run_read, run_read]
    refine ⟨?_, h⟩
    unfold Scope.read
    rw [h root hread]

theorem Scope.frame_write {root : Root} (hwrite : root ∈ writes) {keys : List String} {value : Value} {s t : Scope}
    (h : s.write root keys value = .ok t) : s.Frame writes t := by
  unfold Scope.write at h
  split at h
  . next space last hlast =>
    split at h
    . cases h
    . next vars hvars =>
      split at h
      . next fields hfields =>
        cases h
        refine ⟨?_, rfl, ?_⟩
        . intro root hroot
          cases root with
          | parameters => rfl
          | space other =>
            have hne : other ≠ space := fun heq => hroot (heq ▸ hwrite)
            simp [Scope.fields, hvars, Variables.fields_setFields_of_ne _ _ hne]
        . rw [hvars]
          cases space <;> rfl
      . cases h
        exact .refl writes s
      . cases h
  . cases h

theorem Scope.agree_write {root : Root} (hread : root ∈ reads) {s t : Scope} (h : s.Agree reads t)
    (keys : List String) (value : Value)
    : match s.write root keys value, t.write root keys value with
      | .ok s', .ok t' => s'.Agree reads t'
      | .error fault, .error other => fault = other
      | _, _ => False := by
  have hsame := h root hread
  unfold Scope.write
  cases root with
  | parameters => rfl
  | space space =>
    cases keys.getLast? with
    | none => rfl
    | some last =>
      unfold Scope.fields at hsame
      cases hs : s.vars with
      | none =>
        cases ht : t.vars with
        | none => rfl
        | some other =>
          rw [hs, ht] at hsame
          cases hsame
      | some vars =>
        cases ht : t.vars with
        | none =>
          rw [hs, ht] at hsame
          cases hsame
        | some other =>
          rw [hs, ht] at hsame
          have hfields : vars.fields space = other.fields space := Except.ok.inj hsame
          dsimp only
          rw [hfields]
          cases Value.setPath last value keys.dropLast (.object (other.fields space)) with
          | error fault => rfl
          | ok changed =>
            cases changed with
            | object fields =>
              intro root hroot
              have hother := h root hroot
              cases root with
              | parameters => exact hother
              | space place =>
                by_cases heq : place = space
                . simp [Scope.fields, heq]
                . simpa [Scope.fields, hs, ht, Variables.fields_setFields_of_ne _ _ heq] using hother
            | _ => exact h

theorem confined_write {root : Root} (hread : root ∈ reads) (hwrite : root ∈ writes) (keys : List String) (value : Value)
    : Confined reads writes (write root keys value) := by
  constructor
  . intro s
    rw [run_write]
    cases hs : s.write root keys value with
    | error fault => exact .refl writes s
    | ok t => exact Scope.frame_write hwrite hs
  . intro s t h
    have hagree := Scope.agree_write hread h keys value
    rw [run_write, run_write]
    cases hs : s.write root keys value with
    | error fault =>
      cases ht : t.write root keys value with
      | error other =>
        rw [hs, ht] at hagree
        cases hagree
        exact ⟨rfl, h⟩
      | ok t' =>
        rw [hs, ht] at hagree
        cases hagree
    | ok s' =>
      cases ht : t.write root keys value with
      | error other =>
        rw [hs, ht] at hagree
        cases hagree
      | ok t' =>
        rw [hs, ht] at hagree
        exact ⟨rfl, hagree⟩

/--
What an assignment does once it has its target and the value on the right.
-/
theorem confined_store {root : Root} (hread : root ∈ reads) (hwrite : root ∈ writes) (keys : List String)
    (op : Option BinaryOp) (new : Value)
    : Confined reads writes (match op with
        | none => do
          write root keys new
          return new
        | some op => do
          let value ← op.apply (← read root keys) new
          write root keys value
          return value) := by
  have hstore (value : Value) : Confined reads writes (write root keys value >>= fun _ => pure value) :=
    (confined_write hread hwrite keys value).then fun _ => confined_pure value
  cases op with
  | none => exact hstore new
  | some op => exact (confined_read hread keys).then fun _ => (confined_except _).then hstore

/-! ### Expressions -/

/--
The root of a path that has been resolved is the one that is written at its start.
-/
theorem pathRoot?_of_resolve {e : Expr} {root : Root} {keys : List String} {s : Scope}
    (h : ((resolve e).run.run s).1 = .ok (some (root, keys))) : e.pathRoot? = some root := by
  fun_induction pathRoot? e generalizing root keys s with
  | case1 word =>
    rw [resolve] at h
    cases hroot : root? word with
    | none =>
      rw [hroot] at h
      cases h
    | some found =>
      rw [hroot] at h
      cases h
      rfl
  | case2 base key ih =>
    rw [resolve, run_bind] at h
    cases hbase : (resolve base).run.run s with
    | mk answer t =>
      rw [hbase] at h
      cases answer with
      | error fault => cases h
      | ok path =>
        cases path with
        | none => cases h
        | some path =>
          obtain ⟨found, before⟩ := path
          have hpath : ((resolve base).run.run s).1 = .ok (some (found, before)) := congrArg Prod.fst hbase
          have hfound := ih hpath
          dsimp only at h
          rw [run_bind] at h
          cases hkey : (eval key).run.run t with
          | mk answer u =>
            rw [hkey] at h
            cases answer with
            | error fault => cases h
            | ok value =>
              cases h
              exact hfound
  | case3 e hname hmember =>
    rw [resolve.eq_def] at h
    split at h
    . exact (hname _ rfl).elim
    . exact (hmember _ _ rfl).elim
    . cases h

mutual

theorem confined_eval (e : Expr) (hreads : e.mentioned ⊆ reads) (hwrites : e.assigned ⊆ writes)
    : Confined reads writes (eval e) := by
  cases e with
  | literal value =>
    rw [eval]
    exact confined_pure value
  | name word =>
    rw [eval]
    cases hroot : root? word with
    | none => exact confined_throw _
    | some root => exact confined_read (hreads (pathRoot?_mem_mentioned hroot)) []
  | member base key =>
    simp only [mentioned, assigned, collect, nameRoots, targetRoots, List.nil_append, List.append_subset] at hreads hwrites
    have hbase := confined_eval base hreads.1 hwrites.1
    have hkey := confined_eval key hreads.2 hwrites.2
    rw [eval]
    apply (confined_resolve base hreads.1 hwrites.1).bind
    intro path ⟨s, hpath⟩
    cases path with
    | none => exact hbase.then fun _ => hkey.then fun _ => confined_pure _
    | some path =>
      obtain ⟨root, keys⟩ := path
      have hroot := hreads.1 (pathRoot?_mem_mentioned (pathRoot?_of_resolve hpath))
      exact hkey.then fun _ => confined_read hroot _
  | array items =>
    simp only [mentioned, assigned, collect, nameRoots, targetRoots, List.nil_append] at hreads hwrites
    rw [eval]
    exact (confined_evalItems items hreads hwrites).then fun _ => confined_pure _
  | object entries =>
    simp only [mentioned, assigned, collect, nameRoots, targetRoots, List.nil_append] at hreads hwrites
    rw [eval]
    exact (confined_evalEntries [] entries hreads hwrites).then fun _ => confined_pure _
  | unary op operand =>
    simp only [mentioned, assigned, collect, nameRoots, targetRoots, List.nil_append] at hreads hwrites
    rw [eval]
    exact (confined_eval operand hreads hwrites).then fun _ => confined_except _
  | binary op left right =>
    simp only [mentioned, assigned, collect, nameRoots, targetRoots, List.nil_append, List.append_subset] at hreads hwrites
    rw [eval]
    apply (confined_eval left hreads.1 hwrites.1).then
    intro first
    exact (confined_eval right hreads.2 hwrites.2).then fun _ => confined_except _
  | and left right =>
    simp only [mentioned, assigned, collect, nameRoots, targetRoots, List.nil_append, List.append_subset] at hreads hwrites
    rw [eval]
    apply (confined_eval left hreads.1 hwrites.1).then
    intro value
    split
    . exact confined_eval right hreads.2 hwrites.2
    . exact confined_pure value
  | or left right =>
    simp only [mentioned, assigned, collect, nameRoots, targetRoots, List.nil_append, List.append_subset] at hreads hwrites
    rw [eval]
    apply (confined_eval left hreads.1 hwrites.1).then
    intro value
    split
    . exact confined_pure value
    . exact confined_eval right hreads.2 hwrites.2
  | conditional condition yes no =>
    simp only [mentioned, assigned, collect, nameRoots, targetRoots, List.nil_append, List.append_subset] at hreads hwrites
    rw [eval]
    apply (confined_eval condition hreads.1.1 hwrites.1.1).then
    intro value
    split
    . exact confined_eval yes hreads.1.2 hwrites.1.2
    . exact confined_eval no hreads.2 hwrites.2
  | assign op target value =>
    simp only [mentioned, assigned, collect, nameRoots, targetRoots, List.nil_append, List.append_subset] at hreads hwrites
    rw [eval]
    apply (confined_resolve target hreads.1 hwrites.1.2).bind
    intro path ⟨s, hpath⟩
    cases path with
    | none => exact confined_throw _
    | some path =>
      obtain ⟨root, keys⟩ := path
      have hroot := pathRoot?_of_resolve hpath
      have hread := hreads.1 (pathRoot?_mem_mentioned hroot)
      have hwrite : root ∈ writes := hwrites.1.1 (by simp [hroot])
      exact (confined_eval value hreads.2 hwrites.2).then fun new => confined_store hread hwrite keys op new
  | sequence statements =>
    simp only [mentioned, assigned, collect, nameRoots, targetRoots, List.nil_append] at hreads hwrites
    rw [eval]
    exact confined_evalSequence .null statements hreads hwrites

theorem confined_resolve (e : Expr) (hreads : e.mentioned ⊆ reads) (hwrites : e.assigned ⊆ writes)
    : Confined reads writes (resolve e) := by
  cases e with
  | name word =>
    rw [resolve]
    exact confined_pure _
  | member base key =>
    simp only [mentioned, assigned, collect, nameRoots, targetRoots, List.nil_append, List.append_subset] at hreads hwrites
    rw [resolve]
    apply (confined_resolve base hreads.1 hwrites.1).then
    intro path
    cases path with
    | none => exact confined_pure none
    | some path => exact (confined_eval key hreads.2 hwrites.2).then fun _ => confined_pure _
  | _ =>
    rw [resolve]
    . exact confined_pure none
    . exact nofun
    . exact nofun

theorem confined_evalItems (items : List Expr) (hreads : collectItems nameRoots items ⊆ reads)
    (hwrites : collectItems targetRoots items ⊆ writes) : Confined reads writes (evalItems items) := by
  cases items with
  | nil =>
    rw [evalItems]
    exact confined_pure []
  | cons item items =>
    rw [collectItems, List.append_subset] at hreads hwrites
    rw [evalItems]
    apply (confined_eval item hreads.1 hwrites.1).then
    intro value
    exact (confined_evalItems items hreads.2 hwrites.2).then fun _ => confined_pure _

theorem confined_evalEntries (fields : Fields) (entries : List (String × Expr))
    (hreads : collectEntries nameRoots entries ⊆ reads)
    (hwrites : collectEntries targetRoots entries ⊆ writes) : Confined reads writes (evalEntries fields entries) := by
  cases entries with
  | nil =>
    rw [evalEntries]
    exact confined_pure fields
  | cons entry entries =>
    rw [collectEntries, List.append_subset] at hreads hwrites
    rw [evalEntries]
    apply (confined_eval entry.2 hreads.1 hwrites.1).then
    intro value
    exact confined_evalEntries _ entries hreads.2 hwrites.2

theorem confined_evalSequence (last : Value) (statements : List Expr)
    (hreads : collectItems nameRoots statements ⊆ reads)
    (hwrites : collectItems targetRoots statements ⊆ writes)
    : Confined reads writes (evalSequence last statements) := by
  cases statements with
  | nil =>
    rw [evalSequence]
    exact confined_pure last
  | cons statement statements =>
    rw [collectItems, List.append_subset] at hreads hwrites
    rw [evalSequence]
    apply (confined_eval statement hreads.1 hwrites.1).then
    intro value
    exact confined_evalSequence value statements hreads.2 hwrites.2

end

end Confined

/-! ### Sources -/

/--
The roots that the program of a source names. A source that is no program names none.
-/
def mentionedIn (source : String) : List Root :=
  match parse source with
  | .ok e => e.mentioned
  | .error _ => []

/--
The roots to which the program of a source assigns.
-/
def assignedIn (source : String) : List Root :=
  match parse source with
  | .ok e => e.assigned
  | .error _ => []

theorem evaluate_of_parse {source : String} {e : Expr} (h : parse source = .ok e) (scope : Scope)
    : evaluate source scope
        =
      (((eval e).run.run scope).1.mapError ({ fault := ·, source }), ((eval e).run.run scope).2) := by
  rw [evaluate, h]
  dsimp only
  cases (eval e).run.run scope with
  | mk answer after => cases answer <;> rfl

/--
An expression, whether its evaluation succeeds or fails, changes only those spaces to which it assigns, and it has the
same outcome in all scopes that agree on what it names; they agree on this afterwards as well.
-/
theorem evaluate_confined (source : String) (vars : Variables) (parameters : Option Fields)
    : let scope : Scope := { vars := some vars, parameters }
      (∃ after, (evaluate source scope).2 = { vars := some after, parameters } ∧ after.readMarks = vars.readMarks ∧
        ∀ space, .space space ∉ assignedIn source → after.fields space = vars.fields space) ∧
      ∀ other, scope.Agree (mentionedIn source) other →
        (evaluate source other).1 = (evaluate source scope).1 ∧
          (evaluate source scope).2.Agree (mentionedIn source) (evaluate source other).2 := by
  intro scope
  unfold assignedIn mentionedIn
  cases hparse : parse source with
  | error fault =>
    have hsame (scope : Scope) : evaluate source scope = (.error { fault, source }, scope) := by
      rw [evaluate, hparse]
    simp only [hsame]
    exact ⟨⟨vars, rfl, rfl, fun _ _ => rfl⟩, fun other h => ⟨trivial, h⟩⟩
  | ok e =>
    have hconfined : Confined e.mentioned e.assigned (eval e) := confined_eval e (.refl _) (.refl _)
    simp only [evaluate_of_parse hparse]
    constructor
    . have hframe := hconfined.frame scope
      generalize ((eval e).run.run scope).2 = final at hframe ⊢
      obtain ⟨after, hvars, hmarks⟩ := Option.map_eq_some_iff.1 hframe.readMarks
      refine ⟨after, ?_, hmarks, ?_⟩
      . rw [← hvars, ← show final.parameters = parameters from hframe.parameters]
      . intro space hspace
        have hfields := hframe.fields (.space space) hspace
        simp only [Scope.fields, hvars] at hfields
        exact Except.ok.inj hfields
    . intro other h
      obtain ⟨hsame, hagree⟩ := hconfined.agree scope other h
      exact ⟨by rw [hsame], hagree⟩

section Sample

def sampleSource : String := "tv.a=gv"

def sampleTokens : List Token :=
  [⟨.name "tv", false⟩, ⟨.punct .dot, false⟩, ⟨.name "a", false⟩, ⟨.punct .assign, false⟩, ⟨.name "gv", false⟩]

theorem tokenize_sampleSource : tokenize false sampleSource.toList = .ok sampleTokens := by
  apply eq_ok_of_toOption
  decide +kernel

theorem parseTokens_sampleTokens
    : parseTokens sampleTokens = .ok (.assign none (.member (.name "tv") (.literal (.string "a"))) (.name "gv")) := by
  cbv

theorem parse_sampleSource
    : parse sampleSource = .ok (.assign none (.member (.name "tv") (.literal (.string "a"))) (.name "gv")) := by
  rw [parse_of_tokenize tokenize_sampleSource]
  exact parseTokens_sampleTokens

/--
The system variables and the parameters have no influence on a statement that does not name them.
-/
theorem sampleSource_confined
    : let vars : Variables := { game := [("b", .null)], system := [("s", .bool true)], readMarks := ["f:m"] }
      let other : Scope := { vars := some { game := [("b", .null)] }, parameters := some [] }
      assignedIn sampleSource = [.space .temporary] ∧
        mentionedIn sampleSource = [.space .temporary, .space .game] ∧
        Scope.Agree (mentionedIn sampleSource) { vars := some vars } other ∧
        (evaluate sampleSource other).1 = (evaluate sampleSource { vars := some vars }).1 ∧
        ∃ after, (evaluate sampleSource { vars := some vars }).2 = { vars := some after } ∧
          after.readMarks = ["f:m"] ∧ after.system = [("s", .bool true)] := by
  intro vars other
  have hassigned : assignedIn sampleSource = [.space .temporary] := by
    rw [assignedIn, parse_sampleSource]
    rfl
  have hmentioned : mentionedIn sampleSource = [.space .temporary, .space .game] := by
    rw [mentionedIn, parse_sampleSource]
    rfl
  have hagree : Scope.Agree (mentionedIn sampleSource) { vars := some vars } other := by
    rw [hmentioned]
    simp [Scope.Agree, Scope.fields, Variables.fields, vars, other]
  obtain ⟨⟨after, hafter, hmarks, hfields⟩, hsame⟩ := evaluate_confined sampleSource vars none
  have hsystem := hfields .system (by rw [hassigned]; decide)
  exact ⟨hassigned, hmentioned, hagree, (hsame other hagree).1, after, hafter, hmarks, hsystem⟩

end Sample

end Expr
end VisualNovel
