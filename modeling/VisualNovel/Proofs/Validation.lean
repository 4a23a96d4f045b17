import VisualNovel.Parameter

/-!
This module contains what the check of a tag's values promises to an action: all that it has declared is there as it was
declared, and of the declarations that are not met the first one is reported.
-/

namespace VisualNovel

/--
The values of each kind.
-/
inductive ParameterKind.Has : ParameterKind → Value → Prop where
  | string (s : String) : Has .string (.string s)
  | number (n : Number) : Has .number (.number n)
  | boolean (b : Bool) : Has .boolean (.bool b)
  | array (items : List Value) : Has .array (.array items)
  | object (fields : List (String × Value)) : Has .object (.object fields)
  | any (value : Value) : Has .any value

theorem ParameterKind.accepts_iff (kind : ParameterKind) (value : Value) : kind.accepts value = true ↔ kind.Has value := by
  constructor
  . intro h
    cases kind <;> cases value <;> first | constructor | cases h
  . intro h
    cases h <;> rfl

namespace Parameter

/--
The values, with the default of a parameter that has been left out.
-/
def fill (p : Parameter) (values : Fields) : Fields :=
  match Fields.find? p.name values, p.presence with
  | none, .optional (some default) => Fields.insert p.name default values
  | _, _ => values

/--
The values, with the defaults of all parameters that have been left out. Of several defaults for a name the first one counts.
-/
def fillAll (ps : List Parameter) (values : Fields) : Fields :=
  ps.foldl (fun values p => p.fill values) values

/--
What is wrong with some values for a parameter.
-/
inductive Faults (p : Parameter) (values : Fields) : ParameterError → Prop where
  | missing (habsent : Fields.find? p.name values = none) (hrequired : p.presence = .required)
    : Faults p values (.missing p.name)
  | mismatch {value : Value} (hpresent : Fields.find? p.name values = some value) (hkind : ¬p.kind.Has value)
    : Faults p values (.mismatch p.name p.kind value)

/--
The first parameter for which something is wrong with the values, to which the defaults of the parameters before it belong.
-/
def FirstFault (ps : List Parameter) (values : Fields) (e : ParameterError) : Prop :=
  ∃ before p after, ps = before ++ p :: after ∧ p.Faults (fillAll before values) e ∧
    ∀ earlier q later, before = earlier ++ q :: later → ∀ e', ¬q.Faults (fillAll earlier values) e'

/--
Declarations that agree with themselves and with each other: a default is of the declared kind, and a name that is declared
again is of one kind.
-/
structure Consistent (ps : List Parameter) : Prop where
  defaults : ∀ p ∈ ps, ∀ default, p.presence = .optional (some default) → p.kind.Has default
  kinds : ∀ p ∈ ps, ∀ q ∈ ps, p.name = q.name → p.kind = q.kind

/--
What an action can rely on.
-/
structure Delivers (ps : List Parameter) (values delivered : Fields) : Prop where
  keeps : ∀ key value, Fields.find? key values = some value → Fields.find? key delivered = some value
  adds : ∀ key value, Fields.find? key values = none → Fields.find? key delivered = some value →
    ∃ p ∈ ps, p.name = key ∧ p.presence = .optional (some value)
  required : ∀ p ∈ ps, p.presence = .required → ∃ value, Fields.find? p.name delivered = some value
  kinds : ∀ p ∈ ps, ∀ value, Fields.find? p.name delivered = some value → p.kind.Has value

variable {p : Parameter} {ps : List Parameter} {values delivered : Fields} {e : ParameterError}

/-! ### One parameter -/

theorem check_eq_error_iff : p.check values = .error e ↔ p.Faults values e := by
  unfold check
  constructor
  . intro h
    split at h
    . next _ value hfind =>
      split at h
      . cases h
      . next hkind =>
        cases h
        exact .mismatch hfind fun hhas => hkind ((p.kind.accepts_iff value).2 hhas)
    . next hfind hpresence =>
      cases h
      exact .missing hfind hpresence
    . cases h
    . cases h
  . rintro (⟨habsent, hrequired⟩ | @⟨value, hpresent, hkind⟩)
    . rw [habsent, hrequired]
    . rw [hpresent]
      dsimp only
      rw [if_neg fun haccepts => hkind ((p.kind.accepts_iff value).1 haccepts)]

/--
A parameter for which nothing is wrong with the values changes them by its default at most.
-/
theorem check_of_fine (h : ∀ e, ¬p.Faults values e) : p.check values = .ok (p.fill values) := by
  cases hcheck : p.check values with
  | error e => exact absurd (check_eq_error_iff.1 hcheck) (h e)
  | ok checked =>
    unfold check at hcheck
    unfold fill
    split at hcheck
    . next _ value hfind =>
      rw [hfind]
      split at hcheck <;> cases hcheck
      rfl
    . cases hcheck
    . next hfind hpresence =>
      cases hcheck
      rw [hfind, hpresence]
    . next hfind hpresence =>
      cases hcheck
      rw [hfind, hpresence]

theorem find?_fill_of_some {key : String} {value : Value} (h : Fields.find? key values = some value)
    : Fields.find? key (p.fill values) = some value := by
  unfold fill
  split
  . next hfind _ =>
    have hne : key ≠ p.name := by
      rintro rfl
      rw [hfind] at h
      cases h
    rw [Fields.find?_insert_of_ne _ _ hne, h]
  . exact h

/--
What has been filled in is the default of the parameter.
-/
theorem default_of_find?_fill {key : String} {value : Value} (habsent : Fields.find? key values = none)
    (h : Fields.find? key (p.fill values) = some value) : p.name = key ∧ p.presence = .optional (some value) := by
  unfold fill at h
  split at h
  . next default hfind hpresence =>
    by_cases hkey : key = p.name
    . rw [hkey, Fields.find?_insert_self] at h
      rw [hpresence, Option.some.inj h]
      exact ⟨hkey.symm, rfl⟩
    . rw [Fields.find?_insert_of_ne _ _ hkey, habsent] at h
      cases h
  . rw [habsent] at h
    cases h

/-! ### All parameters -/

theorem validate_cons_of_faults (h : p.Faults values e) : validate (p :: ps) values = .error e := by
  rw [validate, check_eq_error_iff.2 h]
  rfl

theorem validate_cons_of_fine (h : ∀ e, ¬p.Faults values e) : validate (p :: ps) values = validate ps (p.fill values) := by
  rw [validate, check_of_fine h]
  rfl

theorem firstFault_cons_iff
    : FirstFault (p :: ps) values e ↔
        p.Faults values e ∨ (∀ e', ¬p.Faults values e') ∧ FirstFault ps (p.fill values) e := by
  constructor
  . rintro ⟨before, q, after, heq, hfaults, hfirst⟩
    cases before with
    | nil =>
      cases heq
      exact .inl hfaults
    | cons r before =>
      cases heq
      refine .inr ⟨hfirst [] p before rfl, before, q, after, rfl, hfaults, ?_⟩
      rintro earlier r later rfl
      exact hfirst (p :: earlier) r later rfl
  . rintro (hfaults | ⟨hfine, before, q, after, rfl, hfaults, hfirst⟩)
    . refine ⟨[], p, ps, rfl, hfaults, ?_⟩
      intro earlier q later heq
      simp at heq
    . refine ⟨p :: before, q, after, rfl, hfaults, ?_⟩
      intro earlier r later heq
      cases earlier with
      | nil =>
        cases heq
        exact hfine
      | cons s earlier =>
        cases heq
        exact hfirst earlier r later rfl

theorem validate_eq_error_iff : validate ps values = .error e ↔ FirstFault ps values e := by
  induction ps generalizing values with
  | nil =>
    constructor
    . intro h
      cases h
    . rintro ⟨before, p, after, heq, _⟩
      simp at heq
  | cons p ps ih =>
    rw [firstFault_cons_iff]
    by_cases hfaults : ∃ e', p.Faults values e'
    . obtain ⟨e', hfaults⟩ := hfaults
      rw [validate_cons_of_faults hfaults]
      constructor
      . intro h
        cases h
        exact .inl hfaults
      . rintro (hsame | ⟨hfine, _⟩)
        . have hcheck := check_eq_error_iff.2 hfaults
          rw [check_eq_error_iff.2 hsame] at hcheck
          exact hcheck.symm
        . exact absurd hfaults (hfine e')
    . have hfine : ∀ e', ¬p.Faults values e' := fun e' h => hfaults ⟨e', h⟩
      rw [validate_cons_of_fine hfine, ih]
      constructor
      . exact fun h => .inr ⟨hfine, h⟩
      . rintro (h | ⟨_, h⟩)
        . exact absurd h (hfine e)
        . exact h

/--
If no fault is found then the first parameter has none, and the others have none with its default filled in.
-/
theorem validate_cons_eq_ok_iff
    : validate (p :: ps) values = .ok delivered ↔
        (∀ e, ¬p.Faults values e) ∧ validate ps (p.fill values) = .ok delivered := by
  by_cases hfaults : ∃ e, p.Faults values e
  . obtain ⟨e, hfaults⟩ := hfaults
    rw [validate_cons_of_faults hfaults]
    constructor
    . intro h
      cases h
    . intro h
      exact absurd hfaults (h.1 e)
  . have hfine : ∀ e, ¬p.Faults values e := fun e h => hfaults ⟨e, h⟩
    rw [validate_cons_of_fine hfine, and_iff_right hfine]

theorem find?_of_validate {key : String} {value : Value} (h : validate ps values = .ok delivered)
    (hfind : Fields.find? key values = some value) : Fields.find? key delivered = some value := by
  induction ps generalizing values with
  | nil =>
    cases h
    exact hfind
  | cons p ps ih => exact ih (validate_cons_eq_ok_iff.1 h).2 (find?_fill_of_some hfind)

theorem default_of_validate {key : String} {value : Value} (h : validate ps values = .ok delivered)
    (habsent : Fields.find? key values = none) (hfind : Fields.find? key delivered = some value)
    : ∃ p ∈ ps, p.name = key ∧ p.presence = .optional (some value) := by
  induction ps generalizing values with
  | nil =>
    cases h
    rw [habsent] at hfind
    cases hfind
  | cons p ps ih =>
    have hrest := (validate_cons_eq_ok_iff.1 h).2
    cases hfilled : Fields.find? key (p.fill values) with
    | none =>
      obtain ⟨q, hq, hdefault⟩ := ih hrest hfilled
      exact ⟨q, List.mem_cons_of_mem p hq, hdefault⟩
    | some filled =>
      -- what the first parameter fills in stays, so it is the value that is found
      rw [find?_of_validate hrest hfilled] at hfind
      cases hfind
      exact ⟨p, List.mem_cons_self, default_of_find?_fill habsent hfilled⟩

/-! ### What an action gets -/

/--
A parameter that needs nothing to be filled in, and for which nothing is wrong with the values.
-/
structure Settled (p : Parameter) (values : Fields) : Prop where
  has : ∀ value, Fields.find? p.name values = some value → p.kind.Has value
  left : Fields.find? p.name values = none → p.presence = .optional none

theorem Settled.fine (h : p.Settled values) (e : ParameterError) : ¬p.Faults values e := by
  rintro (⟨habsent, hrequired⟩ | ⟨hpresent, hkind⟩)
  . rw [h.left habsent] at hrequired
    cases hrequired
  . exact hkind (h.has _ hpresent)

theorem Settled.fill_eq (h : p.Settled values) : p.fill values = values := by
  unfold fill
  split
  . next hfind hpresence =>
    rw [h.left hfind] at hpresence
    cases hpresence
  . rfl

theorem validate_of_settled (h : ∀ p ∈ ps, p.Settled values) : validate ps values = .ok values := by
  induction ps with
  | nil => rfl
  | cons p ps ih =>
    obtain ⟨hfirst, hrest⟩ := List.forall_mem_cons.1 h
    rw [validate_cons_of_fine hfirst.fine, hfirst.fill_eq]
    exact ih hrest

theorem has_of_fine (hfine : ∀ e, ¬p.Faults values e) {value : Value} (h : Fields.find? p.name values = some value)
    : p.kind.Has value :=
  Classical.byContradiction fun hkind => hfine _ (.mismatch h hkind)

/--
After one check a parameter is settled, or it is one without a default that has been left out.
-/
theorem settled_fill (hfine : ∀ e, ¬p.Faults values e)
    (hdefault : ∀ default, p.presence = .optional (some default) → p.kind.Has default) : p.Settled (p.fill values) := by
  cases hfind : Fields.find? p.name values with
  | some value =>
    refine ⟨?_, ?_⟩
    . intro other hother
      rw [find?_fill_of_some hfind] at hother
      cases hother
      exact has_of_fine hfine hfind
    . intro habsent
      rw [find?_fill_of_some hfind] at habsent
      cases habsent
  | none =>
    refine ⟨?_, ?_⟩
    . intro value hvalue
      exact hdefault value (default_of_find?_fill hfind hvalue).2
    . intro habsent
      unfold fill at habsent
      rw [hfind] at habsent
      cases hpresence : p.presence with
      | required => exact absurd (.missing hfind hpresence) (hfine _)
      | optional default =>
        cases default with
        | none => rfl
        | some default =>
          rw [hpresence] at habsent
          dsimp only at habsent
          rw [Fields.find?_insert_self] at habsent
          cases habsent

/--
A parameter stays settled while others are checked, unless they fill in its name with a value of another kind.
-/
theorem Settled.validate (h : p.Settled values) (hvalid : validate ps values = .ok delivered)
    (hothers : ∀ q ∈ ps, q.name = p.name → ∀ default, q.presence = .optional (some default) → p.kind.Has default)
    : p.Settled delivered := by
  cases hfind : Fields.find? p.name values with
  | some value =>
    have hsame := find?_of_validate hvalid hfind
    refine ⟨?_, ?_⟩
    . intro other hother
      rw [hsame] at hother
      cases hother
      exact h.has value hfind
    . intro habsent
      rw [hsame] at habsent
      cases habsent
  | none =>
    refine ⟨?_, fun _ => h.left hfind⟩
    intro value hvalue
    obtain ⟨q, hq, hname, hdefault⟩ := default_of_validate hvalid hfind hvalue
    exact hothers q hq hname value hdefault

theorem Consistent.default_of_name_eq (h : Consistent ps) {q : Parameter} (hp : p ∈ ps) (hq : q ∈ ps)
    (hname : q.name = p.name) {default : Value} (hdefault : q.presence = .optional (some default))
    : p.kind.Has default := by
  rw [← h.kinds q hq p hp hname]
  exact h.defaults q hq default hdefault

theorem Consistent.tail (h : Consistent (p :: ps)) : Consistent ps where
  defaults q hq := h.defaults q (List.mem_cons_of_mem p hq)
  kinds q hq r hr := h.kinds q (List.mem_cons_of_mem p hq) r (List.mem_cons_of_mem p hr)

theorem Consistent.settled (h : Consistent ps) (hvalid : validate ps values = .ok delivered)
    : ∀ p ∈ ps, p.Settled delivered := by
  induction ps generalizing values with
  | nil => exact nofun
  | cons p ps ih =>
    obtain ⟨hfine, hrest⟩ := validate_cons_eq_ok_iff.1 hvalid
    rw [List.forall_mem_cons]
    refine ⟨?_, ih h.tail hrest⟩
    apply (settled_fill hfine (h.defaults p List.mem_cons_self)).validate hrest
    intro q hq hname default hdefault
    exact h.default_of_name_eq List.mem_cons_self (List.mem_cons_of_mem p hq) hname hdefault

/--
Values that pass the check are delivered with nothing but defaults added, and then have all that is declared, so they pass
once more as they are. Otherwise the first fault is reported.
-/
theorem validate_delivers (h : Consistent ps) (values : Fields)
    : (∀ delivered, validate ps values = .ok delivered →
          Delivers ps values delivered ∧ validate ps delivered = .ok delivered) ∧
        ∀ e, validate ps values = .error e ↔ FirstFault ps values e := by
  refine ⟨?_, fun e => validate_eq_error_iff⟩
  intro delivered hvalid
  have hsettled := h.settled hvalid
  refine ⟨⟨?_, ?_, ?_, fun p hp => (hsettled p hp).has⟩, validate_of_settled hsettled⟩
  . exact fun key value => find?_of_validate hvalid
  . exact fun key value => default_of_validate hvalid
  . intro p hp hrequired
    rw [← Option.isSome_iff_exists, Option.isSome_iff_ne_none]
    intro habsent
    rw [(hsettled p hp).left habsent] at hrequired
    cases hrequired

section Sample

/--
A name that is declared without a default, with one, and as required.
-/
def sampleSizes : List Parameter := [
  { name := "size", kind := .number, presence := .optional none },
  { name := "size", kind := .number, presence := .optional (some (.ofNat 3)) },
  { name := "size", kind := .number, presence := .required },
  { name := "text", kind := .string, presence := .required }
]

theorem validate_sampleSizes
    : let values : Fields := [("text", .string "a")]
      let delivered : Fields := [("size", .ofNat 3), ("text", .string "a")]
      Consistent sampleSizes ∧
        (Delivers sampleSizes values delivered ∧ validate sampleSizes delivered = .ok delivered) ∧
        FirstFault sampleSizes [] (.missing "text") := by
  intro values delivered
  have hconsistent : Consistent sampleSizes := by
    constructor
    . intro p hp default hdefault
      simp only [sampleSizes, List.mem_cons, List.not_mem_nil, or_false] at hp
      obtain rfl | rfl | rfl | rfl := hp <;> cases hdefault
      exact .number _
    . decide
  exact ⟨hconsistent, (validate_delivers hconsistent values).1 delivered rfl,
    ((validate_delivers hconsistent []).2 _).1 rfl⟩

end Sample

end Parameter
end VisualNovel
