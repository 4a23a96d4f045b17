import VisualNovel.Proofs.Literal
import VisualNovel.Proofs.Playing.Transparency
import VisualNovel.Proofs.Reading

/-!
This module contains what comes of text when it is played: an action is called for each of its characters. The
one character that marks expressions is taken for an expression, too, and the action never gets it.
-/

namespace VisualNovel

variable {H K : Type}

namespace Tag

theorem values_ofChar (ch : Char) (line : Nat)
    : (ofChar ch line).values = [(bodyKey, .string ch.toString), ("text", .string ch.toString)] :=
  rfl

theorem evaluateAt_empty (line : Nat) (parameters : Option Fields) (vars : Variables)
    : (Expr.evaluateAt "" line parameters).run.run vars = (.ok .null, vars) := by
  have hparse : Expr.parse "" = .ok (.literal .null) := by
    rw [Expr.parse, String.toList_empty, Expr.tokenize]
    change Expr.parseTokens [] = _
    rw [Expr.parseTokens, Expr.readStatements]
    rfl
  have hevaluate : Expr.evaluate "" { vars := some vars, parameters }
      = (.ok .null, { vars := some vars, parameters }) := by
    rw [Expr.evaluate, hparse]
    dsimp only
    rw [Expr.eval]
    rfl
  unfold Expr.evaluateAt
  rw [run_get_bind, hevaluate]
  rfl

theorem resolve_ofChar {ch : Char} (hmark : ch ≠ deferredMark) (line : Nat) (parameters : Option Fields)
    (vars : Variables)
    : (resolve (ofChar ch line) parameters).run.run vars = (.ok (ofChar ch line).values, vars) := by
  have hbody : resolveEntry line parameters (bodyKey, .string ch.toString)
      = pure (bodyKey, .string ch.toString) :=
    rfl
  have htext : resolveEntry line parameters ("text", .string ch.toString)
      = pure ("text", .string ch.toString) := by
    have hkey : "text" ≠ bodyKey := by decide
    simp [resolveEntry, hkey, deferred?, hmark]
  unfold resolve
  rw [values_ofChar]
  change (List.mapM (resolveEntry line parameters) _).run.run vars = _
  rw [List.mapM_cons, List.mapM_cons, hbody, htext]
  rfl

def markValues : Fields := [(bodyKey, .string deferredMark.toString), ("text", .null)]

theorem resolve_ofChar_mark (line : Nat) (parameters : Option Fields) (vars : Variables)
    : (resolve (ofChar deferredMark line) parameters).run.run vars = (.ok markValues, vars) := by
  have hbody : resolveEntry line parameters (bodyKey, .string deferredMark.toString)
      = pure (bodyKey, .string deferredMark.toString) :=
    rfl
  -- nothing stands behind the mark, and no expression at all comes to null
  have htext : resolveEntry line parameters ("text", .string deferredMark.toString)
      = (do return ("text", ← Expr.evaluateAt "" line parameters)) := by
    have hkey : "text" ≠ bodyKey := by decide
    simp [resolveEntry, hkey, deferred?]
  unfold resolve
  rw [values_ofChar]
  change (List.mapM (resolveEntry line parameters) _).run.run vars = _
  rw [List.mapM_cons, List.mapM_cons, hbody, htext, pure_bind, bind_assoc, bind_assoc, run_bind,
    evaluateAt_empty]
  rfl

end Tag

/-! ### What is ahead -/

/--
The tags that are next: those of printed text, and then those of the running script or macro.
-/
def Conductor.ahead (c : Conductor H) : List Tag :=
  c.printed ++ (c.cursor.map Cursor.unread).getD []

def Call.ahead (call : Call) : List Tag :=
  call.printed ++ (call.cursor.map Cursor.unread).getD []

namespace Conducting

theorem run_nextTag_of_ahead {m : Conductor H} {tag : Tag} {later : List Tag} (h : m.ahead = tag :: later)
    (hfind : m.printed = [] → m.library.macros.find? tag.name = none)
    : ∃ d, nextTag.run.run m = (.ok (some tag), d) ∧ d.ahead = later ∧ d.printed = m.printed.tail ∧
        d.library = m.library ∧ d.vars = m.vars ∧
        d.cursor.bind Cursor.parameters = m.cursor.bind Cursor.parameters := by
  unfold Conductor.ahead at h
  cases hprinted : m.printed with
  | cons first printed =>
    rw [hprinted, List.cons_append] at h
    injection h with htag hlater
    subst htag
    exact ⟨_, run_nextTag_printed hprinted, hlater, rfl, rfl, rfl, rfl⟩
  | nil =>
    rw [hprinted, List.nil_append] at h
    cases hcursor : m.cursor with
    | none => rw [hcursor] at h; cases h
    | some cursor =>
      rw [hcursor] at h
      have hunread : cursor.unread = tag :: later := h
      have hread := run_nextTag_some hprinted hcursor
      rw [Cursor.next_of_tag hunread (hfind hprinted)] at hread
      refine ⟨_, hread, ?_, hprinted, rfl, rfl, ?_⟩
      . have hskip : (cursor.skip 1).unread = later := by rw [Cursor.unread_skip, hunread]; rfl
        simp only [Conductor.ahead, hprinted, List.nil_append, Option.map_some, Option.getD_some]
        exact hskip
      . exact cursor.parameters_skip 1

end Conducting

/-! ### Characters -/

def textParameter : Parameter := { name := "text", kind := .string, presence := .required }

/--
An action is called for a character and gets just this character. Nothing behind it has been played yet.
-/
def Happening.Shows (line : Nat) (ch : Char) (later : List Tag) (h : Happening) : Prop :=
  ∃ call, h = .call call ∧ call.tag = .ofChar ch line ∧ call.values = (Tag.ofChar ch line).values ∧
    call.ahead = later

def Happening.refused (line : Nat) : Happening :=
  .fault (.parameter Directive.char.name line (.mismatch textParameter.name .string .null))

def Happening.Renders (line : Nat) (ch : Char) (later : List Tag) (h : Happening) : Prop :=
  if ch = Tag.deferredMark then h = refused line else h.Shows line ch later

theorem Happening.refused_renders (line : Nat) (later : List Tag)
    : (refused line).Renders line Tag.deferredMark later := by
  simp [Renders]

theorem Happening.Shows.renders {line : Nat} {ch : Char} {later : List Tag} {h : Happening}
    (hmark : ch ≠ Tag.deferredMark) (hshows : h.Shows line ch later) : h.Renders line ch later := by
  simpa [Renders, hmark] using hshows

/--
What happens tells a text, as far as both of them go: each character is played in its turn.
-/
def Tells (plays : Char → List Tag → Happening → Prop) (line : Nat) (rest : List Tag)
    : List Char → List Happening → Prop
  | ch :: cs, h :: happenings =>
    plays ch (cs.map (Tag.ofChar · line) ++ rest) h ∧ Tells plays line rest cs happenings
  | _, _ => True

namespace Conductor

variable {deeds : String → Option (Deed H)} {deed : Deed H} {m : Conductor H} {line : Nat}

theorem nextCall_ofChar (hdeed : deeds Directive.char.name = some deed)
    (hparameters : deed.parameters = [textParameter]) (m : Conductor H) (ch : Char) (line : Nat)
    : ∃ h d, m.nextCall deeds (.ofChar ch line) = (some h, d) ∧ h.Renders line ch m.ahead ∧
        d.ahead = m.ahead ∧ d.printed = m.printed ∧ d.library = m.library := by
  have hname : deeds (Tag.ofChar ch line).name = some deed := hdeed
  have hresolve := Conducting.run_onVariables (Tag.resolve (.ofChar ch line)) m
  unfold nextCall
  rw [hname]
  dsimp only [Conducting.resolve]
  by_cases hmark : ch = Tag.deferredMark
  . subst hmark
    rw [Tag.resolve_ofChar_mark] at hresolve
    rw [hresolve, hparameters]
    exact ⟨_, m, rfl, Happening.refused_renders _ _, rfl, rfl, rfl⟩
  . rw [Tag.resolve_ofChar hmark] at hresolve
    rw [hresolve, hparameters]
    exact ⟨_, _, rfl, Happening.Shows.renders hmark ⟨_, rfl, rfl, rfl, rfl⟩, rfl, rfl, rfl⟩

theorem next_of_char (hdeed : deeds Directive.char.name = some deed)
    (hparameters : deed.parameters = [textParameter]) {ch : Char} {later : List Tag}
    (hahead : m.ahead = .ofChar ch line :: later)
    (hfind : m.printed = [] → m.library.macros.find? Directive.char.name = none)
    : ∃ h d, m.next deeds = (some h, d) ∧ h.Renders line ch later ∧ d.ahead = later ∧
        d.printed = m.printed.tail ∧ d.library = m.library := by
  obtain ⟨d, hnext, hd, hprinted, hlibrary, _, _⟩ := Conducting.run_nextTag_of_ahead hahead hfind
  obtain ⟨h, e, hcall, hrenders, he, hprinted', hlibrary'⟩ := nextCall_ofChar hdeed hparameters d ch line
  refine ⟨h, e, ?_, hd ▸ hrenders, he.trans hd, hprinted'.trans hprinted, hlibrary'.trans hlibrary⟩
  have hdecide : Conducting.decide.run.run m = (.ok (.play (.ofChar ch line)), d) := by
    unfold Conducting.decide
    rw [run_bind, hnext]
    rfl
  rw [next, hdecide]
  exact hcall

theorem tells_happenings (hdeed : deeds Directive.char.name = some deed)
    (hparameters : deed.parameters = [textParameter]) {cs : List Char} {rest : List Tag}
    (hahead : m.ahead = cs.map (Tag.ofChar · line) ++ rest)
    (hfind : cs.length ≤ m.printed.length ∨ m.library.macros.find? Directive.char.name = none)
    : Tells (Happening.Renders line) line rest cs (m.happenings deeds cs.length) ∧
        (m.happenings deeds cs.length).length = cs.length := by
  induction cs generalizing m with
  | nil => exact ⟨trivial, rfl⟩
  | cons ch cs ih =>
    -- macros are only looked up for tags of the script, not for those of printed text
    have hscript : m.printed = [] → m.library.macros.find? Directive.char.name = none := by
      intro hprinted
      obtain hlong | hfind := hfind
      . simp [hprinted] at hlong
      . exact hfind
    obtain ⟨h, d, hnext, hrenders, hd, hprinted, hlibrary⟩ :=
      next_of_char hdeed hparameters hahead hscript
    have hfind' : cs.length ≤ d.printed.length ∨ d.library.macros.find? Directive.char.name = none := by
      rw [hprinted, hlibrary]
      obtain hlong | hfind := hfind
      . left
        simp only [List.length_cons] at hlong
        rw [List.length_tail]
        omega
      . exact Or.inr hfind
    obtain ⟨htells, hlength⟩ := ih hd hfind'
    rw [List.length_cons, happenings, hnext]
    refine ⟨⟨hrenders, htells⟩, ?_⟩
    simp [hlength]

end Conductor

section Tells

variable {plays plays' : Char → List Tag → Happening → Prop} {line : Nat} {rest : List Tag}
  {cs : List Char} {happenings happenings' : List Happening}

theorem Tells.of_comparable (h : Tells plays line rest cs happenings) (hlength : cs.length ≤ happenings.length)
    (hcomparable : happenings' <+: happenings ∨ happenings <+: happenings')
    : Tells plays line rest cs happenings' := by
  induction cs generalizing happenings happenings' with
  | nil => exact trivial
  | cons ch cs ih =>
    cases happenings' with
    | nil => exact trivial
    | cons h' happenings' =>
      cases happenings with
      | nil => simp at hlength
      | cons h₀ happenings =>
        simp only [List.cons_prefix_cons] at hcomparable
        have hhead : h' = h₀ := hcomparable.elim (·.1) (·.1.symm)
        subst hhead
        exact ⟨h.1, ih h.2 (by simpa using hlength) (hcomparable.imp (·.2) (·.2))⟩

theorem Tells.imp (h : Tells plays line rest cs happenings)
    (hplays : ∀ ch ∈ cs, ∀ later h, plays ch later h → plays' ch later h)
    : Tells plays' line rest cs happenings := by
  induction cs generalizing happenings with
  | nil => exact trivial
  | cons ch cs ih =>
    cases happenings with
    | nil => exact trivial
    | cons h₀ happenings =>
      exact ⟨hplays ch (by simp) _ _ h.1, ih h.2 fun ch hch => hplays ch (by simp [hch])⟩

theorem Tells.mark_not_mem (hrenders : Tells (Happening.Renders line) line rest cs happenings)
    (hshows : Tells (Happening.Shows line) line rest cs happenings) (hlength : cs.length ≤ happenings.length)
    : Tag.deferredMark ∉ cs := by
  induction cs generalizing happenings with
  | nil => simp
  | cons ch cs ih =>
    cases happenings with
    | nil => simp at hlength
    | cons h happenings =>
      have hother : ch ≠ Tag.deferredMark := by
        intro hmark
        have hrefused := hrenders.1
        obtain ⟨call, hcall, _⟩ := hshows.1
        unfold Happening.Renders at hrefused
        rw [if_pos hmark, hcall] at hrefused
        cases hrefused
      have hrest := ih hrenders.2 hshows.2 (by simpa using hlength)
      simp [hother.symm, hrest]

end Tells

end VisualNovel
