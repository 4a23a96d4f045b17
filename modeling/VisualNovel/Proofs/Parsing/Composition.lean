import VisualNovel.Grammar.Parser
import VisualNovel.Proofs.Parsing.Relocation

/-!
This module contains that both grammars are compositional: a script that ends where another one begins parses like the
two of them on their own, and a script that does not parse does so up to the line of the error.
-/

namespace VisualNovel

/--
What becomes of the answer of a parser when lines are put before the script.
-/
inductive Relocates (bareAt : Nat → Bool) (lines marks : Nat)
    : Except ParseError (List Tag) → Except ParseError (List Tag) → Prop where
  | ok {tags others : List Tag}
    (h : List.Forall₂ (fun tag => Relocated (Grammar.isGenerated bareAt tag) lines marks tag) tags others)
    : Relocates bareAt lines marks (.ok tags) (.ok others)
  | error (e : ParseError)
    : Relocates bareAt lines marks (.error e) (.error { e with line := e.line + lines })

namespace Grammar

variable {grammar : Grammar} {marks : Nat} {lines : List SourceLine}

/-! ### Scripts, construct by construct -/

/--
The answer for the lines of a script, each construct read by the form of its first line.
-/
inductive Answers (grammar : Grammar) : Nat → List SourceLine → Except ParseError (List Tag) → Prop where
  | nil (marks : Nat) : Answers grammar marks [] (.ok [])
  | error {marks : Nat} {first : SourceLine} {following : List SourceLine} {e : ParseError}
    (h : (grammar.form first.text).read marks first following = .error e)
    : Answers grammar marks (first :: following) (.error e)
  | construct {marks : Nat} {first : SourceLine} {following : List SourceLine} {portion : Portion}
    {answer : Except ParseError (List Tag)}
    (h : (grammar.form first.text).read marks first following = .ok portion)
    (hrest : Answers grammar portion.marks portion.rest answer)
    : Answers grammar marks (first :: following) (answer.map (portion.tags ++ ·))

variable {grammar : Grammar} {marks : Nat} {lines : List SourceLine}

theorem answers_readConstructs (grammar : Grammar) (marks : Nat) (lines : List SourceLine)
    : Answers grammar marks lines (readConstructs grammar.reader marks lines) := by
  fun_induction readConstructs grammar.reader marks lines with
  | case1 marks => exact .nil marks
  | case2 marks first following e hread =>
    apply Answers.error
    rw [← reader_portion, hread]
    rfl
  | case3 marks first following c hread _ ih =>
    have hportion : (grammar.form first.text).read marks first following = .ok c.portion := by
      rw [← reader_portion, hread]
      rfl
    have h := Answers.construct hportion ih
    cases hrest : readConstructs grammar.reader c.marks c.rest <;> (rw [hrest] at h; exact h)

theorem Answers.readConstructs_eq {answer : Except ParseError (List Tag)} (h : Answers grammar marks lines answer)
    : readConstructs grammar.reader marks lines = answer := by
  induction h with
  | nil marks => rw [readConstructs]
  | @error marks first following e h =>
    rw [← reader_portion] at h
    rw [readConstructs]
    cases hread : grammar.reader marks first following with
    | error f =>
      rw [hread] at h
      cases h
      rfl
    | ok c =>
      rw [hread] at h
      cases h
  | @construct marks first following portion answer h _ ih =>
    rw [← reader_portion] at h
    rw [readConstructs]
    cases hread : grammar.reader marks first following with
    | error f =>
      rw [hread] at h
      cases h
    | ok c =>
      rw [hread] at h
      cases h
      dsimp only
      rw [show readConstructs grammar.reader c.marks c.rest = answer from ih]
      cases answer <;> rfl

/-! ### Scripts behind scripts -/

/--
The constructs of lines that do not end in a blank line stay what they are when more lines follow.
-/
theorem Answers.append {bareAt : Nat → Bool} {tags : List Tag} {more : List SourceLine}
    {answer : Except ParseError (List Tag)} (h : Answers grammar marks lines (.ok tags))
    (hlast : ∀ l ∈ lines.getLast?, (grammar.form l.text).isBlank = false)
    (hbare : ∀ l ∈ lines, bareAt l.number = (grammar.form l.text).isBare)
    (hmore : Answers grammar (marks + tags.countP (isGenerated bareAt)) more answer)
    : Answers grammar marks (lines ++ more) (answer.map (tags ++ ·)) := by
  generalize hok : Except.ok tags = before at h
  induction h generalizing tags with
  | nil marks =>
    cases hok
    cases answer <;> exact hmore
  | error h => cases hok
  | @construct marks first following portion before h hrest ih =>
    cases before with
    | error e => cases hok
    | ok behind =>
      cases hok
      obtain ⟨inner, rfl, hlocal⟩ := Form.read_local h
      obtain ⟨written, hread, hwritten⟩ := hlocal (portion.rest ++ more)
      obtain ⟨_, hmarks⟩ := Form.read_generated h (hbare first List.mem_cons_self)
      have hlastRest : ∀ l ∈ portion.rest.getLast?, (grammar.form l.text).isBlank = false := by
        intro l hl
        apply hlast
        rw [← List.cons_append, List.getLast?_append, Option.mem_def.1 hl]
        rfl
      have hbareRest : ∀ l ∈ portion.rest, bareAt l.number = (grammar.form l.text).isBare := by
        intro l hl
        exact hbare l (List.mem_cons_of_mem _ (List.mem_append_right _ hl))
      have hsame : written = portion.tags := by
        apply hwritten
        intro hblank
        cases hfollowing : inner ++ portion.rest with
        | nil =>
          -- A blank line is not the last one.
          rw [hfollowing] at hlast
          rw [hlast first rfl] at hblank
          cases hblank
        | cons l following =>
          rw [← List.append_assoc, hfollowing]
          rfl
      rw [List.countP_append, ← Nat.add_assoc, ← hmarks] at hmore
      have hanswer := Answers.construct hread (ih hlastRest hbareRest hmore rfl)
      rw [hsame, ← List.append_assoc] at hanswer
      cases answer with
      | error e => exact hanswer
      | ok others =>
        have hassoc : portion.tags ++ (behind ++ others) = portion.tags ++ behind ++ others :=
          (List.append_assoc _ _ _).symm
        dsimp only [Except.map] at hanswer ⊢
        rw [hassoc] at hanswer
        exact hanswer

/--
Lines put before a script relocate its constructs.
-/
theorem Answers.shift {bareAt : Nat → Bool} {answer : Except ParseError (List Tag)}
    (h : Answers grammar marks lines answer)
    (hbare : ∀ l ∈ lines, bareAt l.number = (grammar.form l.text).isBare) (count more : Nat)
    : ∃ other, Answers grammar (marks + more) (lines.map (SourceLine.shift count)) other ∧
        Relocates bareAt count more answer other := by
  induction h with
  | nil marks => exact ⟨_, .nil _, .ok .nil⟩
  | @error marks first following e h =>
    have hshift := Form.read_shift (grammar.form first.text) marks first following count more
    rw [h] at hshift
    exact ⟨_, .error hshift, .error e⟩
  | @construct marks first following portion answer h _ ih =>
    have hshift := Form.read_shift (grammar.form first.text) marks first following count more
    rw [h] at hshift
    obtain ⟨written, hread, hwritten⟩ := hshift
    obtain ⟨inner, rfl, _⟩ := Form.read_local h
    obtain ⟨hgenerated, _⟩ := Form.read_generated h (hbare first List.mem_cons_self)
    obtain ⟨other, hother, hrelocates⟩ := ih fun l hl => hbare l (List.mem_cons_of_mem _ (List.mem_append_right _ hl))
    refine ⟨_, Answers.construct hread hother, ?_⟩
    cases hrelocates with
    | error e => exact .error e
    | @ok tags others hothers =>
      apply Relocates.ok
      refine List.rel_append ?_ hothers
      apply ((List.forall₂_and_left _ _).2 ⟨hgenerated, hwritten⟩).imp
      rintro tag other ⟨htag, hrelocated⟩
      rw [htag]
      exact hrelocated

/--
A script that does not parse does so on one of its lines, and it parses up to there.
-/
theorem Answers.before_error {e : ParseError} (h : Answers grammar marks lines (.error e))
    : ∃ before l after, lines = before ++ l :: after ∧ e.line = l.number ∧
        ∃ tags, Answers grammar marks before (.ok tags) := by
  generalize herror : Except.error e = answer at h
  induction h with
  | nil marks => cases herror
  | @error marks first following f h =>
    cases herror
    exact ⟨[], first, following, rfl, Form.read_error h, _, .nil marks⟩
  | @construct marks first following portion answer h _ ih =>
    cases answer with
    | ok tags => cases herror
    | error f =>
      cases herror
      obtain ⟨before, l, after, hrest, hline, tags, hbefore⟩ := ih rfl
      obtain ⟨inner, rfl, hlocal⟩ := Form.read_local h
      obtain ⟨written, hread, _⟩ := hlocal before
      refine ⟨first :: (inner ++ before), l, after, ?_, hline, _, Answers.construct hread hbefore⟩
      rw [hrest, List.cons_append, List.append_assoc]

/-! ### Sources behind sources -/

/--
Is there a line of this number in a source that makes a save mark without a name?
-/
def bareAt (grammar : Grammar) (source : String) (number : Nat) : Bool :=
  (sourceLines source)[number - 1]?.any fun l => grammar.isBareMark l.text

theorem bareAt_number {source : String} {l : SourceLine} (h : l ∈ sourceLines source)
    : grammar.bareAt source l.number = (grammar.form l.text).isBare := by
  rw [bareAt, getElem?_of_mem_sourceLines h, isBare_form]
  rfl

theorem Answers.parse_eq {source : String} {answer : Except ParseError (List Tag)}
    (h : Answers grammar 0 (sourceLines source) answer)
    : grammar.parse source = answer.map (· ++ [.stop (lineCount source)]) := by
  have hcount : max (sourceLines source).length 1 = lineCount source := Nat.max_eq_left (lineCount_pos source)
  unfold parse readSource
  dsimp only
  rw [hcount, h.readConstructs_eq]
  cases answer <;> rfl

theorem exists_answer (grammar : Grammar) (source : String)
    : ∃ answer, Answers grammar 0 (sourceLines source) answer ∧
        grammar.parse source = answer.map (· ++ [.stop (lineCount source)]) :=
  ⟨_, answers_readConstructs grammar 0 (sourceLines source), (answers_readConstructs ..).parse_eq⟩

theorem exists_constructs {source : String} {tags : List Tag} (h : grammar.parse source = .ok tags)
    : ∃ constructs, Answers grammar 0 (sourceLines source) (.ok constructs) ∧
        tags = constructs ++ [.stop (lineCount source)] := by
  obtain ⟨answer, hanswer, hparse⟩ := exists_answer grammar source
  rw [hparse] at h
  cases answer with
  | error e => cases h
  | ok constructs =>
    cases h
    exact ⟨constructs, hanswer, rfl⟩

theorem answers_of_parse_error {source : String} {e : ParseError} (h : grammar.parse source = .error e)
    : Answers grammar 0 (sourceLines source) (.error e) := by
  obtain ⟨answer, hanswer, hparse⟩ := exists_answer grammar source
  rw [hparse] at h
  cases answer with
  | error f =>
    cases h
    exact hanswer
  | ok constructs => cases h

theorem exists_parse_firstLines_zero (grammar : Grammar) (source : String)
    : ∃ tags, grammar.parse (firstLines 0 source) = .ok tags := by
  let blank : SourceLine := { number := 1, text := [] }
  have hlines : sourceLines (firstLines 0 source) = [blank] := by
    unfold sourceLines firstLines
    rw [String.toList_ofList]
    rfl
  have hread : (grammar.form blank.text).read 0 blank [] = .ok { tags := [], marks := 0, rest := [] } := by
    cases grammar <;> rfl
  have hanswer := Answers.construct hread (.nil 0)
  rw [← hlines] at hanswer
  exact ⟨_, hanswer.parse_eq⟩

theorem lineCount_append (a b : String) : lineCount (a ++ "\n" ++ b) = lineCount b + lineCount a := by
  rw [lineCount, sourceLines_append, List.length_append, List.length_map, Nat.add_comm]
  rfl

/--
A script behind one that does not end in a blank line parses like it does on its own, but for the line numbers and the
numbers of the save marks.
-/
theorem parse_behind {a : String} (b : String) {tags : List Tag} (ha : grammar.parse a = .ok tags)
    (hlast : ∀ l ∈ (sourceLines a).getLast?, Text.trim l.text ≠ [])
    : ∃ constructs answer, tags = constructs ++ [.stop (lineCount a)] ∧
        grammar.parse (a ++ "\n" ++ b) = answer.map (constructs ++ ·) ∧
        Relocates (grammar.bareAt b) (lineCount a) (constructs.countP (isGenerated (grammar.bareAt a)))
          (grammar.parse b) answer := by
  obtain ⟨constructs, hconstructs, rfl⟩ := exists_constructs ha
  have hvisible : ∀ l ∈ (sourceLines a).getLast?, (grammar.form l.text).isBlank = false := by
    intro l hl
    rw [isBlank_form, List.isEmpty_eq_false_iff]
    exact hlast l hl
  obtain ⟨alone, halone, hb⟩ := exists_answer grammar b
  have hbareB : ∀ l ∈ sourceLines b, grammar.bareAt b l.number = (grammar.form l.text).isBare := fun _ => bareAt_number
  obtain ⟨other, hother, hrelocates⟩ := halone.shift hbareB (lineCount a)
    (constructs.countP (isGenerated (grammar.bareAt a)))
  have hboth := hconstructs.append hvisible (fun _ => bareAt_number) hother
  rw [← sourceLines_append] at hboth
  refine ⟨constructs, other.map (· ++ [.stop (lineCount b + lineCount a)]), rfl, ?_, ?_⟩
  . rw [hboth.parse_eq, lineCount_append]
    cases other with
    | error e => rfl
    | ok others => exact congrArg Except.ok (List.append_assoc _ _ _)
  . rw [hb]
    cases hrelocates with
    | error e => exact .error e
    | ok h => exact .ok (List.rel_append h (.cons (relocated_onLine _ _ _ (.stop 0)) .nil))

/--
A script that does not parse names one of its lines, and the lines before that one parse.
-/
theorem parse_before_error {source : String} {e : ParseError} (he : grammar.parse source = .error e)
    : 1 ≤ e.line ∧ e.line ≤ lineCount source ∧ ∃ tags, grammar.parse (firstLines (e.line - 1) source) = .ok tags := by
  obtain ⟨before, l, after, hlines, hline, tags, hbefore⟩ := (answers_of_parse_error he).before_error
  have hl : (sourceLines source)[before.length]? = some l := by
    rw [hlines]
    simp
  have hnumber : l.number = 1 + before.length := SourceLine.number_of_getElem? hl
  have hcount : lineCount source = before.length + (1 + after.length) := by
    rw [lineCount, hlines, List.length_append, List.length_cons, Nat.add_comm after.length]
  refine ⟨by omega, by omega, ?_⟩
  rw [hline, hnumber, Nat.add_sub_cancel_left]
  by_cases hempty : before.length = 0
  . rw [hempty]
    exact exists_parse_firstLines_zero grammar source
  . have hfirst : sourceLines (firstLines before.length source) = before := by
      rw [sourceLines_firstLines hempty, hlines, List.take_left]
    rw [← hfirst] at hbefore
    exact ⟨_, hbefore.parse_eq⟩

/--
Both grammars are compositional: scripts parse side by side as they do alone, and a script parses up to its error.
-/
theorem parse_compositional (grammar : Grammar)
    : (∀ a b tags, grammar.parse a = .ok tags → (∀ l ∈ (sourceLines a).getLast?, Text.trim l.text ≠ []) →
        ∃ constructs answer, tags = constructs ++ [.stop (lineCount a)] ∧
          grammar.parse (a ++ "\n" ++ b) = answer.map (constructs ++ ·) ∧
          Relocates (grammar.bareAt b) (lineCount a) (constructs.countP (isGenerated (grammar.bareAt a)))
            (grammar.parse b) answer) ∧
      (∀ source e, grammar.parse source = .error e →
        1 ≤ e.line ∧ e.line ≤ lineCount source ∧ ∃ tags, grammar.parse (firstLines (e.line - 1) source) = .ok tags) :=
  ⟨fun _ b _ ha hlast => parse_behind b ha hlast, fun _ _ he => parse_before_error he⟩

section Sample

/-!
The first script ends with the delimiter of a block, and in the block, a line looks like a save mark. The number of the
first mark behind it is one.
-/

def sampleStart : String := "~first\n---\n~\n---"

def sampleTags : List Tag := [
  .saveMark (Construct.generatedMark 0) "first" "first" 1,
  .script "~" false 2,
  .stop 4
]

set_option maxRecDepth 4000 in
theorem parse_sampleStart : Grammar.line.parse sampleStart = .ok sampleTags := by
  cbv

theorem last_sampleStart : ∀ l ∈ (sourceLines sampleStart).getLast?, Text.trim l.text ≠ [] := by
  decide +kernel

theorem parse_sampleFailing : Grammar.line.parse "hi\n*" = .error { line := 2, fault := .missingLabelName } := by
  cbv

theorem sample_compositional
    : (∃ constructs answer, sampleTags = constructs ++ [.stop (lineCount sampleStart)] ∧
        Grammar.line.parse (sampleStart ++ "\n" ++ "~second") = answer.map (constructs ++ ·) ∧
        Relocates (Grammar.line.bareAt "~second") (lineCount sampleStart)
          (constructs.countP (isGenerated (Grammar.line.bareAt sampleStart)))
          (Grammar.line.parse "~second") answer) ∧
      1 ≤ 2 ∧ 2 ≤ lineCount "hi\n*" ∧ ∃ tags, Grammar.line.parse (firstLines (2 - 1) "hi\n*") = .ok tags := by
  obtain ⟨hbehind, hbefore⟩ := parse_compositional .line
  constructor
  . exact hbehind sampleStart "~second" sampleTags parse_sampleStart last_sampleStart
  . exact hbefore "hi\n*" { line := 2, fault := .missingLabelName } parse_sampleFailing

end Sample

end Grammar
end VisualNovel
