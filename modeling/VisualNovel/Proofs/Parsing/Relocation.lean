import Mathlib.Data.List.Forall2
import VisualNovel.Proofs.Parsing.Form
import VisualNovel.Proofs.Parsing.Lines

/-!
This module contains what becomes of a construct when other lines stand before it or behind it: before it, they change
the line number and the number in the name of a save mark, and behind it, they change nothing but a blank line at the end.
-/

namespace VisualNovel

/--
What becomes of a tag when lines are put before it: its line number grows, and so does the number in a generated name.
-/
structure Relocated (generated : Bool) (lines marks : Nat) (tag other : Tag) : Prop where
  name : other.name = tag.name
  line : other.line = tag.line + lines
  written : generated = false → other.values = tag.values
  generated : generated = true → ∃ i, tag.string? "name" = some (Construct.generatedMark i) ∧
    other.values = Fields.insert "name" (.string (Construct.generatedMark (i + marks))) tag.values

theorem relocated_onLine (lines marks number : Nat) (tag : Tag)
    : Relocated false lines marks (tag.onLine number) (tag.onLine (number + lines)) where
  name := rfl
  line := rfl
  written _ := rfl
  generated := nofun

theorem relocated_saveMark (lines marks number : Nat) (name comment body : String)
    : Relocated false lines marks (.saveMark name comment body number) (.saveMark name comment body (number + lines)) :=
  relocated_onLine lines marks number (.saveMark name comment body 0)

theorem relocated_generatedMark (lines marks i number : Nat) (comment body : String)
    : Relocated true lines marks
        (.saveMark (Construct.generatedMark i) comment body number)
        (.saveMark (Construct.generatedMark (i + marks)) comment body (number + lines)) where
  name := rfl
  line := rfl
  written := nofun
  generated _ := ⟨i, rfl, rfl⟩

namespace Grammar

/-! ### Save marks without a name -/

def Form.isBlank : Form → Bool
  | .blank => true
  | _ => false

/--
Is a line of this form a save mark whose name is generated?
-/
def Form.isBare : Form → Bool
  | .mark written => (Construct.splitBar? (Text.trim written)).isNone
  | _ => false

def markMarker : Grammar → Char
  | .line => '~'
  | .bracket => '|'

/--
Does a line make a save mark whose name is generated: does it start with the marker, with no bar behind it?
-/
def isBareMark (grammar : Grammar) (text : List Char) : Bool :=
  match Text.trim text with
  | [] => false
  | c :: written => c = grammar.markMarker && !written.contains '|'

/--
Has the name of a tag been generated, given the lines of the save marks without a name?
-/
def isGenerated (bareAt : Nat → Bool) (tag : Tag) : Bool :=
  tag.directive? = some .saveMark && bareAt tag.line

theorem splitBar?_eq_none_iff (cs : List Char) : Construct.splitBar? cs = none ↔ '|' ∉ cs := by
  fun_induction Construct.splitBar? cs with
  | case1 => simp
  | case2 => simp
  | case3 c cs hc ih =>
    have hne : '|' ≠ c := fun h => hc h.symm
    simp [ih, hne]

theorem mem_trim_iff {c : Char} (hc : Text.isBlank c = false) (cs : List Char) : c ∈ Text.trim cs ↔ c ∈ cs := by
  have hdrop (cs : List Char) : c ∈ cs.dropWhile Text.isBlank ↔ c ∈ cs := by
    induction cs with
    | nil => simp
    | cons d cs ih =>
      by_cases hd : Text.isBlank d
      . have hne : c ≠ d := by
          rintro rfl
          rw [hc] at hd
          cases hd
        simp [List.dropWhile_cons_of_pos hd, ih, hne]
      . rw [List.dropWhile_cons_of_neg hd]
  rw [Text.trim, Text.trimEnd, List.mem_reverse, hdrop, List.mem_reverse, Text.trimStart, hdrop]

theorem isBare_mark (written : List Char) : (Form.mark written).isBare = !written.contains '|' := by
  rw [Form.isBare, Bool.eq_iff_iff, Option.isNone_iff_eq_none, splitBar?_eq_none_iff, mem_trim_iff (by decide)]
  simp

theorem isBare_labelForm (written : List Char) : (labelForm written).isBare = false := by
  unfold labelForm
  split <;> rfl

theorem isBlank_labelForm (written : List Char) : (labelForm written).isBlank = false := by
  unfold labelForm
  split <;> rfl

namespace Line

theorem isBare_commandForm (written : List Char) : (commandForm written).isBare = false := by
  unfold commandForm
  split
  . rfl
  . dsimp only
    split <;> rfl

theorem isBlank_commandForm (written : List Char) : (commandForm written).isBlank = false := by
  unfold commandForm
  split
  . rfl
  . dsimp only
    split <;> rfl

theorem isBare_form (text : List Char) : (form text).isBare = isBareMark .line text := by
  unfold form isBareMark
  generalize Text.trim text = trimmed
  split
  . rfl
  . rfl
  . exact isBare_commandForm _
  . exact isBare_labelForm _
  . exact isBare_mark _
  . split <;> rfl
  . rfl
  . next hmark _ _ =>
    cases trimmed with
    | nil => rfl
    | cons c written =>
      have hne : c ≠ '~' := fun h => hmark written (h ▸ rfl)
      simp [hne, markMarker, Form.isBare]

theorem isBlank_form (text : List Char) : (form text).isBlank = (Text.trim text).isEmpty := by
  unfold form
  generalize Text.trim text = trimmed
  split
  . rfl
  . rfl
  . exact isBlank_commandForm _
  . exact isBlank_labelForm _
  . rfl
  . split <;> rfl
  . rfl
  . next hnil _ _ _ _ _ _ =>
    cases trimmed with
    | nil => exact (hnil rfl).elim
    | cons c written => rfl

end Line

namespace Bracket

theorem isBare_form (text : List Char) : (form text).isBare = isBareMark .bracket text := by
  unfold form isBareMark
  generalize Text.trim text = trimmed
  split
  . rfl
  . rfl
  . exact isBare_labelForm _
  . exact isBare_mark _
  . next hmark =>
    cases trimmed with
    | nil => split <;> rfl
    | cons c written =>
      have hne : c ≠ '|' := fun h => hmark written (h ▸ rfl)
      dsimp only
      rw [markMarker, decide_eq_false hne]
      split <;> rfl

theorem isBlank_form (text : List Char) : (form text).isBlank = (Text.trim text).isEmpty := by
  unfold form
  generalize Text.trim text = trimmed
  split
  . rfl
  . rfl
  . exact isBlank_labelForm _
  . rfl
  . next hnil _ _ _ =>
    cases trimmed with
    | nil => exact (hnil rfl).elim
    | cons c written => split <;> rfl

end Bracket

/--
The lines that make save marks without a name are told by their form.
-/
theorem isBare_form (grammar : Grammar) (text : List Char) : (grammar.form text).isBare = grammar.isBareMark text := by
  cases grammar with
  | line => exact Line.isBare_form text
  | bracket => exact Bracket.isBare_form text

theorem isBlank_form (grammar : Grammar) (text : List Char)
    : (grammar.form text).isBlank = (Text.trim text).isEmpty := by
  cases grammar with
  | line => exact Line.isBlank_form text
  | bracket => exact Bracket.isBlank_form text

/-! ### Lines that are looked for -/

theorem eq_append_of_splitThrough? {closes : List Char → Bool} {lines inner rest : List SourceLine} {closing : SourceLine}
    (h : splitThrough? closes lines = some (inner, closing, rest)) : lines = inner ++ closing :: rest := by
  fun_induction splitThrough? closes lines generalizing inner with
  | case1 => cases h
  | case2 l lines hcloses =>
    cases h
    rfl
  | case3 l lines hcloses ih =>
    obtain ⟨split, hsplit, hinner⟩ := Option.map_eq_some_iff.1 h
    cases hinner
    rw [ih hsplit, List.cons_append]

theorem splitThrough?_local {closes : List Char → Bool} {lines inner rest : List SourceLine} {closing : SourceLine}
    (h : splitThrough? closes lines = some (inner, closing, rest)) (other : List SourceLine)
    : splitThrough? closes (inner ++ closing :: other) = some (inner, closing, other) := by
  fun_induction splitThrough? closes lines generalizing inner with
  | case1 => cases h
  | case2 l lines hcloses =>
    cases h
    rw [List.nil_append, splitThrough?, if_pos hcloses]
  | case3 l lines hcloses ih =>
    obtain ⟨split, hsplit, hinner⟩ := Option.map_eq_some_iff.1 h
    cases hinner
    rw [List.cons_append, splitThrough?, if_neg hcloses, ih hsplit, Option.map_some]

theorem splitThrough?_shift (closes : List Char → Bool) (count : Nat) (lines : List SourceLine)
    : splitThrough? closes (lines.map (SourceLine.shift count))
        =
      (splitThrough? closes lines).map fun (inner, closing, rest) =>
        (inner.map (SourceLine.shift count), closing.shift count, rest.map (SourceLine.shift count)) := by
  induction lines with
  | nil => rfl
  | cons l lines ih =>
    have htext : (l.shift count).text = l.text := rfl
    rw [List.map_cons, splitThrough?, splitThrough?, htext, ih]
    split
    . rfl
    . cases splitThrough? closes lines <;> rfl

/-! ### What a form reads -/

namespace Form

variable {form : Form} {marks : Nat} {first : SourceLine} {following : List SourceLine} {portion : Portion}

theorem portionOf_eq_ok {tags : Except ParseFault (List Tag)} {rest : List SourceLine}
    (h : portionOf tags marks first rest = .ok portion)
    : ∃ written, tags = .ok written ∧ portion = { tags := written.map (Tag.onLine first.number), marks, rest } := by
  cases tags with
  | error fault => cases h
  | ok written =>
    cases h
    exact ⟨written, rfl, rfl⟩

theorem portionOf_eq_error {tags : Except ParseFault (List Tag)} {rest : List SourceLine} {e : ParseError}
    (h : portionOf tags marks first rest = .error e) : e.line = first.number := by
  cases tags with
  | error fault =>
    cases h
    rfl
  | ok written => cases h

/--
A construct that does not parse is reported with its first line.
-/
theorem read_error {e : ParseError} (h : form.read marks first following = .error e) : e.line = first.number := by
  cases form with
  | blank => cases h
  | mark written => cases h
  | alone tags => exact portionOf_eq_error h
  | through closes unclosed tags =>
    unfold read at h
    dsimp only at h
    split at h
    . cases h
      rfl
    . exact portionOf_eq_error h

theorem read_mark (marks : Nat) (first : SourceLine) (following : List SourceLine) (written : List Char)
    : ∃ tag : Tag, (mark written).read marks first following
          = .ok { tags := [tag], marks := marks + (mark written).isBare.toNat, rest := following } ∧
        tag.line = first.number ∧ tag.directive? = some .saveMark := by
  simp only [read, Construct.saveMark, isBare]
  cases Construct.splitBar? (Text.trim written) <;> exact ⟨_, rfl, rfl, rfl⟩

/--
The tags of a construct are on its first line.
-/
theorem read_line (h : form.read marks first following = .ok portion) : ∀ tag ∈ portion.tags, tag.line = first.number := by
  have honLine (written : List Tag) : ∀ tag ∈ written.map (Tag.onLine first.number), tag.line = first.number := by
    intro tag htag
    obtain ⟨origin, _, rfl⟩ := List.mem_map.1 htag
    rfl
  intro tag htag
  cases form with
  | blank =>
    cases h
    change tag ∈ (if following.isEmpty then [] else [Tag.lineBreak first.number]) at htag
    split at htag
    . cases htag
    . rw [List.mem_singleton.1 htag]
      rfl
  | mark written =>
    obtain ⟨made, hread, hline, _⟩ := read_mark marks first following written
    rw [hread] at h
    cases h
    rw [List.mem_singleton.1 htag, hline]
  | alone tags =>
    obtain ⟨written, _, rfl⟩ := portionOf_eq_ok h
    exact honLine written tag htag
  | through closes unclosed tags =>
    unfold read at h
    dsimp only at h
    split at h
    . cases h
    . obtain ⟨written, _, rfl⟩ := portionOf_eq_ok h
      exact honLine written tag htag

theorem read_marks (h : form.read marks first following = .ok portion) (hbare : form.isBare = false)
    : portion.marks = marks := by
  cases form with
  | blank =>
    cases h
    rfl
  | mark written =>
    obtain ⟨_, hread, _⟩ := read_mark marks first following written
    rw [hread, hbare] at h
    cases h
    rfl
  | alone tags =>
    obtain ⟨written, _, rfl⟩ := portionOf_eq_ok h
    rfl
  | through closes unclosed tags =>
    unfold read at h
    dsimp only at h
    split at h
    . cases h
    . obtain ⟨written, _, rfl⟩ := portionOf_eq_ok h
      rfl

/--
Only a save mark without a name makes a tag whose name is generated, and it is counted.
-/
theorem read_generated {bareAt : Nat → Bool} (h : form.read marks first following = .ok portion)
    (hbare : bareAt first.number = form.isBare)
    : (∀ tag ∈ portion.tags, isGenerated bareAt tag = form.isBare) ∧
        portion.marks = marks + portion.tags.countP (isGenerated bareAt) := by
  cases hform : form.isBare with
  | false =>
    have hnone : ∀ tag ∈ portion.tags, isGenerated bareAt tag = false := by
      intro tag htag
      rw [isGenerated, read_line h tag htag, hbare, hform, Bool.and_false]
    have hcount : portion.tags.countP (isGenerated bareAt) = 0 := by
      apply List.countP_eq_zero.2
      intro tag htag
      rw [hnone tag htag]
      exact Bool.false_ne_true
    exact ⟨hnone, by rw [read_marks h hform, hcount, Nat.add_zero]⟩
  | true =>
    cases form with
    | mark written =>
      obtain ⟨tag, hread, hline, hdirective⟩ := read_mark marks first following written
      rw [hread, hform] at h
      cases h
      have htag : isGenerated bareAt tag = true := by
        rw [isGenerated, hline, hbare, hform, hdirective]
        rfl
      constructor
      . intro other hother
        rw [List.mem_singleton.1 hother, htag]
      . rw [List.countP_singleton, htag]
        rfl
    | _ => cases hform

/--
A construct ends where it ends whatever lines stand behind it. Only a blank line makes other tags at the end of a script.
-/
theorem read_local (h : form.read marks first following = .ok portion)
    : ∃ inner, following = inner ++ portion.rest ∧
        ∀ rest, ∃ tags, form.read marks first (inner ++ rest) = .ok { portion with tags, rest } ∧
          ((form.isBlank = true → (inner ++ rest).isEmpty = following.isEmpty) → tags = portion.tags) := by
  cases form with
  | blank =>
    cases h
    refine ⟨[], rfl, fun rest => ⟨_, rfl, fun hrest => ?_⟩⟩
    exact congrArg (fun isEnd => if isEnd then [] else [Tag.lineBreak first.number]) (hrest rfl)
  | mark written =>
    unfold read Construct.saveMark at h ⊢
    dsimp only at h ⊢
    split at h <;> (cases h; exact ⟨[], rfl, fun rest => ⟨_, rfl, fun _ => rfl⟩⟩)
  | alone tags =>
    obtain ⟨written, rfl, rfl⟩ := portionOf_eq_ok h
    exact ⟨[], rfl, fun rest => ⟨_, rfl, fun _ => rfl⟩⟩
  | through closes unclosed tags =>
    unfold read at h
    dsimp only at h
    split at h
    . cases h
    . next inner closing rest hsplit =>
      obtain ⟨written, htags, rfl⟩ := portionOf_eq_ok h
      refine ⟨inner ++ [closing], ?_, fun other => ⟨_, ?_, fun _ => rfl⟩⟩
      . rw [eq_append_of_splitThrough? hsplit, List.append_assoc, List.singleton_append]
      . unfold read
        dsimp only
        rw [List.append_assoc, List.singleton_append, splitThrough?_local hsplit other]
        dsimp only
        rw [htags, portionOf]

theorem portionOf_shift (lines more : Nat) (tags : Except ParseFault (List Tag)) (rest : List SourceLine)
    : match portionOf tags marks first rest with
      | .error e =>
        portionOf tags (marks + more) (first.shift lines) (rest.map (SourceLine.shift lines))
          = .error { e with line := e.line + lines }
      | .ok portion =>
        ∃ written,
          portionOf tags (marks + more) (first.shift lines) (rest.map (SourceLine.shift lines))
            = .ok { tags := written, marks := portion.marks + more, rest := portion.rest.map (SourceLine.shift lines) } ∧
          List.Forall₂ (Relocated false lines more) portion.tags written := by
  cases tags with
  | error fault => rfl
  | ok written =>
    refine ⟨_, rfl, ?_⟩
    apply List.forall₂_map_left_iff.2
    apply List.forall₂_map_right_iff.2
    exact List.forall₂_same.2 fun tag _ => relocated_onLine lines more first.number tag

/--
A construct further down, with more save marks before it, is the same one but for its line and the number of its mark.
-/
theorem read_shift (form : Form) (marks : Nat) (first : SourceLine) (following : List SourceLine) (lines more : Nat)
    : match form.read marks first following with
      | .error e =>
        form.read (marks + more) (first.shift lines) (following.map (SourceLine.shift lines))
          = .error { e with line := e.line + lines }
      | .ok portion =>
        ∃ written,
          form.read (marks + more) (first.shift lines) (following.map (SourceLine.shift lines))
            = .ok { tags := written, marks := portion.marks + more, rest := portion.rest.map (SourceLine.shift lines) } ∧
          List.Forall₂ (Relocated form.isBare lines more) portion.tags written := by
  cases form with
  | blank =>
    refine ⟨_, rfl, ?_⟩
    cases following with
    | nil => exact .nil
    | cons l following => exact .cons (relocated_onLine lines more first.number (Tag.lineBreak 0)) .nil
  | mark written =>
    unfold read Construct.saveMark isBare
    dsimp only
    cases Construct.splitBar? (Text.trim written) with
    | some parts => exact ⟨_, rfl, .cons (relocated_saveMark ..) .nil⟩
    | none =>
      refine ⟨_, ?_, .cons (relocated_generatedMark ..) .nil⟩
      rw [Nat.add_right_comm]
      rfl
  | alone tags => exact portionOf_shift lines more tags following
  | through closes unclosed tags =>
    unfold read
    dsimp only
    rw [splitThrough?_shift]
    cases splitThrough? closes following with
    | none => rfl
    | some split =>
      obtain ⟨inner, closing, rest⟩ := split
      have htexts : (inner.map (SourceLine.shift lines)).map SourceLine.text = inner.map SourceLine.text := by
        rw [List.map_map]
        rfl
      dsimp only [Option.map_some]
      rw [htexts]
      exact portionOf_shift lines more (tags (inner.map SourceLine.text) closing.text) rest

end Form

end Grammar
end VisualNovel
