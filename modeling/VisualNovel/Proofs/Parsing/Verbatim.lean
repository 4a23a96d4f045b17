import VisualNovel.Proofs.Literal
import VisualNovel.Proofs.Parsing.Agreement
import VisualNovel.Proofs.Recognizing.Blanks

/-!
This module contains that nothing of a plain text is lost when it is parsed: the tags of a script that holds nothing but
text show the text, line by line and with all of its blanks, however the lines end.
-/

namespace VisualNovel

/--
What a player sees of a tag: a character, the end of a line, or nothing.
-/
def Tag.shown (tag : Tag) : List Char :=
  match tag.directive? with
  | some .char => ((tag.string? "text").getD "").toList
  | some .lineBreak => ['\n']
  | _ => []

theorem Tag.shown_ofChar (c : Char) (line : Nat) : (Tag.ofChar c line).shown = [c] := by
  have hdirective : (Tag.ofChar c line).directive? = some .char := Directive.ofName?_name .char
  unfold Tag.shown
  rw [hdirective]
  simp [string?, value?, ofChar, make, Fields.contains, Fields.find?, bodyKey, Value.string?]

/--
What a player sees of lines of text. A blank line is shown as the end of a line, and as nothing where it is the last one.
-/
def shownLines : List (List Char) → List Char
  | [] => []
  | text :: texts =>
    if Text.trim text = [] then
      (if texts = [] then [] else ['\n']) ++ shownLines texts
    else
      text ++ '\n' :: shownLines texts

def SourceLine.addReturns (cs : List Char) : List Char :=
  cs.flatMap fun c => if c = '\n' then ['\r', '\n'] else [c]

/--
The same source with a carriage return before each newline.
-/
def withReturns (source : String) : String :=
  String.ofList (SourceLine.addReturns source.toList)

namespace Grammar

/--
A line that is blank, or that nothing tells from text.
-/
structure Plain (grammar : Grammar) (text : List Char) : Prop where
  unmarked : ∀ c ∈ (Text.trim (grammar.written text)).head?, c ∉ grammar.markers
  notDelimiter : Text.trim (grammar.written text) ≠ Construct.delimiter

instance (grammar : Grammar) (text : List Char) : Decidable (grammar.Plain text) :=
  decidable_of_iff
    ((∀ c ∈ (Text.trim (grammar.written text)).head?, c ∉ grammar.markers) ∧
      Text.trim (grammar.written text) ≠ Construct.delimiter)
    ⟨fun h => ⟨h.1, h.2⟩, fun h => ⟨h.unmarked, h.notDelimiter⟩⟩

end Grammar

/-! ### The ends of lines -/

namespace SourceLine

theorem dropReturn_cons {c : Char} (hc : c ≠ '\r') (cs : List Char) : dropReturn (c :: cs) = c :: dropReturn cs :=
  dropReturn_append_cons hc [] cs

theorem map_dropReturn_splitAt {cs : List Char} (h : '\r' ∉ cs)
    : (Path.splitAt '\n' cs).map dropReturn = Path.splitAt '\n' cs := by
  induction cs with
  | nil => rfl
  | cons c cs ih =>
    rw [List.mem_cons, not_or] at h
    by_cases hc : c = '\n'
    . rw [Path.splitAt, if_pos hc, List.map_cons, ih h.2]
      rfl
    . obtain ⟨part, parts, hparts⟩ := List.exists_cons_of_ne_nil (Path.splitAt_ne_nil '\n' cs)
      have hrest := ih h.2
      rw [hparts, List.map_cons, List.cons.injEq] at hrest
      rw [Path.splitAt_cons_of_ne '\n' hc hparts, List.map_cons, dropReturn_cons (Ne.symm h.1), hrest.1, hrest.2]

theorem addReturns_newline {c : Char} (hc : c = '\n') (cs : List Char)
    : addReturns (c :: cs) = '\r' :: '\n' :: addReturns cs := by
  rw [addReturns, List.flatMap_cons, if_pos hc]
  rfl

theorem addReturns_letter {c : Char} (hc : c ≠ '\n') (cs : List Char) : addReturns (c :: cs) = c :: addReturns cs := by
  rw [addReturns, List.flatMap_cons, if_neg hc]
  rfl

/--
A carriage return at the end of a line does not belong to it.
-/
theorem map_dropReturn_splitAt_addReturns {cs : List Char} (h : '\r' ∉ cs)
    : (Path.splitAt '\n' (addReturns cs)).map dropReturn = (Path.splitAt '\n' cs).map dropReturn := by
  induction cs with
  | nil => rfl
  | cons c cs ih =>
    rw [List.mem_cons, not_or] at h
    by_cases hc : c = '\n'
    . rw [addReturns_newline hc, hc, ← List.singleton_append, Path.splitAt_append, List.map_append, ih h.2]
      rfl
    -- A letter belongs to the first of the lines, and both sources have one.
    . obtain ⟨part, parts, hparts⟩ := List.exists_cons_of_ne_nil (Path.splitAt_ne_nil '\n' cs)
      obtain ⟨other, others, hothers⟩ := List.exists_cons_of_ne_nil (Path.splitAt_ne_nil '\n' (addReturns cs))
      have hrest := ih h.2
      rw [hparts, hothers, List.map_cons, List.map_cons, List.cons.injEq] at hrest
      rw [addReturns_letter hc, Path.splitAt_cons_of_ne '\n' hc hparts,
        Path.splitAt_cons_of_ne '\n' hc hothers, List.map_cons, List.map_cons, dropReturn_cons (Ne.symm h.1),
        dropReturn_cons (Ne.symm h.1), hrest.1, hrest.2]

end SourceLine

theorem sourceLines_withReturns {source : String} (h : '\r' ∉ source.toList)
    : sourceLines (withReturns source) = sourceLines source := by
  unfold sourceLines withReturns
  rw [String.toList_ofList, SourceLine.map_dropReturn_splitAt_addReturns h]

theorem sourceLines_of_no_return {source : String} (h : '\r' ∉ source.toList)
    : sourceLines source = SourceLine.enumerate 1 (rawLines source) := by
  unfold sourceLines rawLines
  rw [SourceLine.map_dropReturn_splitAt h]

/-! ### Lines of text -/

theorem Text.trim_eq_nil_iff {text : List Char} : Text.trim text = [] ↔ ∀ c ∈ text, Text.isBlank c := by
  constructor
  . intro h c hc
    obtain ⟨before, behind, htext, hbefore, hbehind⟩ := Text.exists_trim text
    rw [h, List.nil_append] at htext
    rw [htext] at hc
    obtain hc | hc := List.mem_append.1 hc
    . exact hbefore c hc
    . exact hbehind c hc
  . intro h
    have htrim := @Text.trim_of_margins text [] [] h (by simp) (by simp) (by simp)
    rw [List.append_nil, List.append_nil] at htrim
    exact htrim

namespace Grammar

variable {grammar : Grammar}

theorem Bracket.mem_escape_iff {c : Char} {cs : List Char} : c ∈ Bracket.escape cs ↔ c ∈ cs := by
  induction cs with
  | nil => rfl
  | cons d cs ih =>
    rw [Bracket.escape]
    split
    . next hd => simp [ih, hd]
    . simp [ih]

theorem trim_written_eq_nil_iff {text : List Char} : Text.trim (grammar.written text) = [] ↔ Text.trim text = [] := by
  rw [Text.trim_eq_nil_iff, Text.trim_eq_nil_iff]
  cases grammar with
  | line => rfl
  | bracket =>
    unfold written
    simp only [Bracket.mem_escape_iff]

theorem read_blank {first : SourceLine} (h : first.trimmed = []) (marks : Nat) (following : List SourceLine)
    : grammar.reader marks first following = .ok (.blank marks first following) := by
  cases grammar with
  | line =>
    change Line.read marks first following = _
    unfold Line.read
    rw [h]
  | bracket =>
    change Bracket.read marks first following = _
    unfold Bracket.read
    rw [h]

/--
The tags of plain text, with the number of its first line.
-/
def plainTags (number : Nat) : List (List Char) → List Tag
  | [] => []
  | text :: texts =>
    if Text.trim text = [] then
      (if texts = [] then [] else [.lineBreak number]) ++ plainTags (number + 1) texts
    else
      text.map (Tag.ofChar · number) ++ .lineBreak number :: plainTags (number + 1) texts

theorem readConstructs_plain {texts : List (List Char)} (h : ∀ text ∈ texts, grammar.Plain text) (number marks : Nat)
    : readConstructs grammar.reader marks (SourceLine.enumerate number (texts.map grammar.written))
        =
      .ok (plainTags number texts) := by
  induction texts generalizing number with
  | nil =>
    rw [List.map_nil, SourceLine.enumerate, readConstructs]
    rfl
  | cons text texts ih =>
    have hplain := h text List.mem_cons_self
    have hrest := ih (fun text htext => h text (List.mem_cons_of_mem _ htext)) (number + 1)
    rw [List.map_cons, SourceLine.enumerate, plainTags]
    split
    . next hblank =>
      have htrimmed : SourceLine.trimmed { number, text := grammar.written text } = [] :=
        trim_written_eq_nil_iff.2 hblank
      rw [readConstructs, read_blank htrimmed]
      dsimp only [Construct.blank, Construct.single]
      rw [hrest]
      -- The line break of a blank line is left out where no line follows.
      cases texts <;> rfl
    . next hvisible =>
      have hspells : grammar.Spells { number, text := grammar.written text } text :=
        ⟨rfl, fun hblank => hvisible (trim_written_eq_nil_iff.1 hblank), hplain.unmarked, hplain.notDelimiter⟩
      rw [readConstructs, hspells.read]
      dsimp only [Construct.single]
      rw [hrest]
      exact congrArg Except.ok (List.append_assoc _ _ _)

theorem shown_plainTags (number : Nat) (texts : List (List Char))
    : (plainTags number texts).flatMap Tag.shown = shownLines texts := by
  have hchars (number : Nat) (text : List Char) : (text.map (Tag.ofChar · number)).flatMap Tag.shown = text := by
    induction text with
    | nil => rfl
    | cons c text ih =>
      rw [List.map_cons, List.flatMap_cons, ih, Tag.shown_ofChar, List.singleton_append]
  induction texts generalizing number with
  | nil => rfl
  | cons text texts ih =>
    rw [plainTags, shownLines]
    split
    . rw [List.flatMap_append, ih]
      split <;> rfl
    . rw [List.flatMap_append, List.flatMap_cons, hchars, ih]
      rfl

/--
A script of plain text parses, its tags show every line as it is, and they are the same with the other ends of lines.
-/
theorem parse_plain (grammar : Grammar) {source : String} {texts : List (List Char)} (hreturns : '\r' ∉ source.toList)
    (hlines : rawLines source = texts.map grammar.written) (hplain : ∀ text ∈ texts, grammar.Plain text)
    : ∃ tags, grammar.parse source = .ok tags ∧ tags.flatMap Tag.shown = shownLines texts ∧
        grammar.parse (withReturns source) = .ok tags := by
  have hparse : grammar.parse source = .ok (plainTags 1 texts ++ [.stop (max (sourceLines source).length 1)]) := by
    unfold parse readSource
    dsimp only
    rw [sourceLines_of_no_return hreturns, hlines, readConstructs_plain hplain]
    rfl
  have hsame : grammar.parse (withReturns source) = grammar.parse source := by
    unfold parse readSource
    rw [sourceLines_withReturns hreturns]
  refine ⟨_, hparse, ?_, hsame.trans hparse⟩
  rw [List.flatMap_append, shown_plainTags]
  exact List.append_nil _

/--
Text with brackets between blanks, and behind a blank line an indented one.
-/
def sampleText : List (List Char) := ["  a[0] ".toList, " ".toList, "\t-".toList, []]

theorem parse_sampleText
    : '\r' ∉ "  a[[0] \n \n\t-\n".toList ∧
        rawLines "  a[[0] \n \n\t-\n" = sampleText.map Grammar.bracket.written ∧
        (∀ text ∈ sampleText, Grammar.bracket.Plain text) ∧
        ∃ tags, Grammar.bracket.parse "  a[[0] \n \n\t-\n" = .ok tags ∧
          tags.flatMap Tag.shown = "  a[0] \n\n\t-\n".toList ∧
          Grammar.bracket.parse "  a[[0] \r\n \r\n\t-\r\n" = .ok tags := by
  have hreturns : '\r' ∉ "  a[[0] \n \n\t-\n".toList := by decide
  have hlines : rawLines "  a[[0] \n \n\t-\n" = sampleText.map Grammar.bracket.written := by decide
  have hplain : ∀ text ∈ sampleText, Grammar.bracket.Plain text := by decide
  exact ⟨hreturns, hlines, hplain, parse_plain .bracket hreturns hlines hplain⟩

end Grammar
end VisualNovel
