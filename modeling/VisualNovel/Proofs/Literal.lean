import VisualNovel.Grammar.Parser

/-!
This module contains the lines of literal text in both grammars, and the tags that they are read as.
-/

namespace VisualNovel
namespace Grammar

def markers : Grammar → List Char
  | .line => ['#', ';', '*', '~', '-', '=']
  | .bracket => [';', '*', '|']

def Bracket.escape : List Char → List Char
  | [] => []
  | c :: cs => if c = '[' then '[' :: '[' :: escape cs else c :: escape cs

/--
How text is written. In the bracket grammar, an opening bracket is written twice.
-/
def written : Grammar → List Char → List Char
  | .line, cs => cs
  | .bracket, cs => Bracket.escape cs

/--
A line that holds nothing but text.
-/
structure Spells (grammar : Grammar) (l : SourceLine) (cs : List Char) : Prop where
  text : l.text = grammar.written cs
  visible : l.trimmed ≠ []
  unmarked : ∀ c, l.trimmed.head? = some c → c ∉ grammar.markers
  notDelimiter : l.trimmed ≠ Construct.delimiter

variable {l : SourceLine} {cs : List Char}

theorem Bracket.readText_escape (line : Nat) (cs : List Char)
    : Bracket.readText line (Bracket.escape cs)
        =
      .ok (cs.map (Tag.ofChar · line), !cs.isEmpty) := by
  induction cs with
  | nil =>
    rw [escape, Bracket.readText]
    rfl
  | cons c cs ih =>
    rw [escape]
    by_cases hbracket : c = '['
    . rw [if_pos hbracket, Bracket.readText, ih, hbracket]
      rfl
    . rw [if_neg hbracket, Bracket.readText, ih]
      . rfl
      . intro rest h _
        exact hbracket h
      . intro h
        exact hbracket h

theorem Spells.read_line (h : Grammar.line.Spells l cs) (marks : Nat) (following : List SourceLine)
    : Line.read marks l following
        =
      .ok (.single (cs.map (Tag.ofChar · l.number) ++ [.lineBreak l.number]) marks following) := by
  have htext : l.text = cs := h.text
  unfold Line.read
  cases htrimmed : l.trimmed with
  | nil => exact absurd htrimmed h.visible
  | cons c rest =>
    have hmarker := h.unmarked c (by rw [htrimmed]; rfl)
    simp only [markers, List.mem_cons, List.not_mem_nil, or_false, not_or] at hmarker
    simp [hmarker, Line.text, htext]

theorem Spells.read_bracket (h : Grammar.bracket.Spells l cs) (marks : Nat) (following : List SourceLine)
    : Bracket.read marks l following
        =
      .ok (.single (cs.map (Tag.ofChar · l.number) ++ [.lineBreak l.number]) marks following) := by
  have hcs : cs.isEmpty = false := by
    cases cs with
    | nil => exact absurd (by rw [SourceLine.trimmed, h.text]; rfl) h.visible
    | cons c cs => rfl
  have hread : Bracket.readText l.number l.text = .ok (cs.map (Tag.ofChar · l.number), true) := by
    rw [h.text, written, Bracket.readText_escape, hcs]
    rfl
  have hdelimiter := h.notDelimiter
  unfold Bracket.read
  cases htrimmed : l.trimmed with
  | nil => exact absurd htrimmed h.visible
  | cons c rest =>
    have hmarker := h.unmarked c (by rw [htrimmed]; rfl)
    rw [htrimmed] at hdelimiter
    simp only [markers, List.mem_cons, List.not_mem_nil, or_false, not_or] at hmarker
    simp [hmarker, hdelimiter, Bracket.text, hread]

/--
A line of text is read as its characters in order, and a line break.
-/
theorem Spells.read {grammar : Grammar} (h : grammar.Spells l cs) (marks : Nat) (following : List SourceLine)
    : grammar.reader marks l following
        =
      .ok (.single (cs.map (Tag.ofChar · l.number) ++ [.lineBreak l.number]) marks following) := by
  cases grammar with
  | line => exact h.read_line marks following
  | bracket => exact h.read_bracket marks following

theorem Line.read_print {source : List Char} (h : l.trimmed = '=' :: source) (marks : Nat)
    (following : List SourceLine)
    : Line.read marks l following
        =
      .ok (.single [.script (String.ofList (Text.trim source)) true l.number] marks following) := by
  unfold Line.read
  rw [h]
  rfl

/-! ### Text in a script -/

/--
The constructs of some lines have been read, and the next one starts at the lines that are left.
-/
inductive Reads (grammar : Grammar) : Nat → List SourceLine → List Tag → Nat → List SourceLine → Prop where
  | nothing (marks : Nat) (lines : List SourceLine) : Reads grammar marks lines [] marks lines
  | construct {marks marks' : Nat} {first : SourceLine} {following rest : List SourceLine} {tags : List Tag}
    {c : Construct following} (hread : grammar.reader marks first following = .ok c)
    (later : Reads grammar c.marks c.rest tags marks' rest)
    : Reads grammar marks (first :: following) (c.tags ++ tags) marks' rest

theorem readConstructs_of_read {read : Reader} {marks : Nat} {first : SourceLine} {following : List SourceLine}
    {c : Construct following} {tags : List Tag} (hread : read marks first following = .ok c)
    (htags : readConstructs read marks (first :: following) = .ok tags)
    : ∃ behind, readConstructs read c.marks c.rest = .ok behind ∧ tags = c.tags ++ behind := by
  rw [readConstructs, hread] at htags
  dsimp only at htags
  cases hlater : readConstructs read c.marks c.rest with
  | error e =>
    rw [hlater] at htags
    cases htags
  | ok behind =>
    rw [hlater] at htags
    cases htags
    exact ⟨behind, rfl, rfl⟩

theorem Reads.split {grammar : Grammar} {marks marks' : Nat} {lines rest : List SourceLine}
    {before tags : List Tag} (h : grammar.Reads marks lines before marks' rest)
    (htags : readConstructs grammar.reader marks lines = .ok tags)
    : ∃ behind, readConstructs grammar.reader marks' rest = .ok behind ∧ tags = before ++ behind := by
  induction h generalizing tags with
  | nothing => exact ⟨tags, htags, rfl⟩
  | construct hread later ih =>
    obtain ⟨laterTags, hlater, heq⟩ := readConstructs_of_read hread htags
    obtain ⟨behind, hbehind, heq'⟩ := ih hlater
    refine ⟨behind, hbehind, ?_⟩
    rw [heq, heq', List.append_assoc]

/--
Wherever a construct starts in a script at a line of text, the tags of the script are the characters of the text.
-/
theorem parse_text {grammar : Grammar} {source : String} {before tags : List Tag} {marks : Nat}
    {following : List SourceLine} (hparse : grammar.parse source = .ok tags)
    (hreads : grammar.Reads 0 (sourceLines source) before marks (l :: following))
    (hspells : grammar.Spells l cs)
    : ∃ behind, tags = before ++ (cs.map (Tag.ofChar · l.number) ++ .lineBreak l.number :: behind) := by
  unfold parse readSource at hparse
  dsimp only at hparse
  cases htags : readConstructs grammar.reader 0 (sourceLines source) with
  | error e =>
    rw [htags] at hparse
    cases hparse
  | ok constructs =>
    rw [htags] at hparse
    cases hparse
    obtain ⟨text, htext, heq⟩ := hreads.split htags
    obtain ⟨behind, _, heq'⟩ := readConstructs_of_read (hspells.read marks following) htext
    refine ⟨behind ++ [.stop (max (sourceLines source).length 1)], ?_⟩
    rw [heq, heq']
    simp [Construct.single]

end Grammar
end VisualNovel
