import VisualNovel.Proofs.Literal
import VisualNovel.Proofs.Parsing.Composition

/-!
This module contains what the two grammars have in common: blank lines, labels, save marks, script blocks and lines of
text. A script of these, written in one grammar or in the other, parses alike.
-/

namespace VisualNovel

/-! ### Lines without their ends -/

namespace SourceLine

theorem dropReturn_cases (cs : List Char) : dropReturn cs = cs ∨ cs = dropReturn cs ++ ['\r'] := by
  unfold dropReturn
  split
  . next rest heq =>
    right
    rw [← List.reverse_cons, ← heq, List.reverse_reverse]
  . exact Or.inl rfl

theorem trim_dropReturn (cs : List Char) : Text.trim (dropReturn cs) = Text.trim cs := by
  obtain heq | heq := dropReturn_cases cs
  . rw [heq]
  . generalize dropReturn cs = ds at heq
    subst heq
    have hreturn : Text.isBlank '\r' = true := by decide
    unfold Text.trim Text.trimStart Text.trimEnd
    rw [List.dropWhile_append]
    split
    . next hempty => simp [List.isEmpty_iff.1 hempty, hreturn]
    . rw [List.reverse_append, List.reverse_singleton, List.singleton_append, List.dropWhile_cons_of_pos hreturn]

theorem mem_of_mem_dropReturn {c : Char} {cs : List Char} (h : c ∈ dropReturn cs) : c ∈ cs := by
  obtain heq | heq := dropReturn_cases cs
  . rw [← heq]
    exact h
  . rw [heq]
    exact List.mem_append_left _ h

theorem dropReturn_append_cons {c : Char} (hc : c ≠ '\r') (before behind : List Char)
    : dropReturn (before ++ c :: behind) = before ++ c :: dropReturn behind := by
  obtain rfl | ⟨init, last, rfl⟩ := List.eq_nil_or_concat behind
  . simp [dropReturn, hc]
  . by_cases hlast : last = '\r' <;> simp [dropReturn, hlast]

end SourceLine

/--
A text on one line.
-/
abbrev LineText :=
  { text : List Char // '\n' ∉ text }

namespace Grammar

/-! ### The common language -/

/--
A script block up to its last statement: the line that opens it, and lines that do not close it.
-/
structure OpenBlock where
  opening : LineText
  inner : List LineText
  opens : Text.trim opening = Construct.delimiter
  stays : ∀ l ∈ inner, Text.trim l ≠ Construct.delimiter

/--
The characters that tell what a line is, in one of the grammars.
-/
def allMarkers : List Char :=
  ['#', ';', '*', '~', '-', '=', '|']

/--
What both grammars can say. A save mark is given by the blanks before its marker and all that stands behind it.
-/
inductive Item where
  | blank (text : LineText) (h : Text.trim text = [])
  | label (text : LineText) (h : (Text.trim text).head? = some '*')
  | mark (margin written : LineText) (h : ∀ c ∈ margin.1, Text.isBlank c)
  | block (block : OpenBlock) (closing : LineText) (h : Text.trim closing = Construct.delimiter)
  | text (text : LineText) (visible : Text.trim text ≠ []) (plain : '[' ∉ text.1)
    (unmarked : ∀ c ∈ (Text.trim text).head?, c ∉ allMarkers)

def OpenBlock.lines (block : OpenBlock) : List (List Char) :=
  block.opening.1 :: block.inner.map Subtype.val

theorem OpenBlock.lines_single {block : OpenBlock} {text : List Char} (h : text ∈ block.lines) : '\n' ∉ text := by
  obtain rfl | h := List.mem_cons.1 h
  . exact block.opening.2
  . obtain ⟨l, _, rfl⟩ := List.mem_map.1 h
    exact l.2

/--
The lines of an item. Only the marker of a save mark depends on the grammar.
-/
def Item.lines (grammar : Grammar) : Item → List (List Char)
  | .blank l _ | .label l _ | .text l _ _ _ => [l.1]
  | .mark margin written _ => [margin ++ grammar.markMarker :: written]
  | .block opened closing _ => opened.lines ++ [closing.1]

/--
The lines of items, and those of a block at the end that is never closed.
-/
def itemLines (grammar : Grammar) (items : List Item) (unclosed : Option OpenBlock) : List (List Char) :=
  items.flatMap (Item.lines grammar) ++ (unclosed.map OpenBlock.lines).getD []

theorem itemLines_cons (grammar : Grammar) (item : Item) (items : List Item) (unclosed : Option OpenBlock)
    : grammar.itemLines (item :: items) unclosed = item.lines grammar ++ grammar.itemLines items unclosed := by
  rw [itemLines, List.flatMap_cons, List.append_assoc, itemLines]

def script (grammar : Grammar) (items : List Item) (unclosed : Option OpenBlock) : String :=
  String.ofList (Construct.joinLines (grammar.itemLines items unclosed))

/-! ### Forms of the common language -/

/--
Lines of the same form in both grammars, which do not go on to the next line.
-/
structure Common (line bracket : List Char) (form : Form) : Prop where
  line : Line.form line = form
  bracket : Bracket.form bracket = form
  alone : ∀ closes unclosed tags, form ≠ .through closes unclosed tags

theorem labelForm_ne_through (written : List Char) (closes : List Char → Bool) (unclosed : ParseFault)
    (tags : List (List Char) → List Char → Except ParseFault (List Tag))
    : labelForm written ≠ .through closes unclosed tags := by
  unfold labelForm
  split <;> exact nofun

theorem common_blank {text : List Char} (h : Text.trim text = []) : Common text text .blank where
  line := by rw [Line.form, h]
  bracket := by rw [Bracket.form, h]
  alone := nofun

theorem common_label {text written : List Char} (h : Text.trim text = '*' :: written)
    : Common text text (labelForm written) where
  line := by
    rw [Line.form, h]
    rfl
  bracket := by
    rw [Bracket.form, h]
    rfl
  alone := labelForm_ne_through written

theorem trim_mark {margin : List Char} (hmargin : ∀ c ∈ margin, Text.isBlank c) {marker : Char}
    (hmarker : Text.isBlank marker = false) (written : List Char)
    : Text.trim (margin ++ marker :: written) = marker :: Text.trimEnd written := by
  have hstart : Text.trimStart (margin ++ marker :: written) = marker :: written := by
    rw [Text.trimStart, List.dropWhile_append_of_pos hmargin, List.dropWhile_cons_of_neg (by simp [hmarker])]
  rw [Text.trim, hstart, Text.trimEnd, Text.trimEnd, List.reverse_cons, List.dropWhile_append]
  split
  . next hempty => simp [List.isEmpty_iff.1 hempty, hmarker]
  . rw [List.reverse_append, List.reverse_singleton, List.singleton_append]

theorem common_mark {margin : List Char} (hmargin : ∀ c ∈ margin, Text.isBlank c) (written : List Char)
    : Common (margin ++ '~' :: written) (margin ++ '|' :: written) (.mark (Text.trimEnd written)) where
  line := by
    rw [Line.form, trim_mark hmargin (by decide)]
    rfl
  bracket := by
    rw [Bracket.form, trim_mark hmargin (by decide)]
    rfl
  alone := nofun

theorem escape_of_plain {text : List Char} (h : '[' ∉ text) : Bracket.escape text = text := by
  induction text with
  | nil => rfl
  | cons c cs ih =>
    rw [List.mem_cons, not_or] at h
    rw [Bracket.escape, if_neg (Ne.symm h.1), ih h.2]

theorem textTags_of_plain {text : List Char} (hplain : '[' ∉ text) (hvisible : Text.trim text ≠ [])
    : Bracket.textTags text = .ok (text.map (Tag.ofChar · 0) ++ [.lineBreak 0]) := by
  have hread := Bracket.readText_escape 0 text
  have hnonempty : text.isEmpty = false := by
    cases text with
    | nil => exact absurd rfl hvisible
    | cons c cs => rfl
  rw [escape_of_plain hplain, hnonempty] at hread
  rw [Bracket.textTags, hread]
  rfl

theorem common_text {text : List Char} (hvisible : Text.trim text ≠ []) (hplain : '[' ∉ text)
    (hunmarked : ∀ c ∈ (Text.trim text).head?, c ∉ allMarkers)
    : Common text text (.alone (.ok (text.map (Tag.ofChar · 0) ++ [.lineBreak 0]))) := by
  have htags := textTags_of_plain hplain hvisible
  cases htrim : Text.trim text with
  | nil => exact absurd htrim hvisible
  | cons c written =>
    have hmarker := hunmarked c (by rw [htrim]; rfl)
    simp only [allMarkers, List.mem_cons, List.not_mem_nil, or_false, not_or] at hmarker
    constructor
    . rw [Line.form, htrim]
      simp [hmarker]
    . rw [Bracket.form, htrim]
      simp [hmarker, Construct.delimiter, htags]
    . exact nofun

theorem line_form_of_delimiter {text : List Char} (h : Text.trim text = Construct.delimiter)
    : Line.form text = blockForm := by
  rw [Line.form, h]
  rfl

theorem bracket_form_of_delimiter {text : List Char} (h : Text.trim text = Construct.delimiter)
    : Bracket.form text = blockForm := by
  rw [Bracket.form, h]
  rfl

/-! ### Reading the common language -/

/--
The lines parse alike in the two grammars.
-/
def Alike (marks : Nat) (lines others : List SourceLine) : Prop :=
  ∃ answer, Answers .line marks lines answer ∧ Answers .bracket marks others answer

variable {marks : Nat} {lines others : List SourceLine}

theorem Alike.error {first other : SourceLine} {form : Form} {e : ParseError}
    (hline : Grammar.line.form first.text = form) (hbracket : Grammar.bracket.form other.text = form)
    (hfirst : form.read marks first lines = .error e) (hother : form.read marks other others = .error e)
    : Alike marks (first :: lines) (other :: others) := by
  rw [← hline] at hfirst
  rw [← hbracket] at hother
  exact ⟨_, .error hfirst, .error hother⟩

theorem Alike.construct {first other : SourceLine} {form : Form} {following behind : List SourceLine} {tags : List Tag}
    {marks' : Nat} (hline : Grammar.line.form first.text = form) (hbracket : Grammar.bracket.form other.text = form)
    (hfirst : form.read marks first following = .ok { tags, marks := marks', rest := lines })
    (hother : form.read marks other behind = .ok { tags, marks := marks', rest := others })
    (hlater : Alike marks' lines others) : Alike marks (first :: following) (other :: behind) := by
  rw [← hline] at hfirst
  rw [← hbracket] at hother
  obtain ⟨answer, hleft, hright⟩ := hlater
  have hbehind := Answers.construct hother hright
  exact ⟨_, .construct hfirst hleft, hbehind⟩

theorem Common.alike {text other : List Char} {form : Form} (h : Common text other form) (number : Nat)
    (hlater : ∀ marks, Alike marks lines others) (hlength : lines.isEmpty = others.isEmpty)
    : Alike marks ({ number, text } :: lines) ({ number, text := other } :: others) := by
  -- a form that does not go on reads the same tags, whatever lines follow
  have hread : (∃ e, form.read marks { number, text } lines = .error e ∧
        form.read marks { number, text := other } others = .error e) ∨
      ∃ tags marks', form.read marks { number, text } lines = .ok { tags, marks := marks', rest := lines } ∧
        form.read marks { number, text := other } others = .ok { tags, marks := marks', rest := others } := by
    cases form with
    | blank =>
      refine Or.inr ⟨_, _, rfl, ?_⟩
      simp only [Form.read, Construct.blank, Construct.single, Construct.portion, hlength]
    | mark written =>
      right
      simp only [Form.read, Construct.saveMark]
      cases Construct.splitBar? (Text.trim written) <;> exact ⟨_, _, rfl, rfl⟩
    | alone tags =>
      cases tags with
      | error fault => exact Or.inl ⟨_, rfl, rfl⟩
      | ok tags => exact Or.inr ⟨_, _, rfl, rfl⟩
    | through closes unclosed tags => exact absurd rfl (h.alone closes unclosed tags)
  obtain ⟨e, hfirst, hother⟩ | ⟨tags, marks', hfirst, hother⟩ := hread
  . exact .error h.line h.bracket hfirst hother
  . exact .construct h.line h.bracket hfirst hother (hlater marks')

section Block

variable {inner : List SourceLine} (hstays : ∀ l ∈ inner, Text.trim l.text ≠ Construct.delimiter)

include hstays

theorem splitThrough?_of_closed {closing : SourceLine} (hcloses : Text.trim closing.text = Construct.delimiter)
    (rest : List SourceLine)
    : splitThrough? (Text.trim · = Construct.delimiter) (inner ++ closing :: rest) = some (inner, closing, rest) := by
  induction inner with
  | nil => simp [splitThrough?, hcloses]
  | cons l inner ih =>
    have hl := hstays l List.mem_cons_self
    have hinner := ih fun l hl => hstays l (List.mem_cons_of_mem _ hl)
    simp [splitThrough?, hl, hinner]

theorem splitThrough?_of_unclosed : splitThrough? (Text.trim · = Construct.delimiter) inner = none := by
  induction inner with
  | nil => rfl
  | cons l inner ih =>
    have hl := hstays l List.mem_cons_self
    have hinner := ih fun l hl => hstays l (List.mem_cons_of_mem _ hl)
    simp [splitThrough?, hl, hinner]

theorem alike_block {first closing : SourceLine} (hopens : Text.trim first.text = Construct.delimiter)
    (hcloses : Text.trim closing.text = Construct.delimiter) (hlater : ∀ marks, Alike marks lines others)
    : Alike marks (first :: (inner ++ closing :: lines)) (first :: (inner ++ closing :: others)) := by
  have hread (rest : List SourceLine)
      : blockForm.read marks first (inner ++ closing :: rest)
          = .ok { tags := [.script (String.ofList (Construct.joinLines (inner.map SourceLine.text))) false first.number],
                  marks, rest } := by
    unfold blockForm Form.read
    dsimp only
    rw [splitThrough?_of_closed hstays hcloses]
    rfl
  exact .construct (line_form_of_delimiter hopens) (bracket_form_of_delimiter hopens) (hread lines) (hread others)
    (hlater marks)

theorem alike_unclosed {first : SourceLine} (hopens : Text.trim first.text = Construct.delimiter)
    : Alike marks (first :: inner) (first :: inner) := by
  have hread : blockForm.read marks first inner = .error { line := first.number, fault := .unclosedScript } := by
    unfold blockForm Form.read
    dsimp only
    rw [splitThrough?_of_unclosed hstays]
  exact .error (line_form_of_delimiter hopens) (bracket_form_of_delimiter hopens) hread hread

end Block

/-! ### Scripts of the common language -/

/--
The numbered lines of some texts, each without the carriage return at its end.
-/
def numbered (number : Nat) (texts : List (List Char)) : List SourceLine :=
  SourceLine.enumerate number (texts.map SourceLine.dropReturn)

theorem numbered_cons (number : Nat) (text : List Char) (texts : List (List Char))
    : numbered number (text :: texts)
        =
      { number, text := SourceLine.dropReturn text } :: numbered (number + 1) texts :=
  rfl

theorem numbered_append (number : Nat) (texts others : List (List Char))
    : numbered number (texts ++ others) = numbered number texts ++ numbered (number + texts.length) others := by
  unfold numbered
  rw [List.map_append, SourceLine.enumerate_append, List.length_map]

theorem length_numbered (number : Nat) (texts : List (List Char)) : (numbered number texts).length = texts.length := by
  rw [numbered, SourceLine.length_enumerate, List.length_map]

theorem exists_mem_of_mem_numbered {number : Nat} {texts : List (List Char)} {l : SourceLine}
    (h : l ∈ numbered number texts) : ∃ text ∈ texts, l.text = SourceLine.dropReturn text := by
  induction texts generalizing number with
  | nil => cases h
  | cons text texts ih =>
    rw [numbered_cons, List.mem_cons] at h
    obtain rfl | h := h
    . exact ⟨text, List.mem_cons_self, rfl⟩
    . obtain ⟨other, hother, heq⟩ := ih h
      exact ⟨other, List.mem_cons_of_mem _ hother, heq⟩

theorem OpenBlock.numbered_lines (block : OpenBlock) (number : Nat) (texts : List (List Char))
    : numbered number (block.lines ++ texts)
        =
      { number, text := SourceLine.dropReturn block.opening } ::
        (numbered (number + 1) (block.inner.map Subtype.val) ++ numbered (number + 1 + block.inner.length) texts) := by
  rw [OpenBlock.lines, List.cons_append, numbered_cons, numbered_append, List.length_map]

theorem OpenBlock.opens_numbered (block : OpenBlock)
    : Text.trim (SourceLine.dropReturn block.opening) = Construct.delimiter := by
  rw [SourceLine.trim_dropReturn, block.opens]

theorem OpenBlock.stays_numbered (block : OpenBlock) (number : Nat)
    : ∀ l ∈ numbered number (block.inner.map Subtype.val), Text.trim l.text ≠ Construct.delimiter := by
  intro l hl
  obtain ⟨text, htext, heq⟩ := exists_mem_of_mem_numbered hl
  obtain ⟨line, hline, rfl⟩ := List.mem_map.1 htext
  rw [heq, SourceLine.trim_dropReturn]
  exact block.stays line hline

theorem isEmpty_itemLines (items : List Item) (unclosed : Option OpenBlock)
    : (Grammar.line.itemLines items unclosed).isEmpty = (Grammar.bracket.itemLines items unclosed).isEmpty := by
  cases items with
  | nil => rfl
  | cons item items => cases item <;> rfl

theorem isEmpty_numbered (number : Nat) (texts : List (List Char)) : (numbered number texts).isEmpty = texts.isEmpty := by
  cases texts <;> rfl

/--
The lines of a single item, on which the two grammars agree.
-/
theorem Common.alike_numbered {text other : List Char} {form : Form}
    (h : Common (SourceLine.dropReturn text) (SourceLine.dropReturn other) form) {number : Nat}
    {texts others : List (List Char)} (hempty : texts.isEmpty = others.isEmpty)
    (hlater : ∀ marks, Alike marks (numbered (number + 1) texts) (numbered (number + 1) others)) (marks : Nat)
    : Alike marks (numbered number (text :: texts)) (numbered number (other :: others)) := by
  rw [numbered_cons, numbered_cons]
  apply h.alike number hlater
  rw [isEmpty_numbered, isEmpty_numbered, hempty]

theorem alike_items (items : List Item) (unclosed : Option OpenBlock) (number marks : Nat)
    : Alike marks (numbered number (Grammar.line.itemLines items unclosed))
        (numbered number (Grammar.bracket.itemLines items unclosed)) := by
  induction items generalizing number marks with
  | nil =>
    cases unclosed with
    | none => exact ⟨_, .nil marks, .nil marks⟩
    | some block => exact alike_unclosed (block.stays_numbered (number + 1)) block.opens_numbered
  | cons item items ih =>
    have hempty := isEmpty_itemLines items unclosed
    cases item with
    | blank text h =>
      have hblank : Text.trim (SourceLine.dropReturn text) = [] := by rw [SourceLine.trim_dropReturn, h]
      exact (common_blank hblank).alike_numbered hempty (ih _) marks
    | label text h =>
      obtain ⟨written, hwritten⟩ := List.head?_eq_some_iff.1 h
      have hlabel : Text.trim (SourceLine.dropReturn text) = '*' :: written := by
        rw [SourceLine.trim_dropReturn, hwritten]
      exact (common_label hlabel).alike_numbered hempty (ih _) marks
    | mark margin written h =>
      have hcommon := common_mark h (SourceLine.dropReturn written)
      rw [← SourceLine.dropReturn_append_cons (by decide), ← SourceLine.dropReturn_append_cons (by decide)] at hcommon
      exact hcommon.alike_numbered hempty (ih _) marks
    | block block closing h =>
      have hcloses : Text.trim (SourceLine.dropReturn closing) = Construct.delimiter := by
        rw [SourceLine.trim_dropReturn, h]
      rw [itemLines_cons, itemLines_cons, Item.lines, Item.lines, List.append_assoc, List.append_assoc,
        block.numbered_lines, block.numbered_lines, List.singleton_append, List.singleton_append, numbered_cons,
        numbered_cons]
      exact alike_block (block.stays_numbered (number + 1)) block.opens_numbered hcloses (ih _)
    | text text visible plain unmarked =>
      rw [← SourceLine.trim_dropReturn] at visible unmarked
      have hplain : '[' ∉ SourceLine.dropReturn text := fun hmem => plain (SourceLine.mem_of_mem_dropReturn hmem)
      exact (common_text visible hplain unmarked).alike_numbered hempty (ih _) marks

theorem Item.lines_single {grammar : Grammar} {item : Item} {text : List Char} (h : text ∈ item.lines grammar)
    : '\n' ∉ text := by
  cases item with
  | blank l _ | label l _ | text l _ _ _ =>
    rw [List.mem_singleton.1 h]
    exact l.2
  | mark margin written _ =>
    have hmarker : '\n' ≠ grammar.markMarker := by cases grammar <;> decide
    rw [List.mem_singleton.1 h, List.mem_append, List.mem_cons]
    rintro (hmargin | hmark | hwritten)
    . exact margin.2 hmargin
    . exact hmarker hmark
    . exact written.2 hwritten
  | block opened closing _ =>
    obtain h | h := List.mem_append.1 h
    . exact opened.lines_single h
    . rw [List.mem_singleton.1 h]
      exact closing.2

theorem itemLines_single {grammar : Grammar} {items : List Item} {unclosed : Option OpenBlock} {text : List Char}
    (h : text ∈ grammar.itemLines items unclosed) : '\n' ∉ text := by
  obtain h | h := List.mem_append.1 h
  . obtain ⟨item, _, hitem⟩ := List.mem_flatMap.1 h
    exact item.lines_single hitem
  . cases unclosed with
    | none => cases h
    | some block => exact block.lines_single h

theorem length_itemLines (items : List Item) (unclosed : Option OpenBlock)
    : (Grammar.line.itemLines items unclosed).length = (Grammar.bracket.itemLines items unclosed).length := by
  induction items with
  | nil => rfl
  | cons item items ih =>
    have hitem : (item.lines .line).length = (item.lines .bracket).length := by cases item <;> rfl
    rw [itemLines_cons, itemLines_cons, List.length_append, List.length_append, hitem, ih]

theorem sourceLines_script (grammar : Grammar) {items : List Item} {unclosed : Option OpenBlock}
    (h : grammar.itemLines items unclosed ≠ [])
    : sourceLines (grammar.script items unclosed) = numbered 1 (grammar.itemLines items unclosed) := by
  unfold sourceLines script numbered
  rw [String.toList_ofList, Construct.splitAt_joinLines (fun _ => itemLines_single) h]

theorem line_parse_script_eq_of_ne_nil {items : List Item} {unclosed : Option OpenBlock}
    (h : Grammar.line.itemLines items unclosed ≠ [])
    : Grammar.line.parse (Grammar.line.script items unclosed)
        =
      Grammar.bracket.parse (Grammar.bracket.script items unclosed) := by
  have hother : Grammar.bracket.itemLines items unclosed ≠ [] := by
    rw [← List.isEmpty_eq_false_iff] at h ⊢
    rw [← isEmpty_itemLines, h]
  have hcount : lineCount (Grammar.line.script items unclosed) = lineCount (Grammar.bracket.script items unclosed) := by
    rw [lineCount, lineCount, sourceLines_script .line h, sourceLines_script .bracket hother, length_numbered,
      length_numbered, length_itemLines]
  obtain ⟨answer, hline, hbracket⟩ := alike_items items unclosed 1 0
  rw [← sourceLines_script .line h] at hline
  rw [← sourceLines_script .bracket hother] at hbracket
  rw [hline.parse_eq, hbracket.parse_eq, hcount]

/--
The script without a line is that of a blank line.
-/
theorem script_of_nil {grammar : Grammar} {items : List Item} {unclosed : Option OpenBlock}
    (h : grammar.itemLines items unclosed = [])
    : grammar.script items unclosed = grammar.script [.blank ⟨[], List.not_mem_nil⟩ rfl] none := by
  rw [script, h]
  rfl

/--
What both grammars can say, they parse to the same tags at the same lines, or to the same error.
-/
theorem line_parse_script_eq (items : List Item) (unclosed : Option OpenBlock)
    : Grammar.line.parse (Grammar.line.script items unclosed)
        =
      Grammar.bracket.parse (Grammar.bracket.script items unclosed) := by
  by_cases h : Grammar.line.itemLines items unclosed = []
  . have hother : Grammar.bracket.itemLines items unclosed = [] := by
      rw [← List.isEmpty_iff, ← isEmpty_itemLines, h]
      rfl
    rw [script_of_nil h, script_of_nil hother]
    exact line_parse_script_eq_of_ne_nil nofun
  . exact line_parse_script_eq_of_ne_nil h

end Grammar
end VisualNovel
