import VisualNovel.Proofs.Handling.Jumps
import VisualNovel.Proofs.Parsing.Tags

/-!
This module contains the save marks of a script, told by its lines: which lines make them, which names they get, and that
the marks without a name of their own can be jumped to.
-/

namespace VisualNovel
namespace Grammar

/-! ### The lines on which constructs start -/

/--
What a line opens that goes on behind it: the statements of a script, or the parameters of a command.
-/
inductive Opening where
  | block
  | parameters
  deriving DecidableEq, Repr

/--
Does a line close what has been opened?
-/
def Opening.closes : Opening → List Char → Bool
  | .block, text => Text.trim text = Construct.delimiter
  | .parameters, text => text.contains '\x7d'

def opensBlock? (trimmed : List Char) : Option Opening :=
  if trimmed = Construct.delimiter then some .block else none

/--
Parameters that start with a brace go on if there is no closing one behind it.
-/
def opensParameters? (written : List Char) : Option Opening :=
  match Line.splitCommand? written with
  | some (_, block) => if block.head? == some '\x7b' && !block.contains '\x7d' then some .parameters else none
  | none => none

def Line.opens? (text : List Char) : Option Opening :=
  match Text.trim text with
  | ';' :: written => opensParameters? written
  | trimmed => opensBlock? trimmed

def Bracket.opens? (text : List Char) : Option Opening :=
  opensBlock? (Text.trim text)

def opens? : Grammar → List Char → Option Opening
  | .line => Line.opens?
  | .bracket => Bracket.opens?

/--
The lines on which constructs start, given what the lines before have opened.
-/
def starts (grammar : Grammar) : Option Opening → List SourceLine → List SourceLine
  | _, [] => []
  | none, l :: lines => l :: starts grammar (grammar.opens? l.text) lines
  | some opening, l :: lines => starts grammar (if opening.closes l.text then none else some opening) lines

def Form.closes? : Form → Option (List Char → Bool)
  | .through closes _ _ => some closes
  | _ => none

theorem closes?_labelForm (written : List Char) : (labelForm written).closes? = none := by
  unfold labelForm
  split <;> rfl

theorem opensBlock?_of_ne {trimmed : List Char} (h : ∀ behind, trimmed ≠ '-' :: behind) : opensBlock? trimmed = none :=
  if_neg (h _)

namespace Line

theorem closes?_commandForm (written : List Char)
    : (commandForm written).closes? = (opensParameters? written).map Opening.closes := by
  unfold commandForm opensParameters?
  cases splitCommand? written with
  | none => rfl
  | some parts =>
    dsimp only
    split <;> rfl

theorem opens?_of_ne {text : List Char} (h : ∀ behind, Text.trim text ≠ ';' :: behind)
    : opens? text = opensBlock? (Text.trim text) := by
  unfold opens?
  split
  . next behind htrim => exact (h behind htrim).elim
  . rfl

theorem closes?_form (text : List Char) : (form text).closes? = (opens? text).map Opening.closes := by
  unfold form
  split
  . next htrim =>
    rw [opens?, htrim]
    rfl
  . next htrim =>
    rw [opens?, htrim]
    rfl
  . next written htrim =>
    rw [opens?, htrim]
    exact closes?_commandForm written
  . next written htrim =>
    rw [opens?, htrim, closes?_labelForm]
    rfl
  . next htrim =>
    rw [opens?, htrim]
    rfl
  . next written htrim =>
    rw [opens?, htrim]
    change _ = (opensBlock? ('-' :: written)).map Opening.closes
    rw [opensBlock?]
    split <;> rfl
  . next htrim =>
    rw [opens?, htrim]
    rfl
  . next hcommand _ _ hdash _ =>
    rw [opens?_of_ne hcommand, opensBlock?_of_ne hdash]
    rfl

end Line

theorem Bracket.closes?_form (text : List Char) : (form text).closes? = (opens? text).map Opening.closes := by
  unfold form opens?
  split
  . next htrim =>
    rw [htrim]
    rfl
  . next htrim =>
    rw [htrim]
    rfl
  . next htrim =>
    rw [htrim, closes?_labelForm]
    rfl
  . next htrim =>
    rw [htrim]
    rfl
  . rw [opensBlock?]
    split <;> rfl

/--
Where a construct ends is told by its first line alone.
-/
theorem closes?_form (grammar : Grammar) (text : List Char)
    : (grammar.form text).closes? = (grammar.opens? text).map Opening.closes := by
  cases grammar with
  | line => exact Line.closes?_form text
  | bracket => exact Bracket.closes?_form text

theorem starts_of_splitThrough? (grammar : Grammar) {opening : Opening} {lines inner rest : List SourceLine}
    {closing : SourceLine} (h : splitThrough? opening.closes lines = some (inner, closing, rest))
    : grammar.starts (some opening) lines = grammar.starts none rest := by
  fun_induction splitThrough? opening.closes lines generalizing inner with
  | case1 => cases h
  | case2 l lines hcloses =>
    cases h
    rw [starts, if_pos hcloses]
  | case3 l lines hcloses ih =>
    obtain ⟨split, hsplit, hinner⟩ := Option.map_eq_some_iff.1 h
    cases hinner
    rw [starts, if_neg hcloses, ih hsplit]

/--
The next construct starts behind the one that is read.
-/
theorem starts_of_read {grammar : Grammar} {marks : Nat} {first : SourceLine} {following : List SourceLine}
    {portion : Portion} (h : (grammar.form first.text).read marks first following = .ok portion)
    : grammar.starts none (first :: following) = first :: grammar.starts none portion.rest := by
  rw [starts]
  have hcloses := closes?_form grammar first.text
  generalize grammar.form first.text = form at h hcloses
  cases hopens : grammar.opens? first.text with
  | none =>
    rw [hopens] at hcloses
    cases form with
    | through => cases hcloses
    | blank =>
      cases h
      rfl
    | mark written =>
      obtain ⟨_, hread, _⟩ := Form.read_mark marks first following written
      rw [hread] at h
      cases h
      rfl
    | alone tags =>
      obtain ⟨_, _, rfl⟩ := Form.portionOf_eq_ok h
      rfl
  | some opening =>
    rw [hopens] at hcloses
    cases form with
    | blank | mark | alone => cases hcloses
    | through closes unclosed tags =>
      cases hcloses
      unfold Form.read at h
      dsimp only at h
      split at h
      . cases h
      . next hsplit =>
        obtain ⟨_, _, rfl⟩ := Form.portionOf_eq_ok h
        rw [starts_of_splitThrough? grammar hsplit]

/-! ### The lines that make save marks -/

/--
A line that makes a save mark, with the text behind its marker.
-/
structure MarkLine where
  number : Nat
  body : List Char
  deriving DecidableEq, Repr

namespace MarkLine

/--
Is there no bar behind the marker, so that the name has to be generated?
-/
def isBare (m : MarkLine) : Bool :=
  !m.body.contains '|'

/--
The name before the first bar.
-/
def written (m : MarkLine) : String :=
  String.ofList (Text.trim (m.body.takeWhile (· ≠ '|')))

/--
The name of the mark, given the number of marks before it that have none of their own.
-/
def name (m : MarkLine) (bare : Nat) : String :=
  if m.isBare then Construct.generatedMark bare else m.written

def comment (m : MarkLine) : String :=
  if m.isBare then String.ofList m.body else String.ofList (Text.trim (m.body.dropWhile (· ≠ '|')).tail)

def entry (m : MarkLine) (bare : Nat) : SaveMark :=
  { name := m.name bare, comment := m.comment, line := m.number }

def tag (m : MarkLine) (bare : Nat) : Tag :=
  .saveMark (m.name bare) m.comment (String.ofList m.body) m.number

end MarkLine

/--
How many of the first save marks have no name of their own.
-/
def bareBefore (marks : List MarkLine) (count : Nat) : Nat :=
  (marks.take count).countP MarkLine.isBare

def markBody? (grammar : Grammar) (text : List Char) : Option (List Char) :=
  match Text.trim text with
  | [] => none
  | c :: written => if c = grammar.markMarker then some (Text.trim written) else none

def markLine? (grammar : Grammar) (l : SourceLine) : Option MarkLine :=
  (grammar.markBody? l.text).map fun body => { number := l.number, body }

/--
The lines of a source that make save marks. Those inside of blocks and of parameters are not among them.
-/
def markLines (grammar : Grammar) (source : String) : List MarkLine :=
  (grammar.starts none (sourceLines source)).filterMap grammar.markLine?

def Form.markBody? : Form → Option (List Char)
  | .mark written => some (Text.trim written)
  | _ => none

theorem markBody?_labelForm (written : List Char) : (labelForm written).markBody? = none := by
  unfold labelForm
  split <;> rfl

theorem Line.markBody?_commandForm (written : List Char) : (commandForm written).markBody? = none := by
  unfold commandForm
  split
  . rfl
  . dsimp only
    split <;> rfl

theorem Line.markBody?_form (text : List Char) : (form text).markBody? = Grammar.line.markBody? text := by
  unfold form Grammar.markBody?
  generalize Text.trim text = trimmed
  split
  . rfl
  . rfl
  . exact markBody?_commandForm _
  . exact markBody?_labelForm _
  . rfl
  . split <;> rfl
  . rfl
  . next hmark _ _ =>
    cases trimmed with
    | nil => rfl
    | cons c written => exact (if_neg fun hc => hmark written (by rw [hc]; rfl)).symm

theorem Bracket.markBody?_form (text : List Char) : (form text).markBody? = Grammar.bracket.markBody? text := by
  unfold form Grammar.markBody?
  generalize Text.trim text = trimmed
  split
  . rfl
  . rfl
  . exact markBody?_labelForm _
  . rfl
  . next hmark =>
    cases trimmed with
    | nil => split <;> rfl
    | cons c written =>
      have hnone : (if c = Grammar.bracket.markMarker then some (Text.trim written) else none) = none :=
        if_neg fun hc => hmark written (by rw [hc]; rfl)
      dsimp only
      rw [hnone]
      split <;> rfl

/--
The lines that make save marks are told by their form.
-/
theorem markBody?_form (grammar : Grammar) (text : List Char)
    : (grammar.form text).markBody? = grammar.markBody? text := by
  cases grammar with
  | line => exact Line.markBody?_form text
  | bracket => exact Bracket.markBody?_form text

theorem splitBar?_eq (cs : List Char)
    : Construct.splitBar? cs
        = if cs.contains '|' then some (cs.takeWhile (· ≠ '|'), (cs.dropWhile (· ≠ '|')).tail) else none := by
  fun_induction Construct.splitBar? cs with
  | case1 => rfl
  | case2 cs => simp
  | case3 c cs hc ih =>
    have hne : c ≠ '|' := fun h => hc h
    rw [ih]
    by_cases hbar : cs.contains '|' <;> simp_all [eq_comm]

theorem Form.read_markLine (marks : Nat) (first : SourceLine) (following : List SourceLine) (written : List Char)
    : let m : MarkLine := { number := first.number, body := Text.trim written }
      (Form.mark written).read marks first following
        = .ok { tags := [m.tag marks], marks := marks + m.isBare.toNat, rest := following } := by
  unfold read Construct.saveMark MarkLine.tag MarkLine.name MarkLine.comment MarkLine.isBare MarkLine.written
  dsimp only
  rw [splitBar?_eq]
  cases (Text.trim written).contains '|' <;> rfl

/-! ### The tags of save marks -/

theorem generatedMark_injective : Function.Injective Construct.generatedMark := by
  intro i j h
  unfold Construct.generatedMark at h
  rw [String.append_left_inj, String.append_right_inj, Nat.toString_eq_repr, Nat.toString_eq_repr,
    Nat.repr_eq_ofList_toDigits, Nat.repr_eq_ofList_toDigits] at h
  have hdigits := congrArg (Nat.ofDigitChars 10 · 0) (String.ofList_injective h)
  rwa [Nat.ofDigitChars_toDigits (by decide) (by decide), Nat.ofDigitChars_toDigits (by decide) (by decide)] at hdigits

def isMark (tag : Tag) : Bool :=
  tag.directive? == some .saveMark

theorem isMark_eq_false_of_plain {names : List String} {tag : Tag} (h : tag.Plain names)
    (hnames : Directive.saveMark.name ∉ names) : isMark tag = false := by
  apply beq_eq_false_iff_ne.2
  intro hdirective
  cases h with
  | directive d hd body values line => exact hd (Option.some.inj ((Directive.ofName?_name d).symm.trans hdirective))
  | command hname body values line =>
    apply hnames
    rw [Directive.name_of_ofName? hdirective]
    exact hname

/--
The tags of the marks, given the number of marks before that have no name of their own.
-/
def markTags (bare : Nat) (marks : List MarkLine) : List Tag :=
  marks.mapIdx fun j m => m.tag (bare + bareBefore marks j)

theorem bareBefore_cons (m : MarkLine) (marks : List MarkLine) (count : Nat)
    : bareBefore (m :: marks) (count + 1) = m.isBare.toNat + bareBefore marks count := by
  unfold bareBefore
  rw [List.take_succ_cons, List.countP_cons, Nat.add_comm]
  cases m.isBare <;> rfl

theorem markTags_cons (bare : Nat) (m : MarkLine) (marks : List MarkLine)
    : markTags bare (m :: marks) = m.tag bare :: markTags (bare + m.isBare.toNat) marks := by
  unfold markTags
  rw [List.mapIdx_cons]
  congr 2
  funext j l
  rw [bareBefore_cons, Nat.add_assoc]

/--
The counter of the parser is the number of the save marks before that have no name of their own.
-/
theorem Answers.filter_isMark {grammar : Grammar} {marks : Nat} {lines : List SourceLine} {tags : List Tag}
    (h : Answers grammar marks lines (.ok tags))
    (hcommands : ∀ l ∈ grammar.starts none lines, Directive.saveMark.name ∉ grammar.commandNames l.text)
    : tags.filter isMark = markTags marks ((grammar.starts none lines).filterMap grammar.markLine?) := by
  generalize hok : Except.ok tags = answer at h
  induction h generalizing tags with
  | nil marks =>
    cases hok
    rfl
  | error h => cases hok
  | @construct marks first following portion answer h _ ih =>
    cases answer with
    | error e => cases hok
    | ok behind =>
      cases hok
      rw [starts_of_read h] at hcommands ⊢
      obtain ⟨hfirst, hrest⟩ := List.forall_mem_cons.1 hcommands
      have hbody := markBody?_form grammar first.text
      have hplain := plain_form grammar first.text
      generalize grammar.form first.text = form at h hbody hplain
      rw [List.filter_append, ih hrest rfl]
      cases form with
      | mark written =>
        have hline : grammar.markLine? first = some { number := first.number, body := Text.trim written } := by
          rw [markLine?, ← hbody]
          rfl
        rw [Form.read_markLine] at h
        cases h
        rw [List.filterMap_cons_some hline, markTags_cons]
        rfl
      | blank | alone | through =>
        have hline : grammar.markLine? first = none := by
          rw [markLine?, ← hbody]
          rfl
        have hnone : portion.tags.filter isMark = [] := by
          apply List.filter_eq_nil_iff.2
          intro tag htag
          rw [isMark_eq_false_of_plain (Form.plain_of_read hplain nofun h tag htag) hfirst]
          exact Bool.false_ne_true
        rw [List.filterMap_cons_none hline, hnone, Form.read_marks h rfl]
        rfl

theorem filter_isMark_of_parse {grammar : Grammar} {source : String} {tags : List Tag} (h : grammar.parse source = .ok tags)
    (hcommands : ∀ l ∈ grammar.starts none (sourceLines source),
      Directive.saveMark.name ∉ grammar.commandNames l.text)
    : tags.filter isMark = markTags 0 (grammar.markLines source) := by
  obtain ⟨constructs, hanswers, rfl⟩ := exists_constructs h
  rw [List.filter_append, hanswers.filter_isMark hcommands]
  exact List.append_nil _

/-! ### The marks of a script -/

theorem getElem?_markTags (bare : Nat) (marks : List MarkLine) (j : Nat)
    : (markTags bare marks)[j]? = marks[j]?.map fun m => m.tag (bare + bareBefore marks j) :=
  List.getElem?_mapIdx

theorem exists_index_of_isBare {marks : List MarkLine} {i : Nat} {m : MarkLine}
    (h : (marks.filter MarkLine.isBare)[i]? = some m)
    : ∃ j, marks[j]? = some m ∧ m.isBare = true ∧ bareBefore marks j = i := by
  induction marks generalizing i with
  | nil => cases h
  | cons first marks ih =>
    cases hfirst : first.isBare with
    | false =>
      rw [List.filter_cons_of_neg (by rw [hfirst]; exact Bool.false_ne_true)] at h
      obtain ⟨j, hj, hbare, hi⟩ := ih h
      refine ⟨j + 1, hj, hbare, ?_⟩
      rw [bareBefore_cons, hfirst, hi]
      exact Nat.zero_add i
    | true =>
      rw [List.filter_cons_of_pos hfirst] at h
      cases i with
      | zero =>
        cases h
        exact ⟨0, rfl, hfirst, rfl⟩
      | succ i =>
        obtain ⟨j, hj, hbare, hi⟩ := ih h
        refine ⟨j + 1, hj, hbare, ?_⟩
        rw [bareBefore_cons, hfirst, hi]
        exact Nat.add_comm 1 i

theorem bareBefore_lt {marks : List MarkLine} {j k : Nat} {m : MarkLine} (hj : marks[j]? = some m)
    (hbare : m.isBare = true) (hlt : j < k) : bareBefore marks j < bareBefore marks k := by
  induction marks generalizing j k with
  | nil => cases hj
  | cons first marks ih =>
    cases k with
    | zero => cases hlt
    | succ k =>
      cases j with
      | zero =>
        cases hj
        rw [bareBefore_cons, hbare]
        exact Nat.lt_of_lt_of_le Nat.one_pos (Nat.le_add_right 1 _)
      | succ j =>
        rw [bareBefore_cons, bareBefore_cons]
        exact Nat.add_lt_add_left (ih hj (Nat.lt_of_succ_lt_succ hlt)) _

/--
No other mark has the name that is generated for a mark.
-/
theorem name_ne {marks : List MarkLine} (hnamed : ∀ m ∈ marks, m.isBare = false → ∀ i, m.written ≠ Construct.generatedMark i)
    {j k : Nat} {m other : MarkLine} (hj : marks[j]? = some m) (hk : marks[k]? = some other) (hbare : m.isBare = true)
    (hne : j ≠ k) : m.name (bareBefore marks j) ≠ other.name (bareBefore marks k) := by
  rw [MarkLine.name, if_pos hbare, MarkLine.name]
  split
  . next hother =>
    intro hsame
    have hcount := generatedMark_injective hsame
    obtain hlt | hlt := Nat.lt_or_gt_of_ne hne
    . have := bareBefore_lt hj hbare hlt
      omega
    . have := bareBefore_lt hk hother hlt
      omega
  . next hother =>
    exact (hnamed other (List.mem_of_getElem? hk) (Bool.eq_false_iff.2 hother) _).symm

/--
The save marks of a script that has been read from lines with these marks.
-/
structure HasMarks (c : Cursor) (marks : List MarkLine) : Prop where
  listed : c.saveMarks = marks.mapIdx fun j m => m.entry (bareBefore marks j)
  distinct : ∀ {j k : Nat} {m other : MarkLine}, marks[j]? = some m → marks[k]? = some other → m.isBare = true → j ≠ k →
    m.name (bareBefore marks j) ≠ other.name (bareBefore marks k)
  reached : ∀ {i : Nat} {m : MarkLine}, (marks.filter MarkLine.isBare)[i]? = some m →
    ∃ before behind, c.tags = before ++ m.tag i :: behind ∧ marks[before.countP isMark]? = some m ∧
      c.goToSaveMark (Construct.generatedMark i) = .ok { c.restart with point := before.length + 1 }

section Cursor

variable {c : Cursor} {marks : List MarkLine}

theorem saveMarks_eq (h : c.tags.filter isMark = markTags 0 marks)
    : c.saveMarks = marks.mapIdx fun j m => m.entry (bareBefore marks j) := by
  have hmap : c.saveMarks = (c.tags.filter isMark).map fun tag => {
      name := (tag.string? "name").getD ""
      comment := (tag.string? "comment").getD ""
      line := tag.line } := rfl
  rw [hmap, h]
  apply List.ext_getElem?
  intro j
  rw [List.getElem?_map, getElem?_markTags, List.getElem?_mapIdx, Nat.zero_add]
  cases marks[j]? <;> rfl

theorem goToSaveMark_eq_ok {name : String} {d : Cursor} (h : c.goToSaveMark name = .ok d)
    : ∃ before tag behind, c.tags = before ++ tag :: behind ∧ Cursor.isSaveMark name tag = true ∧
        d = { c.restart with point := before.length + 1 } := by
  obtain ⟨hsame, ⟨hmacros, hif, hloops, hlatest⟩, before, tag, behind, htags, _, htag, hpoint, _⟩ :=
    Cursor.landsBehind_of_goToFirst h
  refine ⟨before, tag, behind, htags, htag, ?_⟩
  cases d
  cases hsame
  cases hmacros
  cases hif
  cases hloops
  cases hlatest
  cases hpoint
  rfl

/--
A jump to a generated name leads behind the mark that it has been generated for.
-/
theorem goToSaveMark_generatedMark (h : c.tags.filter isMark = markTags 0 marks)
    (hnamed : ∀ m ∈ marks, m.isBare = false → ∀ i, m.written ≠ Construct.generatedMark i)
    {j : Nat} {m : MarkLine} (hj : marks[j]? = some m) (hbare : m.isBare = true)
    : ∃ before behind, c.tags = before ++ m.tag (bareBefore marks j) :: behind ∧ before.countP isMark = j ∧
        c.goToSaveMark (Construct.generatedMark (bareBefore marks j))
          = .ok { c.restart with point := before.length + 1 } := by
  have hname : m.name (bareBefore marks j) = Construct.generatedMark (bareBefore marks j) := if_pos hbare
  have hmem : m.tag (bareBefore marks j) ∈ c.tags.filter isMark := by
    rw [h]
    apply List.mem_of_getElem? (i := j)
    rw [getElem?_markTags, hj, Nat.zero_add]
    rfl
  have hexists : ∃ tag ∈ c.tags, Cursor.isSaveMark (Construct.generatedMark (bareBefore marks j)) tag = true := by
    refine ⟨_, (List.mem_filter.1 hmem).1, ?_⟩
    rw [← hname]
    exact Bool.and_eq_true_iff.2 ⟨rfl, beq_iff_eq.2 rfl⟩
  obtain ⟨d, hd⟩ := Cursor.exists_goToFirst_iff.2 hexists
  obtain ⟨before, tag, behind, htags, htag, rfl⟩ := goToSaveMark_eq_ok hd
  obtain ⟨hmark, hsame⟩ : isMark tag = true ∧ _ := Bool.and_eq_true_iff.1 htag
  -- The mark that the jump has found is the only one of the name.
  have hfound : (markTags 0 marks)[before.countP isMark]? = some tag := by
    rw [← h, htags, List.filter_append, List.filter_cons_of_pos hmark, List.countP_eq_length_filter,
      List.getElem?_append_right (Nat.le_refl _), Nat.sub_self]
    rfl
  rw [getElem?_markTags, Nat.zero_add] at hfound
  obtain ⟨other, hother, rfl⟩ := Option.map_eq_some_iff.1 hfound
  have hindex : before.countP isMark = j := by
    by_contra hne
    apply name_ne hnamed hj hother hbare (Ne.symm hne)
    rw [hname]
    exact (Option.some.inj (beq_iff_eq.1 hsame)).symm
  rw [hindex] at hother htags
  cases hj.symm.trans hother
  exact ⟨before, behind, htags, hindex, hd⟩

end Cursor

/--
The save marks of a script are those of its mark lines, in their order. The marks without a name of their own are numbered
in this order, no other mark has a name that is generated, and it can be jumped to.
-/
theorem hasMarks_of_parse {grammar : Grammar} {source : String} {tags : List Tag} (h : grammar.parse source = .ok tags)
    (hnamed : ∀ m ∈ grammar.markLines source, m.isBare = false → ∀ i, m.written ≠ Construct.generatedMark i)
    (hcommands : ∀ l ∈ grammar.starts none (sourceLines source), Directive.saveMark.name ∉ grammar.commandNames l.text)
    {c : Cursor} (hc : c.tags = tags) : HasMarks c (grammar.markLines source) := by
  have hfilter := filter_isMark_of_parse h hcommands
  rw [← hc] at hfilter
  refine ⟨saveMarks_eq hfilter, name_ne hnamed, fun {i m} hi => ?_⟩
  obtain ⟨j, hj, hbare, rfl⟩ := exists_index_of_isBare hi
  obtain ⟨before, behind, htags, rfl, hjump⟩ := goToSaveMark_generatedMark hfilter hnamed hj hbare
  exact ⟨before, behind, htags, hj, hjump⟩

section Sample

/-!
A line of the script block looks like a save mark.
-/

def sampleMarked : String := "~a | b\n---\n~\n---\n~ first"

def sampleMarkedTags : List Tag := [
  .saveMark "a" "b" "a | b" 1,
  .script "~" false 2,
  .saveMark (Construct.generatedMark 0) "first" "first" 5,
  .stop 5
]

set_option maxRecDepth 4000 in
theorem parse_sampleMarked : Grammar.line.parse sampleMarked = .ok sampleMarkedTags := by
  cbv

theorem markLines_sampleMarked
    : Grammar.line.markLines sampleMarked
        = [{ number := 1, body := ['a', ' ', '|', ' ', 'b'] }, { number := 5, body := ['f', 'i', 'r', 's', 't'] }] := by
  decide +kernel

theorem named_sampleMarked
    : ∀ m ∈ Grammar.line.markLines sampleMarked, m.isBare = false → ∀ i, m.written ≠ Construct.generatedMark i := by
  rw [markLines_sampleMarked]
  intro m hm hnamed i hname
  have hstart : m.written.toList.head? = some '_' := by
    rw [hname, Construct.generatedMark, String.toList_append, String.toList_append]
    rfl
  rcases List.mem_cons.1 hm with rfl | hm
  . revert hstart
    decide
  . cases List.mem_singleton.1 hm
    revert hnamed
    decide

theorem hasMarks_sampleMarked
    : let c : Cursor := { file := "start", tags := sampleMarkedTags, maxDepth := 4 }
      HasMarks c (Grammar.line.markLines sampleMarked) ∧
        c.goToSaveMark (Construct.generatedMark 0) = .ok { c with point := 3 } := by
  have hcommands : ∀ l ∈ Grammar.line.starts none (sourceLines sampleMarked),
      Directive.saveMark.name ∉ Grammar.line.commandNames l.text := by
    decide +kernel
  exact ⟨hasMarks_of_parse parse_sampleMarked named_sampleMarked hcommands rfl, rfl⟩

end Sample

end Grammar
end VisualNovel
