import Mathlib.Data.List.TakeDrop
import VisualNovel.Proofs.Parsing.Agreement
import VisualNovel.Proofs.Writing.Blocks

/-!
This module contains that the parameters of a command may be laid out over several lines. Inside the parentheses around
them line breaks do not matter, and the closing brace on the last line ends the first statement at the earliest.
-/

namespace VisualNovel
namespace Expr

/-! ### Tokens with other line breaks -/

section Tokens

variable {init others behind : List Token} {t u : Token}

theorem rightBrace_mem_of_nested {read rest : List Token} {more : List TokenKind} (h : Nested (read.map Token.kind))
    (hlength : rest.length < (read ++ rest).length)
    (hall : (read ++ rest).map Token.kind = .punct .leftParen :: .punct .leftBrace :: more)
    : .punct .rightBrace ∈ read.map Token.kind := by
  have hparens := (h.count_take_le (show Punct.leftParen.closing? = some .rightParen from rfl)).1
  have hbraces := (h.count_take_le (show Punct.leftBrace.closing? = some .rightBrace from rfl)).1
  match read with
  | [] => simp at hlength
  | [t] =>
    obtain ⟨ht, -⟩ := List.cons.inj hall
    rw [List.map_singleton, ht] at hparens
    cases hparens
  | t :: u :: read =>
    obtain ⟨-, hbehind⟩ := List.cons.inj hall
    obtain ⟨hu, -⟩ := List.cons.inj hbehind
    rw [← List.count_pos_iff, hbraces, List.count_pos_iff, ← hu]
    simp

/--
The first of the statements goes through the first closing brace, so only the line breaks behind it count.
-/
theorem readStatements_relaid {more : List TokenKind}
    (hall : (init ++ t :: behind).map Token.kind = .punct .leftParen :: .punct .leftBrace :: more)
    (hopen : .punct .rightBrace ∉ init.map Token.kind) (hothers : others.map Token.kind = init.map Token.kind)
    (hu : u.kind = t.kind) {statements : List Expr} (h : readStatements (init ++ t :: behind) = .ok statements)
    : readStatements (others ++ u :: behind) = .ok statements := by
  obtain ⟨opening, tail, hcons, hopening, htail⟩ := List.map_eq_cons_iff.1 hall
  have hfirst : ∃ e rest, Reads (readAssignment (init ++ t :: behind)) e rest := by
    rw [hcons] at h ⊢
    exact exists_of_readStatements (by rw [hopening]; decide) h
  obtain ⟨e, rest, hread⟩ := hfirst
  obtain ⟨kinds, hrecognized⟩ := recognized_assignment hread
  obtain ⟨read, heq, rfl⟩ := hrecognized.spelled.exists_append
  have hbrace := rightBrace_mem_of_nested hrecognized.nested (heq ▸ hread.length_lt) (heq ▸ hall)
  obtain ⟨mid, rfl, rfl⟩ : ∃ mid, read = init ++ t :: mid ∧ behind = mid ++ rest := by
    obtain ⟨a, hinit, hrest⟩ | ⟨a, hinit, -⟩ := List.append_eq_append_iff.1 heq
    . cases a with
      | nil =>
        rw [List.append_nil] at hinit
        exact absurd (hinit ▸ hbrace) hopen
      | cons _ mid =>
        cases hrest
        exact ⟨mid, hinit, rfl⟩
    . rw [hinit, List.map_append] at hopen
      exact absurd (List.mem_append_left _ hbrace) hopen
  have hspelled := Spelled.of_append (others ++ u :: mid) rest
  have hkinds : (others ++ u :: mid).map Token.kind = (init ++ t :: mid).map Token.kind := by
    rw [List.map_append, List.map_append, List.map_cons, List.map_cons, hothers, hu]
  rw [hkinds, List.append_assoc] at hspelled
  rw [readStatements_of_reads hread] at h
  rw [← h]
  exact readStatements_of_reads (hrecognized.spells hspelled hrecognized.quiet)

end Tokens

/-! ### Texts with other blanks -/

section Texts

variable {text other last : List Char} {kinds : List TokenKind}

/--
The first token alone tells whether a line break has been passed before it.
-/
theorem exists_tokenize_again {c : Char} (hc : Text.isBlank c = false) {newline : Bool} {cs : List Char} {ts : List Token}
    (h : tokenize newline (c :: cs) = .ok ts)
    : ∃ t behind, ts = t :: behind ∧ ∀ again, ∃ u, u.kind = t.kind ∧ tokenize again (c :: cs) = .ok (u :: behind) := by
  rw [tokenize_of_not_blank hc] at h
  cases hread : readToken c cs with
  | error fault =>
    rw [hread] at h
    cases h
  | ok read =>
    rw [hread] at h
    dsimp only at h
    cases hbehind : tokenize false read.rest with
    | error fault =>
      rw [hbehind] at h
      cases h
    | ok behind =>
      rw [hbehind] at h
      cases h
      refine ⟨_, behind, rfl, fun again => ⟨{ kind := read.value, newlineBefore := again }, rfl, ?_⟩⟩
      rw [tokenize_of_not_blank hc, hread]
      dsimp only
      rw [hbehind]
      rfl

/--
The parameters have the same value if they have the same tokens up to their last line, and this line is the same.
-/
theorem evaluateClosed_relaid (h : Passage text kinds (last ++ [')'])) (hother : Passage other kinds (last ++ [')']))
    (hopens : (text ++ last).head? = some '\x7b') (hopen : .punct .rightBrace ∉ kinds) (hne : last ≠ [])
    (hlast : ∀ c ∈ last.head?, Text.isBlank c = false) {value : Value}
    (hvalue : evaluateClosed ("(" ++ String.ofList (text ++ last) ++ ")") = .ok value)
    : evaluateClosed ("(" ++ String.ofList (other ++ last) ++ ")") = .ok value := by
  obtain ⟨e, hparse, heval⟩ := evaluateClosed_eq_ok_iff.1 hvalue
  obtain ⟨all, statements, hall, hstatements⟩ := exists_of_parse hparse
  obtain ⟨c, last, rfl⟩ := List.exists_cons_of_ne_nil hne
  obtain ⟨after, init, hinit, htext⟩ := ((Passage.cons_iff lexes_leftParen).2 ⟨_, rfl, h⟩).tokenize false
  obtain ⟨again, others, hothers, hother⟩ := ((Passage.cons_iff lexes_leftParen).2 ⟨_, rfl, hother⟩).tokenize false
  simp only [List.cons_append] at htext hother
  have hsource (text : List Char) : ("(" ++ String.ofList (text ++ c :: last) ++ ")").toList
      = '(' :: (text ++ c :: (last ++ [')'])) := by
    simp
  have hkinds : ∃ more, all.map Token.kind = .punct .leftParen :: .punct .leftBrace :: more := by
    obtain ⟨tail, htail⟩ := List.head?_eq_some_iff.1 hopens
    have hpassage := passage_of_tokenize hall
    rw [toList_wrapped, String.toList_ofList, htail] at hpassage
    obtain ⟨_, hbehind, hpassage⟩ := (Passage.cons_iff lexes_leftParen).1 hpassage
    obtain ⟨more, rfl, _⟩ := (Passage.cons_iff lexes_leftBrace).1 hpassage
    exact ⟨more, hbehind⟩
  obtain ⟨more, hkinds⟩ := hkinds
  have htokens := hall
  rw [hsource, htext] at hall
  cases hlastline : tokenize after (c :: (last ++ [')'])) with
  | error fault =>
    rw [hlastline] at hall
    cases hall
  | ok ts =>
    rw [hlastline] at hall
    obtain ⟨t, behind, rfl, hagain⟩ := exists_tokenize_again (hlast c rfl) hlastline
    obtain ⟨u, hu, hbehind⟩ := hagain again
    cases hall
    have hinside : .punct .rightBrace ∉ init.map Token.kind := by
      rw [hinit]
      simpa using hopen
    have hrelaid := readStatements_relaid hkinds hinside (hothers.trans hinit.symm) hu hstatements
    have hparsed : parse ("(" ++ String.ofList (other ++ c :: last) ++ ")") = parseTokens (others ++ u :: behind) := by
      apply parse_of_tokenize
      rw [hsource, hother, hbehind]
      rfl
    rw [parse_of_tokenize htokens, parseTokens_eq (hstatements.trans hrelaid.symm)] at hparse
    exact evaluateClosed_eq_ok_iff.2 ⟨e, hparsed.trans hparse, heval⟩

end Texts

/-! ### Texts in pieces -/

/--
Each of the pieces is divided into tokens and blanks up to where the next one begins, or the last one.
-/
def CutBetweenTokens : List (List Char) → List Char → Prop
  | [], _ => True
  | piece :: pieces, last => (∃ kinds, Passage piece kinds (pieces.flatten ++ last)) ∧ CutBetweenTokens pieces last

section Pieces

variable {pieces : List (List Char)} {last : List Char}

/--
Pieces on one line and pieces on lines of their own have the same tokens.
-/
theorem CutBetweenTokens.exists_kinds (h : CutBetweenTokens pieces last)
    : ∃ kinds, (∀ other, BreaksOff last other → Passage pieces.flatten kinds other) ∧
        ∀ other, Passage (pieces.flatMap (Text.trim · ++ ['\n'])) kinds other := by
  induction pieces with
  | nil => exact ⟨[], fun other _ => .nil other, fun other => .nil other⟩
  | cons piece pieces ih =>
    obtain ⟨⟨kinds, hpiece⟩, hpieces⟩ := h
    obtain ⟨more, hline, hlines⟩ := ih hpieces
    refine ⟨kinds ++ more, fun other hother => ?_, fun other => ?_⟩
    . rw [List.flatten_cons]
      exact (hpiece.breaksOff (hother.append pieces.flatten)).append (hline other hother)
    . rw [List.flatMap_cons, List.append_assoc]
      refine (hpiece.trim ?_).append (.blank (by decide) (hlines other))
      rintro _ ⟨⟩
      decide

theorem joinLines_concat (lines : List (List Char)) (last : List Char)
    : Construct.joinLines (lines ++ [last]) = lines.flatMap (· ++ ['\n']) ++ last := by
  induction lines with
  | nil => rfl
  | cons line lines ih =>
    rw [List.flatMap_cons, List.append_assoc, List.append_assoc, ← ih]
    cases lines <;> rfl

theorem trim_leftBrace (more : List Char) : Text.trim ('\x7b' :: more) = '\x7b' :: Text.trimEnd more :=
  @Grammar.trim_mark [] nofun '\x7b' (by decide) more

/--
The parameters have the same value on one line and on several, if only the last one has a closing brace.
-/
theorem evaluateClosed_split_iff {first : List Char} (hcut : CutBetweenTokens (first :: pieces) last)
    (hopens : first.head? = some '\x7b') (hopen : ∀ piece ∈ first :: pieces, '\x7d' ∉ piece) (hcloses : '\x7d' ∈ last)
    (value : Value)
    : evaluateClosed ("(" ++ String.ofList (Construct.joinLines ((first :: pieces ++ [last]).map Text.trim)) ++ ")")
          = .ok value
        ↔
      evaluateClosed ("(" ++ String.ofList (Text.trim ((first :: pieces).flatten ++ last)) ++ ")") = .ok value := by
  obtain ⟨kinds, hline, hlines⟩ := hcut.exists_kinds
  obtain ⟨before, behind, heq, hbefore, hbehind⟩ := Text.exists_trim last
  have hmem : '\x7d' ∈ Text.trim last := (Grammar.mem_trim_iff (by decide) last).2 hcloses
  have hhead : ∀ c ∈ (Text.trim last).head?, Text.isBlank c = false := fun c => Text.not_blank_of_head_trim
  obtain ⟨more, rfl⟩ := List.head?_eq_some_iff.1 hopens
  -- on several lines
  have hsplit : Construct.joinLines ((('\x7b' :: more) :: pieces ++ [last]).map Text.trim)
      = (('\x7b' :: more) :: pieces).flatMap (Text.trim · ++ ['\n']) ++ Text.trim last := by
    rw [List.map_append, List.map_singleton, joinLines_concat, List.flatMap_map]
  -- on one line
  have hone : Text.trim ((('\x7b' :: more) :: pieces).flatten ++ last)
      = ((('\x7b' :: more) :: pieces).flatten ++ before) ++ Text.trim last := by
    have hwhole : (('\x7b' :: more) :: pieces).flatten ++ last
        = [] ++ (((('\x7b' :: more) :: pieces).flatten ++ before ++ Text.trim last) ++ behind) := by
      simp only [List.nil_append, List.append_assoc, ← heq]
    rw [hwhole]
    apply Text.trim_of_margins (by simp) hbehind
    . rintro _ ⟨⟩
      decide
    . intro c hc
      rw [List.getLast?_append_of_ne_nil _ (List.ne_nil_of_mem hmem)] at hc
      exact Text.not_blank_of_last_trim hc
  have hline : Passage ((('\x7b' :: more) :: pieces).flatten ++ before) kinds (Text.trim last ++ [')']) := by
    have hother : BreaksOff last (before ++ (Text.trim last ++ [')'])) := by
      refine ⟨before ++ Text.trim last, behind, [')'], ?_, (List.append_assoc ..).symm, by decide⟩
      rw [List.append_assoc, ← heq]
    have hpassage := (hline _ hother).append (.of_blanks hbefore _)
    rwa [List.append_nil] at hpassage
  have hinside : .punct .rightBrace ∉ kinds := by
    refine (hlines []).punct_not_mem (c := '\x7d') (by decide) fun hin => ?_
    obtain ⟨piece, hpiece, hin⟩ := List.mem_flatMap.1 hin
    rw [List.mem_append, Grammar.mem_trim_iff (by decide)] at hin
    obtain hin | hin := hin
    . exact hopen piece hpiece hin
    . cases List.mem_singleton.1 hin
  rw [hsplit, hone]
  constructor
  . apply evaluateClosed_relaid (hlines _) hline ?_ hinside (List.ne_nil_of_mem hmem) hhead
    rw [List.flatMap_cons, trim_leftBrace]
    rfl
  . exact evaluateClosed_relaid hline (hlines _) rfl hinside (List.ne_nil_of_mem hmem) hhead

end Pieces

end Expr
namespace Grammar
namespace Line

/-! ### Commands on one line and on several -/

/--
The line is a command of this name with these parameters. There may be blanks between its parts and around them.
-/
inductive WritesCommand (name parameters : List Char) : List Char → Prop where
  | intro {margin gap space behind : List Char} (hmargin : ∀ c ∈ margin, Text.isBlank c) (hgap : ∀ c ∈ gap, Text.isBlank c)
    (hspace : ∀ c ∈ space, Text.isBlank c) (hbehind : ∀ c ∈ behind, Text.isBlank c)
    : WritesCommand name parameters
        (margin ++ ((';' :: (gap ++ (name ++ (space ++ Text.trim parameters)))) ++ behind))

/--
The name of a command: it is not empty, and neither a blank nor a brace is in it.
-/
structure IsName (name : List Char) : Prop where
  ne_nil : name ≠ []
  parts : ∀ c ∈ name, Text.isBlank c = false ∧ c ≠ '\x7b'

section Written

variable {name parameters text : List Char}

theorem splitCommand?_written (hname : IsName name) {gap space : List Char} (hgap : ∀ c ∈ gap, Text.isBlank c)
    (hspace : ∀ c ∈ space, Text.isBlank c) (hopens : (Text.trim parameters).head? = some '\x7b')
    : splitCommand? (gap ++ (name ++ (space ++ Text.trim parameters))) = some (name, Text.trim parameters) := by
  obtain ⟨c, more, rfl⟩ := List.exists_cons_of_ne_nil hname.ne_nil
  have hstart : ∀ d ∈ (c :: more ++ (space ++ Text.trim parameters)).head?, Text.isBlank d = false := by
    rintro _ ⟨⟩
    exact (hname.parts c List.mem_cons_self).1
  have hparts : ∀ d ∈ c :: more, (!Text.isBlank d && d != '\x7b') = true := by
    intro d hd
    obtain ⟨hblank, hne⟩ := hname.parts d hd
    simp [hblank, hne]
  have hstop : ∀ d ∈ (space ++ Text.trim parameters).head?, (!Text.isBlank d && d != '\x7b') = false := by
    intro d hd
    cases space with
    | nil =>
      rw [List.nil_append, hopens] at hd
      cases hd
      decide
    | cons e space =>
      cases hd
      rw [hspace d List.mem_cons_self]
      rfl
  have htrim : Text.trim (space ++ Text.trim parameters) = Text.trim parameters := by
    have hmargins := @Text.trim_of_margins space (Text.trim parameters) [] hspace (by simp)
      (fun c => Text.not_blank_of_head_trim) (fun c => Text.not_blank_of_last_trim)
    rwa [List.append_nil] at hmargins
  unfold splitCommand?
  rw [Text.trimStart, Text.dropWhile_append_of_head hgap hstart]
  simp only [List.span_eq_takeWhile_dropWhile, Text.takeWhile_append_of_head hparts hstop,
    Text.dropWhile_append_of_head hparts hstop, htrim]

theorem WritesCommand.read (h : WritesCommand name parameters text) (hname : IsName name)
    (hopens : (Text.trim parameters).head? = some '\x7b')
    : ∃ written, splitCommand? written = some (name, Text.trim parameters) ∧
        ∀ marks number following, Line.read marks { number, text } following
          = command marks { number, text } following written := by
  obtain @⟨margin, gap, space, behind, hmargin, hgap, hspace, hbehind⟩ := h
  refine ⟨_, splitCommand?_written hname hgap hspace hopens, fun marks number following => ?_⟩
  have hne : Text.trim parameters ≠ [] := by
    intro hnil
    rw [hnil] at hopens
    cases hopens
  have hhead : ∀ c ∈ (';' :: (gap ++ (name ++ (space ++ Text.trim parameters)))).head?, Text.isBlank c = false := by
    rintro _ ⟨⟩
    decide
  have hlast : ∀ c ∈ (';' :: (gap ++ (name ++ (space ++ Text.trim parameters)))).getLast?, Text.isBlank c = false := by
    intro c hc
    rw [← List.cons_append, ← List.append_assoc, ← List.append_assoc, List.getLast?_append_of_ne_nil _ hne] at hc
    exact Text.not_blank_of_last_trim hc
  unfold Line.read SourceLine.trimmed
  dsimp only
  rw [Text.trim_of_margins hmargin hbehind hhead hlast]
  rfl

/--
The construct is the command with these values and nothing else.
-/
def Yields {following : List SourceLine} (read : Except ParseError (Construct following)) (name body : List Char)
    (values : Fields) (line marks : Nat) (rest : List SourceLine) : Prop :=
  ∃ c, read = .ok c ∧ c.marks = marks ∧ c.rest = rest ∧
    c.tags = [.make (String.ofList name) (Fields.insert Tag.bodyKey (.string (String.ofList body)) values) line]

/--
A command yields the entries of its parameters, and it is refused only if they are not an object.
-/
theorem Joined.yields_or_error {written block : List Char} {following rest : List SourceLine}
    (h : Joined following written name block rest) (marks : Nat) (first : SourceLine)
    : (∀ values, Expr.evaluateClosed ("(" ++ literal block ++ ")") = .ok (.object values) →
          Yields (command marks first following written) name block values first.number marks rest) ∧
        ((∀ values, Expr.evaluateClosed ("(" ++ literal block ++ ")") ≠ .ok (.object values)) →
          ∃ e, command marks first following written = .error e) := by
  obtain ⟨le, hcommand⟩ := h.command_eq marks first
  rw [hcommand]
  constructor
  . intro values hvalues
    rw [commandTag_eq_ok_iff.2 ⟨values, hvalues, rfl⟩]
    exact ⟨_, rfl, rfl, rfl, rfl⟩
  . intro hnone
    cases htag : commandTag (String.ofList name) block first.number with
    | error e => exact ⟨e, rfl⟩
    | ok tag =>
      obtain ⟨values, hvalues, -⟩ := commandTag_eq_ok_iff.1 htag
      exact absurd hvalues (hnone values)

section Laid

variable {first last : List Char} {inner : List (List Char)} {line other closing : SourceLine} {lines : List SourceLine}

/--
The lines are joined up to the last one, which is the first with a closing brace.
-/
theorem joined_laid {written more : List Char} (hsplit : splitCommand? written = some (name, Text.trim ('\x7b' :: more)))
    (hopen : ∀ piece ∈ ('\x7b' :: more) :: inner, '\x7d' ∉ piece) (hcloses : '\x7d' ∈ last)
    (hlines : lines.map SourceLine.trimmed = inner.map Text.trim) (hclosing : closing.trimmed = Text.trim last)
    (rest : List SourceLine)
    : Joined (lines ++ closing :: rest) written name
        (Construct.joinLines ((('\x7b' :: more) :: inner ++ [last]).map Text.trim)) rest := by
  have hmem (l : SourceLine) : '\x7d' ∈ l.trimmed ↔ '\x7d' ∈ l.text := mem_trim_iff (by decide) l.text
  have hbody : (('\x7b' :: more) :: inner ++ [last]).map Text.trim
      = Text.trim ('\x7b' :: more) :: (lines ++ [closing]).map SourceLine.trimmed := by
    simp only [List.map_append, List.map_cons, List.map_nil, List.cons_append, hlines, hclosing]
  rw [hbody]
  refine .through hsplit (by rw [Expr.trim_leftBrace]; rfl) ?_ rfl (fun l hl hin => ?_) ?_
  . rw [mem_trim_iff (by decide)]
    exact hopen _ List.mem_cons_self
  . have htrimmed := List.mem_map_of_mem (f := SourceLine.trimmed) hl
    rw [hlines] at htrimmed
    obtain ⟨piece, hpiece, heq⟩ := List.mem_map.1 htrimmed
    rw [← hmem, ← heq, mem_trim_iff (by decide)] at hin
    exact hopen piece (List.mem_cons_of_mem _ hpiece) hin
  . rwa [← hmem, hclosing, mem_trim_iff (by decide)]

/--
A command whose parameters are cut between tokens and laid out over several lines means the same as on a single line, up
to the text of its body: it yields the same values, or both are refused. Its last line is the first one with a closing
brace.
-/
theorem read_laid_out (hname : IsName name) (hcut : Expr.CutBetweenTokens (first :: inner) last)
    (hopens : first.head? = some '\x7b') (hopen : ∀ piece ∈ first :: inner, '\x7d' ∉ piece) (hcloses : '\x7d' ∈ last)
    (hline : WritesCommand name first line.text) (hlines : lines.map SourceLine.trimmed = inner.map Text.trim)
    (hclosing : closing.trimmed = Text.trim last)
    (hother : WritesCommand name ((first :: inner).flatten ++ last) other.text) (marks : Nat)
    (rest following : List SourceLine)
    : let body := Construct.joinLines ((first :: inner ++ [last]).map Text.trim)
      let whole := Text.trim ((first :: inner).flatten ++ last)
      let laid := Line.read marks line (lines ++ closing :: rest)
      let single := Line.read marks other following
      (∃ values, Yields laid name body values line.number marks rest ∧
          Yields single name whole values other.number marks following) ∨
        (∃ e, laid = .error e) ∧ ∃ e, single = .error e := by
  intro body whole laid single
  obtain ⟨more, rfl⟩ := List.head?_eq_some_iff.1 hopens
  -- each of the two texts starts with the opening brace
  have hwhole : whole = '\x7b' :: Text.trimEnd (more ++ inner.flatten ++ last) := by
    rw [← Expr.trim_leftBrace]
    rfl
  obtain ⟨written, hsplit, hread⟩ := hline.read hname (by rw [Expr.trim_leftBrace]; rfl)
  obtain ⟨written', hsplit', hread'⟩ := hother.read hname (by rw [show Text.trim _ = _ from hwhole]; rfl)
  have hlaid : Joined (lines ++ closing :: rest) written name body rest :=
    joined_laid hsplit hopen hcloses hlines hclosing rest
  have hsingle : Joined following written' name whole following := by
    refine .single hsplit' fun _ => ?_
    rw [mem_trim_iff (by decide)]
    exact List.mem_append_right _ hcloses
  have hbody : literal body = String.ofList body := by
    have hhead : body.head? = some '\x7b' := by
      have hbody : body = Construct.joinLines (Text.trim ('\x7b' :: more) :: (inner ++ [last]).map Text.trim) := rfl
      rw [hbody, Expr.trim_leftBrace]
      cases (inner ++ [last]).map Text.trim <;> rfl
    simp [literal, hhead]
  have hbody' : literal whole = String.ofList whole := by
    simp [literal, hwhole]
  obtain ⟨hyields, hrefused⟩ := hlaid.yields_or_error marks line
  obtain ⟨hyields', hrefused'⟩ := hsingle.yields_or_error marks other
  have heval (values : Fields) := Expr.evaluateClosed_split_iff hcut rfl hopen hcloses (.object values)
  rw [hbody] at hyields hrefused
  rw [hbody'] at hyields' hrefused'
  rw [show laid = _ from hread marks line.number _, show single = _ from hread' marks other.number _]
  by_cases hvalues : ∃ values, Expr.evaluateClosed ("(" ++ String.ofList body ++ ")") = .ok (.object values)
  . obtain ⟨values, hvalues⟩ := hvalues
    exact .inl ⟨values, hyields values hvalues, hyields' values ((heval values).1 hvalues)⟩
  . rw [not_exists] at hvalues
    exact .inr ⟨hrefused hvalues, hrefused' fun values h => hvalues values ((heval values).2 h)⟩

end Laid

section Sample

def sampleOpening : List Char :=
  "\x7bk:".toList

def sampleInner : List (List Char) :=
  [[], " true".toList]

def sampleLast : List Char :=
  " \x7d".toList

def sampleLine : SourceLine :=
  { number := 1, text := ";cmd".toList ++ sampleOpening }

def sampleLines : List SourceLine :=
  [{ number := 2, text := ['\t'] }, { number := 3, text := "true".toList }]

def sampleClosing : SourceLine :=
  { number := 4, text := "\x7d ".toList }

def sampleSingle : SourceLine :=
  { number := 1, text := "; cmd ".toList ++ ((sampleOpening :: sampleInner).flatten ++ sampleLast) }

theorem tokenize_sampleOpening
    : Expr.tokenize false sampleOpening
        = .ok [⟨.punct .leftBrace, false⟩, ⟨.name "k", false⟩, ⟨.punct .colon, false⟩] := by
  apply eq_ok_of_toOption
  decide +kernel

theorem tokenize_sampleValue : Expr.tokenize false " true".toList = .ok [⟨.name "true", false⟩] := by
  apply eq_ok_of_toOption
  decide +kernel

theorem cutBetweenTokens_sample : Expr.CutBetweenTokens (sampleOpening :: sampleInner) sampleLast := by
  have hopening := Expr.passage_of_tokenize tokenize_sampleOpening
  have hvalue := Expr.passage_of_tokenize tokenize_sampleValue
  exact ⟨⟨_, hopening.breaksOff ⟨[], [], _, rfl, rfl, by decide⟩⟩, ⟨[], .nil _⟩,
    ⟨_, hvalue.breaksOff ⟨[], [], _, rfl, rfl, by decide⟩⟩, trivial⟩

theorem tokenize_sampleWhole
    : Expr.tokenize false
          ("(" ++ literal (Text.trim ((sampleOpening :: sampleInner).flatten ++ sampleLast)) ++ ")").toList
        =
      .ok [⟨.punct .leftParen, false⟩, ⟨.punct .leftBrace, false⟩, ⟨.name "k", false⟩, ⟨.punct .colon, false⟩,
        ⟨.name "true", false⟩, ⟨.punct .rightBrace, false⟩, ⟨.punct .rightParen, false⟩] := by
  apply eq_ok_of_toOption
  decide +kernel

theorem evaluateClosed_sample
    : Expr.evaluateClosed ("(" ++ literal (Text.trim ((sampleOpening :: sampleInner).flatten ++ sampleLast)) ++ ")")
        = .ok (.object [("k", .bool true)]) := by
  refine Expr.evaluateClosed_eq_ok_iff.2 ⟨.object [("k", .literal (.bool true))], ?_, rfl⟩
  rw [Expr.parse_of_tokenize tokenize_sampleWhole]
  cbv

theorem read_sample_laid_out
    : let body := Construct.joinLines ((sampleOpening :: sampleInner ++ [sampleLast]).map Text.trim)
      let whole := Text.trim ((sampleOpening :: sampleInner).flatten ++ sampleLast)
      ∃ values,
        Yields (Line.read 0 sampleLine (sampleLines ++ sampleClosing :: [])) "cmd".toList body values 1 0 [] ∧
          Yields (Line.read 0 sampleSingle []) "cmd".toList whole values 1 0 [] := by
  intro body whole
  have hname : IsName "cmd".toList := ⟨by decide, by decide⟩
  have hline : WritesCommand "cmd".toList sampleOpening sampleLine.text :=
    @WritesCommand.intro _ _ [] [] [] [] (by decide) (by decide) (by decide) (by decide)
  have hother : WritesCommand "cmd".toList ((sampleOpening :: sampleInner).flatten ++ sampleLast) sampleSingle.text :=
    @WritesCommand.intro _ _ [] [' '] [' '] [] (by decide) (by decide) (by decide) (by decide)
  have hlines : sampleLines.map SourceLine.trimmed = sampleInner.map Text.trim := by decide
  have hclosing : sampleClosing.trimmed = Text.trim sampleLast := by decide
  obtain h | ⟨-, e, he⟩ := read_laid_out hname cutBetweenTokens_sample rfl (by decide) (by decide) hline
    hlines hclosing hother 0 [] []
  . exact h
  . obtain ⟨written, hsplit, hread⟩ := hother.read hname (by decide)
    have hjoined : Joined [] written "cmd".toList whole [] := .single hsplit (by decide)
    obtain ⟨c, hc, -⟩ := (hjoined.yields_or_error 0 sampleSingle).1 _ evaluateClosed_sample
    rw [hread, hc] at he
    cases he

end Sample

end Written

end Line
end Grammar
end VisualNovel
