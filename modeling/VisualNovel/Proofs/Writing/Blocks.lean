import VisualNovel.Grammar.Line
import VisualNovel.Proofs.Computation
import VisualNovel.Proofs.Recognizing.Passages
import VisualNovel.Proofs.Recognizing.Recognition

/-!
This module contains which parameters a command of the line grammar accepts. Its parameters are evaluated between
parentheses, so they are a whole expression only if none of their own parentheses closes these.
-/

namespace VisualNovel
namespace Expr

/-! ### Parentheses around a text -/

/--
No closing parenthesis is without an opening one before it.
-/
def Closed (kinds : List TokenKind) : Prop :=
  ∀ n, (kinds.take n).count (.punct .rightParen) ≤ (kinds.take n).count (.punct .leftParen)

section Wrapped

variable {opening closing : Token} (hopening : opening.kind = .punct .leftParen)
  (hclosing : closing.kind = .punct .rightParen)

include hopening hclosing

theorem readStatements_wrapped {e : Expr} {ts : List Token} (h : Reads (readAssignment ts) e [])
    : readStatements (opening :: (ts ++ [closing])) = .ok [e] ∧ Closed (ts.map Token.kind) := by
  obtain ⟨kinds, h⟩ := recognized_assignment h
  obtain ⟨read, rfl, rfl⟩ := h.spelled.exists_append
  have hspelled := Spelled.of_append (opening :: (read ++ [closing])) []
  rw [List.append_nil, List.map_cons, List.map_append, List.map_singleton, hopening, hclosing] at hspelled
  have hread := (spells_paren h.spells).spells.statement hspelled quiet_nil
  rw [List.append_nil]
  exact ⟨readStatements_single hread, (h.nested.count_take_le rfl).2⟩

/--
Tokens that do not close the parenthesis before them are read as a whole.
-/
theorem exists_of_readStatements_wrapped {statements : List Expr} {ts : List Token}
    (h : readStatements (opening :: (ts ++ [closing])) = .ok statements) (hclosed : Closed (ts.map Token.kind))
    : ∃ e, statements = [e] ∧ Reads (readAssignment ts) e [] := by
  have hsemicolon : opening.kind ≠ .punct .semicolon := by
    rw [hopening]
    decide
  obtain ⟨_, _, hfirst⟩ := exists_of_readStatements hsemicolon h
  obtain ⟨inner, last, mid, hlast, hinner⟩ := exists_of_reads_leftParen hopening hfirst
  obtain ⟨kinds, hinner⟩ := recognized_assignment hinner
  obtain ⟨read, heq, rfl⟩ := hinner.spelled.exists_append
  have hpair : Punct.leftParen.closing? = some .rightParen := rfl
  have hbalanced := (hinner.nested.count_take_le hpair).1
  have hread : read = ts := by
    obtain ⟨a, hread, ha⟩ | ⟨a, hts, ha⟩ := List.append_eq_append_iff.1 heq
    . cases a with
      | nil => simpa using hread
      | cons _ a => simp at ha
    . cases a with
      | nil => simpa using hts.symm
      | cons _ a =>
        -- the parenthesis behind the first part would close the one before it
        cases ha
        have hcount := hclosed (read.length + 1)
        rw [hts, List.map_append, List.map_cons, hlast, ← List.length_map (f := Token.kind), List.take_length_add_append,
          List.take_succ_cons, List.take_zero, List.count_append, List.count_append, hbalanced] at hcount
        simp only [List.count_singleton_self, List.count_singleton] at hcount
        exact absurd hcount (by simp)
  subst hread
  have hreads : Reads (readAssignment read) inner [] := by
    have hspelled := Spelled.of_append read []
    rw [List.append_nil] at hspelled
    exact hinner.spells hspelled quiet_nil
  rw [(readStatements_wrapped hopening hclosing hreads).1] at h
  cases h
  exact ⟨inner, rfl, hreads⟩

end Wrapped

/--
The text is a single expression that has this value where no variables are visible.
-/
def Whole (source : String) (value : Value) : Prop :=
  ∃ ts e, tokenize false source.toList = .ok ts ∧ Reads (readAssignment ts) e [] ∧ ((eval e).run.run {}).1 = .ok value

/--
No parenthesis of the text closes one in front of it.
-/
def StaysInside (source : String) : Prop :=
  ∀ ts, tokenize false source.toList = .ok ts → Closed (ts.map Token.kind)

section Source

variable {source : String} {value : Value}

theorem toList_wrapped (source : String) : ("(" ++ source ++ ")").toList = '(' :: (source.toList ++ [')']) := by
  simp [String.toList_append]

theorem evaluateClosed_eq_ok_iff
    : evaluateClosed source = .ok value
        ↔
      ∃ e, parse source = .ok e ∧ ((eval e).run.run {}).1 = .ok value := by
  unfold evaluateClosed evaluate
  cases parse source with
  | error fault => simp
  | ok e =>
    dsimp only
    cases heval : (eval e).run.run {} with
    | mk result scope => cases result <;> simp [heval]

theorem parseTokens_eq {ts others : List Token} (h : readStatements ts = readStatements others)
    : parseTokens ts = parseTokens others := by
  rw [parseTokens, h, parseTokens]

theorem exists_of_parse {e : Expr} (h : parse source = .ok e)
    : ∃ ts statements, tokenize false source.toList = .ok ts ∧ readStatements ts = .ok statements := by
  obtain ⟨ts, hts, h⟩ := exists_of_bind_eq_ok h
  unfold parseTokens at h
  cases hstatements : readStatements ts with
  | error fault =>
    rw [hstatements] at h
    cases h
  | ok statements => exact ⟨ts, statements, hts, hstatements⟩

theorem parse_of_single {ts : List Token} (hts : tokenize false source.toList = .ok ts) {e : Expr}
    (h : readStatements ts = .ok [e]) : parse source = .ok e := by
  rw [parse_of_tokenize hts, parseTokens, h]
  rfl

theorem exists_of_kinds_wrapped {ts : List Token} {kinds : List TokenKind}
    (h : ts.map Token.kind = .punct .leftParen :: (kinds ++ [.punct .rightParen]))
    : ∃ opening inner closing, ts = opening :: (inner ++ [closing]) ∧ opening.kind = .punct .leftParen ∧
        inner.map Token.kind = kinds ∧ closing.kind = .punct .rightParen := by
  obtain ⟨opening, behind, rfl, hopening, hbehind⟩ := List.map_eq_cons_iff.1 h
  obtain ⟨inner, last, rfl, hinner, hlast⟩ := List.map_eq_append_iff.1 hbehind
  obtain ⟨closing, rfl, hclosing⟩ := List.map_eq_singleton_iff.1 hlast
  exact ⟨opening, inner, closing, rfl, hopening, hinner, hclosing⟩

theorem Whole.wrapped (h : Whole source value) : evaluateClosed ("(" ++ source ++ ")") = .ok value ∧ StaysInside source := by
  obtain ⟨ts, e, hts, hread, heval⟩ := h
  have hinner := Passage.concat_rightParen_iff.2 ⟨_, rfl, passage_of_tokenize hts⟩
  obtain ⟨all, hall, htokens⟩ := ((Passage.cons_iff lexes_leftParen).2 ⟨_, rfl, hinner⟩).exists_tokens false
  obtain ⟨opening, inner, closing, rfl, hopening, hkinds, hclosing⟩ := exists_of_kinds_wrapped hall
  obtain ⟨hstatements, hclosed⟩ := readStatements_wrapped hopening hclosing (hread.of_kinds hkinds)
  rw [← toList_wrapped] at htokens
  refine ⟨evaluateClosed_eq_ok_iff.2 ⟨e, parse_of_single htokens hstatements, heval⟩, fun others hothers => ?_⟩
  rw [hts] at hothers
  cases hothers
  rwa [hkinds] at hclosed

theorem whole_of_wrapped (h : evaluateClosed ("(" ++ source ++ ")") = .ok value) (hinside : StaysInside source)
    : Whole source value := by
  obtain ⟨e, hparse, heval⟩ := evaluateClosed_eq_ok_iff.1 h
  obtain ⟨all, statements, htokens, hstatements⟩ := exists_of_parse hparse
  have hpassage := passage_of_tokenize htokens
  rw [toList_wrapped] at hpassage
  obtain ⟨_, hall, hbehind⟩ := (Passage.cons_iff lexes_leftParen).1 hpassage
  obtain ⟨kinds, rfl, hsource⟩ := Passage.concat_rightParen_iff.1 hbehind
  obtain ⟨ts, rfl, hts⟩ := hsource.exists_tokens false
  obtain ⟨opening, inner, closing, rfl, hopening, hkinds, hclosing⟩ := exists_of_kinds_wrapped hall
  obtain ⟨e', rfl, hread⟩ := exists_of_readStatements_wrapped hopening hclosing hstatements (hkinds ▸ hinside ts hts)
  rw [parse_of_single htokens hstatements] at hparse
  cases hparse
  exact ⟨ts, e, hts, hread.of_kinds hkinds.symm, heval⟩

end Source

end Expr

namespace Grammar
namespace Line

/-! ### Commands -/

/--
The name and the joined parameters of a command, and the lines behind it. Parameters that start with a brace go on
through the first line with a closing brace.
-/
inductive Joined (following : List SourceLine) (written : List Char)
    : List Char → List Char → List SourceLine → Prop where
  | single {name block : List Char} (h : splitCommand? written = some (name, block))
    (hcloses : block.head? = some '\x7b' → '\x7d' ∈ block) : Joined following written name block following
  | through {name block : List Char} (h : splitCommand? written = some (name, block))
    (hopens : block.head? = some '\x7b') (hopen : '\x7d' ∉ block) {inner rest : List SourceLine} {closing : SourceLine}
    (hfollowing : following = inner ++ closing :: rest) (hinner : ∀ l ∈ inner, '\x7d' ∉ l.text)
    (hclosing : '\x7d' ∈ closing.text)
    : Joined following written name (Construct.joinLines (block :: (inner ++ [closing]).map SourceLine.trimmed)) rest

theorem splitAtBrace?_append {inner : List SourceLine} (hinner : ∀ l ∈ inner, '\x7d' ∉ l.text) {closing : SourceLine}
    (hclosing : '\x7d' ∈ closing.text) (rest : List SourceLine)
    : ∃ le, splitAtBrace? (inner ++ closing :: rest) = some (inner ++ [closing], { tags := [], marks := 0, rest, le }) := by
  induction inner with
  | nil => exact ⟨_, if_pos (List.contains_iff_mem.2 hclosing)⟩
  | cons l inner ih =>
    rw [List.forall_mem_cons] at hinner
    obtain ⟨_, hsplit⟩ := ih hinner.2
    have hopen : ¬l.text.contains '\x7d' := fun h => hinner.1 (List.contains_iff_mem.1 h)
    have hstep : splitAtBrace? (l :: (inner ++ closing :: rest)) = (splitAtBrace? (inner ++ closing :: rest)).map _ :=
      if_neg hopen
    rw [List.cons_append, hstep, hsplit]
    exact ⟨_, rfl⟩

section Command

variable {following rest : List SourceLine} {written name block : List Char}

theorem Joined.command_eq (h : Joined following written name block rest) (marks : Nat) (first : SourceLine)
    : ∃ le, command marks first following written
        =
      (commandTag (String.ofList name) block first.number).map fun tag => { tags := [tag], marks, rest, le } := by
  unfold command
  cases h with
  | single h hcloses =>
    have hsingle : ¬(block.head? == some '\x7b' && !block.contains '\x7d') := by
      simpa using hcloses
    simp only [h, if_neg hsingle]
    exact ⟨Nat.le_refl _, rfl⟩
  | @through block h hopens hopen inner rest closing hfollowing hinner hclosing =>
    subst hfollowing
    obtain ⟨le, hsplit⟩ := splitAtBrace?_append hinner hclosing rest
    have hthrough : block.head? == some '\x7b' && !block.contains '\x7d' := by
      simpa [hopens] using hopen
    simp only [h, if_pos hthrough, hsplit]
    exact ⟨le, rfl⟩

theorem commandTag_eq_ok_iff {line : Nat} {tag : Tag} {name : String}
    : commandTag name block line = .ok tag
        ↔
      ∃ values, Expr.evaluateClosed ("(" ++ literal block ++ ")") = .ok (.object values) ∧
        tag = .make name (Fields.insert Tag.bodyKey (.string (String.ofList block)) values) line := by
  unfold commandTag
  split
  . next h => simp [h]
  . next values h => simp [h, eq_comm]
  . next value hvalue h =>
    simp only [h, Except.ok.injEq, reduceCtorEq, false_iff, not_exists, not_and]
    intro values heq
    exact absurd heq (hvalue values)

/--
A command whose parameters are a whole object has its entries. Other parameters are accepted as well, but only where the
parentheses around them are closed by one of their own.
-/
theorem command_whole_iff (h : Joined following written name block rest) (marks : Nat) (first : SourceLine)
    : let tag (values : Fields) : Tag :=
        .make (String.ofList name) (Fields.insert Tag.bodyKey (.string (String.ofList block)) values) first.number
      (∀ values, Expr.Whole (literal block) (.object values) →
          ∃ c, command marks first following written = .ok c ∧ c.tags = [tag values] ∧ c.rest = rest) ∧
        ∀ c, command marks first following written = .ok c →
          ((∃ values, Expr.Whole (literal block) (.object values) ∧ c.tags = [tag values] ∧ c.rest = rest)
            ↔ Expr.StaysInside (literal block)) := by
  intro tag
  obtain ⟨le, hcommand⟩ := h.command_eq marks first
  rw [hcommand]
  constructor
  . intro values hwhole
    rw [commandTag_eq_ok_iff.2 ⟨values, hwhole.wrapped.1, rfl⟩]
    exact ⟨_, rfl, rfl, rfl⟩
  . intro c hc
    constructor
    . rintro ⟨values, hwhole, -⟩
      exact hwhole.wrapped.2
    . intro hinside
      cases htag : commandTag (String.ofList name) block first.number with
      | error e =>
        rw [htag] at hc
        cases hc
      | ok written =>
        rw [htag] at hc
        cases hc
        obtain ⟨values, hvalues, rfl⟩ := commandTag_eq_ok_iff.1 htag
        exact ⟨values, Expr.whole_of_wrapped hvalues hinside, rfl, rfl⟩

end Command

section Sample

/--
Parameters that close the parentheses around them and open others.
-/
def sampleReopening : List Char :=
  "\x7bk: ''\x7d); (\x7b\x7d".toList

def sampleReopeningTokens : List Token := [
  ⟨.punct .leftBrace, false⟩, ⟨.name "k", false⟩, ⟨.punct .colon, false⟩, ⟨.string "", false⟩, ⟨.punct .rightBrace, false⟩,
  ⟨.punct .rightParen, false⟩, ⟨.punct .semicolon, false⟩, ⟨.punct .leftParen, false⟩, ⟨.punct .leftBrace, false⟩,
  ⟨.punct .rightBrace, false⟩
]

theorem joined_sampleReopening : Joined [] ("mes ".toList ++ sampleReopening) "mes".toList sampleReopening [] := by
  refine .single ?_ ?_
  . decide +kernel
  . decide +kernel

theorem tokenize_sampleReopening : Expr.tokenize false (literal sampleReopening).toList = .ok sampleReopeningTokens := by
  apply eq_ok_of_toOption
  decide +kernel

theorem tokenize_wrapped_sampleReopening
    : Expr.tokenize false ("(" ++ literal sampleReopening ++ ")").toList
        = .ok (⟨.punct .leftParen, false⟩ :: (sampleReopeningTokens ++ [⟨.punct .rightParen, false⟩])) := by
  apply eq_ok_of_toOption
  decide +kernel

theorem parse_wrapped_sampleReopening
    : Expr.parse ("(" ++ literal sampleReopening ++ ")")
        = .ok (.sequence [.object [("k", .literal (.string ""))], .object []]) := by
  rw [Expr.parse_of_tokenize tokenize_wrapped_sampleReopening]
  cbv

/--
The first object is dropped without a fault, as the parameters are not whole.
-/
theorem command_sampleReopening
    : let first : SourceLine := { number := 1, text := ";mes ".toList ++ sampleReopening }
      Joined [] ("mes ".toList ++ sampleReopening) "mes".toList sampleReopening [] ∧
        (∃ c, command 0 first [] ("mes ".toList ++ sampleReopening) = .ok c ∧
          c.tags = [.make "mes" (Fields.insert Tag.bodyKey (.string (String.ofList sampleReopening)) []) 1]) ∧
        ¬Expr.StaysInside (literal sampleReopening) ∧
        ∀ values, ¬Expr.Whole (literal sampleReopening) (.object values) := by
  intro first
  have hevaluate : Expr.evaluateClosed ("(" ++ literal sampleReopening ++ ")") = .ok (.object []) :=
    Expr.evaluateClosed_eq_ok_iff.2 ⟨_, parse_wrapped_sampleReopening, rfl⟩
  have hinside : ¬Expr.StaysInside (literal sampleReopening) := by
    intro h
    have hcount := h _ tokenize_sampleReopening 6
    revert hcount
    decide
  obtain ⟨haccepted, hwhole⟩ := command_whole_iff joined_sampleReopening 0 first
  refine ⟨joined_sampleReopening, ?_, hinside, fun values h => ?_⟩
  . obtain ⟨le, hcommand⟩ := joined_sampleReopening.command_eq 0 first
    rw [hcommand, commandTag_eq_ok_iff.2 ⟨[], hevaluate, rfl⟩]
    exact ⟨_, rfl, rfl⟩
  . obtain ⟨c, hc, htags, hrest⟩ := haccepted values h
    exact hinside ((hwhole c hc).1 ⟨values, h, htags, hrest⟩)

end Sample

end Line
end Grammar
end VisualNovel
