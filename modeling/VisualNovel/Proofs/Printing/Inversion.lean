import VisualNovel.Proofs.Printing.Numbers
import VisualNovel.Proofs.Printing.Productions

/-!
This module contains that the parser undoes the printer. Tokens spell an expression at a strength if the parser reads
them as this expression wherever an expression of this strength may stand.
-/

namespace VisualNovel
namespace Expr

/-! ### Tokens one after another -/

namespace Spelled

variable {kinds others : List TokenKind} {kind : TokenKind} {ts rest : List Token}

theorem split (h : Spelled (kinds ++ others) ts rest) : ∃ mid, Spelled kinds ts mid ∧ Spelled others mid rest := by
  induction kinds generalizing ts with
  | nil => exact ⟨ts, .nil ts, h⟩
  | cons kind kinds ih =>
    cases h with
    | cons t h =>
      obtain ⟨mid, hkinds, hothers⟩ := ih h
      exact ⟨mid, .cons t hkinds, hothers⟩

theorem uncons (h : Spelled (kind :: kinds) ts rest)
    : ∃ t others, ts = t :: others ∧ t.kind = kind ∧ Spelled kinds others rest := by
  cases h with
  | cons t h => exact ⟨t, _, rfl, rfl, h⟩

theorem eq_cons (h : Spelled [kind] ts rest) : ∃ t, ts = t :: rest ∧ t.kind = kind := by
  cases h with
  | cons t h =>
    cases h
    exact ⟨t, rfl, rfl⟩

theorem of_map (ts : List Token) : Spelled (ts.map Token.kind) ts [] := by
  induction ts with
  | nil => exact .nil []
  | cons t ts ih => exact .cons t ih

end Spelled

/-! ### Spelling -/

/--
The tokens are read as an object, whatever accesses to its members come behind.
-/
def SpellsPrimary (kinds : List TokenKind) (e : Expr) : Prop :=
  ∀ ⦃ts mid : List Token⦄ ⦃value : Expr⦄ ⦃rest : List Token⦄,
    Spelled kinds ts mid → Members e mid value rest → Reads (readUnary ts) value rest

/--
The tokens are read as the left operand on a level, whatever operators of the level come behind.
-/
def SpellsLeft (level : Nat) (kinds : List TokenKind) (e : Expr) : Prop :=
  ∀ ⦃ts mid : List Token⦄ ⦃value : Expr⦄ ⦃rest : List Token⦄,
    Spelled kinds ts mid → Quiet (level + 3) mid → Operands level e mid value rest →
      Reads (readLevel level ts) value rest

/--
The tokens are read as all there is on a level.
-/
def SpellsOperand (level : Nat) (kinds : List TokenKind) (e : Expr) : Prop :=
  ∀ ⦃ts rest : List Token⦄, Spelled kinds ts rest → Quiet (level + 2) rest → Reads (readLevel level ts) e rest

def SpellsStatement (kinds : List TokenKind) (e : Expr) : Prop :=
  ∀ ⦃ts rest : List Token⦄, Spelled kinds ts rest → Quiet 1 rest → Reads (readAssignment ts) e rest

/--
The tokens may stand for the expression wherever at most this strength is required.
-/
structure Spells (strength : Nat) (kinds : List TokenKind) (e : Expr) : Prop where
  statement : SpellsStatement kinds e
  operand : ∀ {level}, level ≤ levels → level + 2 ≤ strength → SpellsOperand level kinds e
  left : ∀ {level}, level < levels → level + 2 ≤ strength → SpellsLeft level kinds e
  primary : 9 ≤ strength → SpellsPrimary kinds e

variable {kinds others : List TokenKind} {e : Expr}

theorem Spells.mono {strength weaker : Nat} (h : Spells strength kinds e) (hle : weaker ≤ strength)
    : Spells weaker kinds e where
  statement := h.statement
  operand hlevel hweaker := h.operand hlevel (Nat.le_trans hweaker hle)
  left hlevel hweaker := h.left hlevel (Nat.le_trans hweaker hle)
  primary hweaker := h.primary (Nat.le_trans hweaker hle)

theorem SpellsOperand.left {level : Nat} (hlevel : level < levels) (h : SpellsOperand (level + 1) kinds e)
    : SpellsLeft level kinds e := by
  intro ts mid value rest hspelled hquiet hoperands
  exact reads_level hlevel (h hspelled hquiet) hoperands

theorem SpellsLeft.operand {level : Nat} (h : SpellsLeft level kinds e) : SpellsOperand level kinds e := by
  intro ts rest hspelled hquiet
  exact h hspelled (hquiet.mono (Nat.le_succ _)) (operands_done hquiet)

theorem SpellsOperand.weaken {level stronger : Nat} (hlevel : level + stronger ≤ levels)
    (h : SpellsOperand (level + stronger) kinds e) : SpellsOperand level kinds e := by
  induction stronger with
  | zero => exact h
  | succ stronger ih =>
    have hlt : level + stronger < levels := by omega
    exact ih (Nat.le_of_lt hlt) (SpellsOperand.left hlt h).operand

theorem SpellsOperand.statement (h : SpellsOperand 0 kinds e) : SpellsStatement kinds e := by
  intro ts rest hspelled hquiet
  have hquestion : punctOf? rest ≠ some .question := fun hp => absurd (hquiet _ hp) (by decide)
  have hread := h hspelled (hquiet.mono (by decide))
  exact reads_assignment_of_conditional (reads_conditional_of_level hread hquestion) (bind_assignment?_of_quiet hquiet)

theorem SpellsStatement.spells (h : SpellsStatement kinds e) : Spells 1 kinds e where
  statement := h
  operand _ hle := by omega
  left _ hle := by omega
  primary hle := by omega

theorem SpellsOperand.spells {level : Nat} (hlevel : level ≤ levels) (h : SpellsOperand level kinds e)
    (hleft : level < levels → SpellsLeft level kinds e) : Spells (level + 2) kinds e := by
  have hweaker {weaker : Nat} (hle : weaker ≤ level) : SpellsOperand weaker kinds e := by
    obtain ⟨stronger, rfl⟩ := Nat.exists_eq_add_of_le hle
    exact h.weaken hlevel
  exact {
    statement := (hweaker (Nat.zero_le level)).statement
    operand := fun _ hle => hweaker (by omega)
    left := by
      intro weaker hweakest hle
      obtain heq | hlt := Nat.eq_or_lt_of_le (Nat.le_of_add_le_add_right hle)
      . exact heq ▸ hleft (heq ▸ hweakest)
      . exact (hweaker hlt).left hweakest
    primary := fun hle => by
      unfold levels at hlevel
      omega
  }

theorem SpellsLeft.spells {level : Nat} (hlevel : level < levels) (h : SpellsLeft level kinds e)
    : Spells (level + 2) kinds e :=
  h.operand.spells (Nat.le_of_lt hlevel) fun _ => h

theorem SpellsPrimary.spells (h : SpellsPrimary kinds e) : Spells 9 kinds e := by
  have hoperand : SpellsOperand levels kinds e := by
    intro ts rest hspelled hquiet
    rw [readLevel_levels]
    exact h hspelled (members_done (hquiet.mono (Nat.le_succ _)))
  have hspells := hoperand.spells (Nat.le_refl levels) fun hlt => absurd hlt (Nat.lt_irrefl levels)
  exact { hspells with
    operand := fun hlevel _ => hspells.operand hlevel (Nat.add_le_add_right hlevel 2)
    left := fun hlevel _ => hspells.left hlevel (Nat.add_le_add_right (Nat.le_of_lt hlevel) 2)
    primary := fun _ => h
  }

/-! ### Spelling every form of expressions -/

/--
Tokens are read as an object if they are read as a primary expression and their first one is no unary operator.
-/
theorem spells_of_readPrimary {kind : TokenKind} (hkind : ∀ p, kind = .punct p → unary? p = none)
    (h : ∀ ⦃t : Token⦄ ⦃ts rest : List Token⦄,
      t.kind = kind → Spelled kinds ts rest → Reads (readPrimary (t :: ts)) e rest)
    : SpellsPrimary (kind :: kinds) e := by
  intro ts mid value rest hspelled hmembers
  obtain ⟨t, following, rfl, ht, hfollowing⟩ := hspelled.uncons
  have hunary : (punctOf? (t :: following)).bind unary? = none := by
    rw [Option.bind_eq_none_iff]
    intro p hp
    obtain ⟨_, _, heq, hpunct⟩ := punctOf?_eq_some hp
    cases heq
    exact hkind p (ht.symm.trans hpunct)
  exact reads_unary_of_primary hunary (h ht hfollowing) hmembers

theorem spells_paren (h : SpellsStatement kinds e)
    : SpellsPrimary (.punct .leftParen :: (kinds ++ [.punct .rightParen])) e := by
  apply spells_of_readPrimary
  . rintro _ ⟨⟩
    rfl
  . intro opening ts rest hopening hspelled
    obtain ⟨_, hinner, hbehind⟩ := hspelled.split
    obtain ⟨closing, rfl, hclosing⟩ := hbehind.eq_cons
    exact reads_paren hopening hclosing (h hinner (quiet_cons hclosing (by decide) rest))

/--
An expression may stand in every place, enclosed if need be.
-/
theorem Spells.enclose (h : Spells e.binding kinds e) {required : Nat} (hle : required ≤ 9)
    : Spells required (enclose required e kinds) e := by
  unfold Expr.enclose
  split
  . exact (spells_paren h.statement).spells.mono hle
  . next hbinding => exact h.mono (Nat.le_of_not_lt hbinding)

/--
A token that is an expression by itself.
-/
theorem spells_token {kind : TokenKind} (hkind : ∀ p, kind ≠ .punct p)
    (h : ∀ t ts, t.kind = kind → Reads (readPrimary (t :: ts)) e ts) : SpellsPrimary [kind] e := by
  apply spells_of_readPrimary
  . intro p hp
    exact absurd hp (hkind p)
  . intro t ts rest ht hspelled
    cases hspelled
    exact h t ts ht

theorem spells_literal {v : Value} (h : IsAtom v) : SpellsPrimary [literalToken v] (.literal v) := by
  cases v with
  | null => exact spells_token nofun fun t ts ht => reads_name ts ht
  | bool b =>
    refine spells_token nofun fun t ts ht => ?_
    have hread := reads_name ts ht
    cases b <;> exact hread
  | number n =>
    obtain ⟨x, hx⟩ := h
    exact spells_token nofun fun t ts ht => reads_number ht (Number.ofBinary64?_toBinary64 hx)
  | string s => exact spells_token nofun fun t ts ht => reads_string ht
  | array items => cases h
  | object fields => cases h

theorem spells_name {word : String} (h : word ∉ ["true", "false", "null", "undefined"])
    : SpellsPrimary [.name word] (.name word) := by
  refine spells_token nofun fun t ts ht => ?_
  have hword : ofWord word = .name word := by
    simp only [List.mem_cons, List.not_mem_nil, or_false, not_or] at h
    simp [ofWord, h]
  exact hword ▸ reads_name ts ht

theorem spells_dot (h : SpellsPrimary kinds e) (s : String)
    : SpellsPrimary (kinds ++ [.punct .dot, .name s]) (.member e (.literal (.string s))) := by
  intro ts mid value rest hspelled hmembers
  obtain ⟨_, hspelled, haccess⟩ := hspelled.split
  obtain ⟨dot, _, rfl, hdot, haccess⟩ := haccess.uncons
  obtain ⟨word, rfl, hword⟩ := haccess.eq_cons
  exact h hspelled (members_dot hdot hword hmembers)

theorem spells_bracket {key : Expr} (h : SpellsPrimary kinds e) (hkey : SpellsStatement others key)
    : SpellsPrimary (kinds ++ .punct .leftBracket :: (others ++ [.punct .rightBracket])) (.member e key) := by
  intro ts mid value rest hspelled hmembers
  obtain ⟨_, hspelled, haccess⟩ := hspelled.split
  obtain ⟨opening, _, rfl, hopening, haccess⟩ := haccess.uncons
  obtain ⟨_, hinner, hbehind⟩ := haccess.split
  obtain ⟨closing, rfl, hclosing⟩ := hbehind.eq_cons
  have hread := hkey hinner (quiet_cons hclosing (by decide) mid)
  exact h hspelled (members_bracket hopening hclosing hread hmembers)

theorem spells_accessor {key : Expr} (dotted : String → Bool) (h : SpellsPrimary kinds e)
    (hkey : SpellsStatement others key) : SpellsPrimary (kinds ++ accessor dotted key others) (.member e key) := by
  unfold accessor
  split
  . split
    . exact spells_dot h _
    . exact spells_bracket h hkey
  . exact spells_bracket h hkey

theorem spells_unary (op : UnaryOp) (h : SpellsOperand levels kinds e)
    : SpellsOperand levels (.punct op.punct :: kinds) (.unary op e) := by
  intro ts rest hspelled hquiet
  obtain ⟨t, _, rfl, ht, hspelled⟩ := hspelled.uncons
  have hread := h hspelled hquiet
  rw [readLevel_levels] at hread ⊢
  have hop : unary? op.punct = some op := by cases op <;> rfl
  exact reads_unary_of_operator ht hop hread

theorem spells_operator {level : Nat} {p : Punct} {op : Expr → Expr → Expr} (hop : operator? level p = some op)
    {left right : Expr} (hleft : SpellsLeft level kinds left) (hright : SpellsOperand (level + 1) others right)
    : SpellsLeft level (kinds ++ .punct p :: others) (op left right) := by
  intro ts mid value rest hspelled hquiet hoperands
  obtain ⟨_, hspelled, hothers⟩ := hspelled.split
  obtain ⟨t, _, rfl, ht, hothers⟩ := hothers.uncons
  have hpull : p.pull < level + 3 := by
    rw [pull_of_operator? hop]
    exact Nat.lt_succ_self _
  exact hleft hspelled (quiet_cons ht hpull _) (operands_more ht hop (hright hothers hquiet) hoperands)

/--
The left operand may be of the same level, the right one has to bind stronger.
-/
theorem spells_operands {level : Nat} {p : Punct} {op : Expr → Expr → Expr} (hop : operator? level p = some op)
    (hlevel : level < levels) {left right : Expr} (hleft : Spells left.binding kinds left)
    (hright : Spells right.binding others right)
    : Spells (level + 2) (enclose (level + 2) left kinds ++ .punct p :: enclose (level + 3) right others)
        (op left right) := by
  have hle : level + 3 ≤ 9 := Nat.le_trans (Nat.add_le_add_right hlevel 2) (by decide)
  have hleft := (hleft.enclose (Nat.le_of_succ_le hle)).left hlevel (Nat.le_refl _)
  have hright := (hright.enclose hle).operand hlevel (Nat.le_refl _)
  exact (spells_operator hop hleft hright).spells hlevel

theorem spells_conditional {condition yes no : List TokenKind} {c y n : Expr} (hcondition : SpellsOperand 0 condition c)
    (hyes : SpellsStatement yes y) (hno : SpellsStatement no n)
    : SpellsStatement (condition ++ .punct .question :: (yes ++ .punct .colon :: no)) (.conditional c y n) := by
  intro ts rest hspelled hquiet
  obtain ⟨_, hspelled, hbranches⟩ := hspelled.split
  obtain ⟨question, _, rfl, hquestion, hbranches⟩ := hbranches.uncons
  obtain ⟨_, hbranches, hbehind⟩ := hbranches.split
  obtain ⟨colon, _, rfl, hcolon, hbehind⟩ := hbehind.uncons
  have hread := reads_conditional hquestion hcolon (hcondition hspelled (quiet_cons hquestion (by decide) _))
    (hyes hbranches (quiet_cons hcolon (by decide) _)) (hno hbehind hquiet)
  exact reads_assignment_of_conditional hread (bind_assignment?_of_quiet hquiet)

theorem spells_assign {op : Option BinaryOp} (hop : ∀ o ∈ op, o.assign?.isSome) {target value : Expr}
    (htarget : target.isTarget) (h : SpellsOperand 0 kinds target) (hvalue : SpellsStatement others value)
    : SpellsStatement (kinds ++ .punct (assignPunct op) :: others) (.assign op target value) := by
  intro ts rest hspelled hquiet
  obtain ⟨_, htokens, hbehind⟩ := hspelled.split
  obtain ⟨t, following, rfl, ht, hothers⟩ := hbehind.uncons
  have hassign : assignment? (assignPunct op) = some op := by
    cases op with
    | none => rfl
    | some o =>
      have hsome := hop o rfl
      cases o <;> first | rfl | cases hsome
  have hquestion : punctOf? (t :: following) ≠ some .question := by
    rw [punctOf?_cons ht]
    intro heq
    rw [Option.some.inj heq] at hassign
    cases hassign
  have hpull : (assignPunct op).pull < 2 := by
    rw [pull_of_assignment? hassign]
    decide
  have hread := reads_conditional_of_level (h htokens (quiet_cons ht hpull following)) hquestion
  exact reads_assignment ht hassign htarget hread (hvalue hothers hquiet)

/-! ### Lists -/

section Lists

variable {dotted : String → Bool}

theorem separate_cons_cons (p : Punct) (first second : List TokenKind) (later : List (List TokenKind))
    : separate p (first :: second :: later) = first ++ .punct p :: separate p (second :: later) := by
  simp [separate, List.intercalate]

theorem separate_single (p : Punct) (kinds : List TokenKind) : separate p [kinds] = kinds := by
  simp [separate, List.intercalate]

theorem reads_items {items : List Expr} (h : ∀ item ∈ items, SpellsStatement (item.print dotted) item)
    {ts rest : List Token}
    (hspelled : Spelled (separate .comma (printItems dotted items) ++ [.punct .rightBracket]) ts rest)
    : Reads (readItems ts) items rest := by
  induction items generalizing ts with
  | nil =>
    obtain ⟨closing, rfl, hclosing⟩ := hspelled.eq_cons
    exact reads_items_nil hclosing
  | cons item items ih =>
    have hitem := h item List.mem_cons_self
    cases items with
    | nil =>
      rw [printItems, printItems, separate_single] at hspelled
      obtain ⟨_, hinner, hbehind⟩ := hspelled.split
      obtain ⟨closing, rfl, hclosing⟩ := hbehind.eq_cons
      exact reads_items_single (hitem hinner (quiet_cons hclosing (by decide) rest)) hclosing
    | cons other items =>
      rw [printItems, printItems, separate_cons_cons, List.append_assoc, List.cons_append] at hspelled
      obtain ⟨_, hinner, hbehind⟩ := hspelled.split
      obtain ⟨comma, following, rfl, hcomma, hlater⟩ := hbehind.uncons
      have hitems := ih (fun item hitem => h item (List.mem_cons_of_mem _ hitem)) hlater
      exact reads_items_cons (hitem hinner (quiet_cons hcomma (by decide) following)) hcomma hitems

theorem reads_entries {entries : List (String × Expr)}
    (h : ∀ entry ∈ entries, SpellsStatement (entry.2.print dotted) entry.2) {ts rest : List Token}
    (hspelled : Spelled (separate .comma (printEntries dotted entries) ++ [.punct .rightBrace]) ts rest)
    : Reads (readEntries ts) entries rest := by
  induction entries generalizing ts with
  | nil =>
    obtain ⟨closing, rfl, hclosing⟩ := hspelled.eq_cons
    exact reads_entries_nil hclosing
  | cons entry entries ih =>
    obtain ⟨key, value⟩ := entry
    have hvalue := h (key, value) List.mem_cons_self
    cases entries with
    | nil =>
      rw [printEntries, printEntries, separate_single, List.cons_append, List.cons_append] at hspelled
      obtain ⟨word, _, rfl, hword, hspelled⟩ := hspelled.uncons
      obtain ⟨colon, _, rfl, hcolon, hspelled⟩ := hspelled.uncons
      obtain ⟨_, hinner, hbehind⟩ := hspelled.split
      obtain ⟨closing, rfl, hclosing⟩ := hbehind.eq_cons
      exact reads_entries_single (hword ▸ .string key) hcolon (hvalue hinner (quiet_cons hclosing (by decide) rest)) hclosing
    | cons other entries =>
      rw [printEntries, printEntries, separate_cons_cons, List.append_assoc, List.cons_append, List.cons_append,
        List.cons_append] at hspelled
      obtain ⟨word, _, rfl, hword, hspelled⟩ := hspelled.uncons
      obtain ⟨colon, _, rfl, hcolon, hspelled⟩ := hspelled.uncons
      obtain ⟨_, hinner, hbehind⟩ := hspelled.split
      obtain ⟨comma, following, rfl, hcomma, hlater⟩ := hbehind.uncons
      have hentries := ih (fun entry hentry => h entry (List.mem_cons_of_mem _ hentry)) hlater
      exact reads_entries_cons (hword ▸ .string key) hcolon (hvalue hinner (quiet_cons hcomma (by decide) following)) hcomma hentries

theorem spells_array {items : List Expr} (h : ∀ item ∈ items, SpellsStatement (item.print dotted) item)
    : SpellsPrimary ((Expr.array items).print dotted) (.array items) := by
  apply spells_of_readPrimary
  . rintro _ ⟨⟩
    rfl
  . intro opening ts rest hopening hspelled
    exact reads_array hopening (reads_items h hspelled)

theorem spells_object {entries : List (String × Expr)}
    (h : ∀ entry ∈ entries, SpellsStatement (entry.2.print dotted) entry.2)
    : SpellsPrimary ((Expr.object entries).print dotted) (.object entries) := by
  apply spells_of_readPrimary
  . rintro _ ⟨⟩
    rfl
  . intro opening ts rest hopening hspelled
    exact reads_object hopening (reads_entries h hspelled)

theorem readStatements_print {statements : List Expr} (hne : statements ≠ [])
    (h : ∀ statement ∈ statements, SpellsStatement (statement.print dotted) statement) {ts : List Token}
    (hspelled : Spelled (separate .semicolon (printItems dotted statements)) ts [])
    : readStatements ts = .ok statements := by
  induction statements generalizing ts with
  | nil => exact absurd rfl hne
  | cons statement statements ih =>
    have hstatement := h statement List.mem_cons_self
    cases statements with
    | nil =>
      rw [printItems, printItems, separate_single] at hspelled
      exact readStatements_single (hstatement hspelled quiet_nil)
    | cons other statements =>
      rw [printItems, printItems, separate_cons_cons] at hspelled
      obtain ⟨_, hinner, hbehind⟩ := hspelled.split
      obtain ⟨semicolon, following, rfl, hsemicolon, hlater⟩ := hbehind.uncons
      have hstatements := ih nofun (fun statement hmem => h statement (List.mem_cons_of_mem _ hmem)) hlater
      exact readStatements_cons (hstatement hinner (quiet_cons hsemicolon (by decide) following)) hsemicolon hstatements

end Lists

/-! ### The printer -/

theorem operator?_punct (op : BinaryOp) : operator? op.level op.punct = some (.binary op) := by
  cases op <;> rfl

theorem level_lt (op : BinaryOp) : op.level < levels := by
  cases op <;> decide

mutual

/--
What is printed for an expression spells it as strongly as it binds.
-/
theorem spells_print (dotted : String → Bool) : (e : Expr) → e.IsStatement → Spells e.binding (e.print dotted) e
  | .literal _, h => (spells_literal h).spells
  | .name _, h => (spells_name h).spells
  | .member base key, ⟨hbase, hkey⟩ => by
    have hbase := (spells_print dotted base hbase).enclose (Nat.le_refl 9)
    have hkey := spells_print dotted key hkey
    exact (spells_accessor dotted (hbase.primary (Nat.le_refl 9)) hkey.statement).spells
  | .array items, h => (spells_array (spells_printItems dotted items h)).spells
  | .object entries, h => (spells_object (spells_printEntries dotted entries h)).spells
  | .unary op operand, h => by
    have hoperand := (spells_print dotted operand h).enclose (show 8 ≤ 9 by decide)
    have hspells := spells_unary op (hoperand.operand (Nat.le_refl levels) (Nat.le_refl 8))
    exact hspells.spells (Nat.le_refl levels) fun hlt => absurd hlt (Nat.lt_irrefl levels)
  | .binary op left right, ⟨hleft, hright⟩ =>
    spells_operands (operator?_punct op) (level_lt op) (spells_print dotted left hleft) (spells_print dotted right hright)
  | .and left right, ⟨hleft, hright⟩ => by
    have hop : operator? 1 .and = some .and := rfl
    exact spells_operands hop (by decide) (spells_print dotted left hleft) (spells_print dotted right hright)
  | .or left right, ⟨hleft, hright⟩ => by
    have hop : operator? 0 .or = some .or := rfl
    exact spells_operands hop (by decide) (spells_print dotted left hleft) (spells_print dotted right hright)
  | .conditional condition yes no, ⟨hcondition, hyes, hno⟩ => by
    have hcondition := (spells_print dotted condition hcondition).enclose (show 2 ≤ 9 by decide)
    have hyes := (spells_print dotted yes hyes).statement
    have hno := (spells_print dotted no hno).statement
    exact (spells_conditional (hcondition.operand (Nat.zero_le levels) (Nat.le_refl 2)) hyes hno).spells
  | .assign op target value, ⟨hop, htarget, h, hvalue⟩ => by
    have hspells := ((spells_print dotted target h).enclose (Nat.le_refl 9)).operand (Nat.zero_le levels) (by decide)
    exact (spells_assign hop htarget hspells (spells_print dotted value hvalue).statement).spells

theorem spells_printItems (dotted : String → Bool)
    : (items : List Expr) → AreStatements items → ∀ item ∈ items, SpellsStatement (item.print dotted) item
  | [], _ => nofun
  | item :: items, ⟨h, hitems⟩ =>
    List.forall_mem_cons.2 ⟨(spells_print dotted item h).statement, spells_printItems dotted items hitems⟩

theorem spells_printEntries (dotted : String → Bool)
    : (entries : List (String × Expr)) → HoldStatements entries →
        ∀ entry ∈ entries, SpellsStatement (entry.2.print dotted) entry.2
  | [], _ => nofun
  | (_, value) :: entries, ⟨h, hentries⟩ =>
    List.forall_mem_cons.2 ⟨(spells_print dotted value h).statement, spells_printEntries dotted entries hentries⟩

end

/--
The parser undoes the printer, whatever the printer does with keys, and wherever the line breaks are.
-/
theorem parseTokens_print (dotted : String → Bool) {e : Expr} (h : e.IsProgram) {ts : List Token}
    (hts : ts.map Token.kind = e.print dotted) : parseTokens ts = .ok e := by
  have hspelled := Spelled.of_map ts
  rw [hts] at hspelled
  unfold IsProgram at h
  split at h
  . next statements =>
    obtain ⟨hlength, hstatements⟩ := h
    have hne : statements ≠ [] := by
      rintro rfl
      cases hlength
    have hread := readStatements_print hne (spells_printItems dotted statements hstatements) hspelled
    rw [parseTokens, hread]
    match statements, hlength with
    | _ :: _ :: _, _ => rfl
  . have hread := readStatements_single ((spells_print dotted e h).statement hspelled quiet_nil)
    rw [parseTokens, hread]
    rfl

/--
A program of two statements: an assignment of a conditional, and an access to a member of an object.
-/
def sampleProgram : Expr :=
  .sequence [
    .assign (some .add) (.member (.name "tv") (.literal (.string "score")))
      (.conditional (.or (.name "x") (.and (.or (.name "y") (.name "z")) (.literal .null)))
        (.binary .sub (.name "a") (.binary .sub (.unary .neg (.binary .mul (.name "b") (.name "c"))) (.name "d")))
        (.assign none (.name "e") (.array [.literal (.number (.int 1)), .literal (.bool true)]))),
    .member (.object [("key", .conditional (.assign none (.name "f") (.name "g")) (.name "h") (.name "i"))])
      (.binary .add (.literal (.string "k")) (.literal (.string "ey")))
  ]

/--
The program as tokens, each on a line of its own.
-/
def sampleProgramTokens : List Token :=
  (sampleProgram.print fun _ => true).map fun kind => { kind, newlineBefore := true }

theorem parseTokens_sampleProgram
    : sampleProgram.IsProgram ∧ sampleProgramTokens.map Token.kind = sampleProgram.print (fun _ => true) ∧
        parseTokens sampleProgramTokens = .ok sampleProgram := by
  have hone : ∃ x, Number.ofBinary64? x = some (.int 1) := ⟨.ofInt 1, by decide +kernel⟩
  have hprogram : sampleProgram.IsProgram := by
    simp [sampleProgram, IsProgram, AreStatements, HoldStatements, IsStatement, IsAtom, BinaryOp.assign?, isTarget, hone]
  have hkinds : sampleProgramTokens.map Token.kind = sampleProgram.print fun _ => true := by
    rw [sampleProgramTokens, List.map_map]
    exact List.map_id _
  exact ⟨hprogram, hkinds, parseTokens_print _ hprogram hkinds⟩

end Expr
end VisualNovel
