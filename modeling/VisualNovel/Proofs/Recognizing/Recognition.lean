import VisualNovel.Proofs.Recognizing.Readings

/-!
This module contains that every expression which the parser reads is spelled by the tokens that it takes: the same tokens
are read as the same expression in every other place, and the brackets among them are nested.
-/

namespace VisualNovel

/-! ### Nested brackets -/

namespace Punct

/--
The bracket that closes an opening one.
-/
def closing? : Punct → Option Punct
  | .leftParen => some .rightParen
  | .leftBracket => some .rightBracket
  | .leftBrace => some .rightBrace
  | _ => none

def isBracket : Punct → Bool
  | .leftParen | .rightParen | .leftBracket | .rightBracket | .leftBrace | .rightBrace => true
  | _ => false

end Punct

namespace Expr

/--
Every bracket is closed by a bracket of its own kind, and no bracket stands between two others across them.
-/
inductive Nested : List TokenKind → Prop where
  | nil : Nested []
  | token {kind : TokenKind} (h : ∀ p, kind = .punct p → p.isBracket = false) : Nested [kind]
  | append {kinds others : List TokenKind} (h : Nested kinds) (hothers : Nested others) : Nested (kinds ++ others)
  | enclose {opening closing : Punct} (hclosing : opening.closing? = some closing) {kinds : List TokenKind}
    (h : Nested kinds) : Nested (.punct opening :: (kinds ++ [.punct closing]))

theorem nested_punct {p : Punct} (h : p.isBracket = false) : Nested [.punct p] := by
  apply Nested.token
  rintro _ ⟨⟩
  exact h

theorem Nested.cons_punct {p : Punct} (hp : p.isBracket = false) {kinds : List TokenKind} (h : Nested kinds)
    : Nested (.punct p :: kinds) :=
  (nested_punct hp).append h

section Count

variable {opening closing : Punct} (hpair : opening.closing? = some closing)

include hpair

theorem count_bracket {first last : Punct} (hlast : first.closing? = some last)
    : [TokenKind.punct first].count (.punct closing) = 0 ∧ [TokenKind.punct last].count (.punct opening) = 0 ∧
        [TokenKind.punct last].count (.punct closing) = [TokenKind.punct first].count (.punct opening) := by
  cases opening <;> cases hpair <;> cases first <;> cases hlast <;> decide

/--
There are as many closing brackets of a kind as opening ones, and nowhere more of them up to there.
-/
theorem Nested.count_take_le {kinds : List TokenKind} (h : Nested kinds)
    : kinds.count (.punct closing) = kinds.count (.punct opening) ∧
        ∀ n, (kinds.take n).count (.punct closing) ≤ (kinds.take n).count (.punct opening) := by
  induction h with
  | nil => simp
  | @token kind h =>
    have hopening : opening.isBracket := by cases opening <;> first | rfl | cases hpair
    have hclosing : closing.isBracket := by cases opening <;> cases hpair <;> rfl
    have hne {p : Punct} (hp : p.isBracket) : TokenKind.punct p ∉ [kind] := by
      intro hmem
      rw [h p (List.mem_singleton.1 hmem).symm] at hp
      cases hp
    rw [List.count_eq_zero_of_not_mem (hne hopening), List.count_eq_zero_of_not_mem (hne hclosing)]
    refine ⟨rfl, fun n => ?_⟩
    rw [List.count_eq_zero_of_not_mem fun hmem => hne hclosing (List.mem_of_mem_take hmem)]
    exact Nat.zero_le _
  | @append kinds others _ _ ih ihothers =>
    rw [List.count_append, List.count_append, ih.1, ihothers.1]
    refine ⟨rfl, fun n => ?_⟩
    rw [List.take_append, List.count_append, List.count_append]
    exact Nat.add_le_add (ih.2 n) (ihothers.2 _)
  | @enclose first last hlast kinds h ih =>
    obtain ⟨hfirst, hbehind, heq⟩ := count_bracket hpair hlast
    rw [← List.singleton_append]
    refine ⟨by simp only [List.count_append]; omega, fun n => ?_⟩
    cases n with
    | zero => exact Nat.le_refl _
    | succ n =>
      have hle := ih.2 n
      have hend := ([TokenKind.punct last].take_sublist (n - kinds.length)).count_le (.punct closing)
      simp only [List.singleton_append, List.take_succ_cons, List.take_append]
      rw [← List.singleton_append]
      simp only [List.count_append]
      omega

end Count

/-! ### Recognition -/

theorem Spelled.append {kinds others : List TokenKind} {ts mid rest : List Token} (h : Spelled kinds ts mid)
    (hothers : Spelled others mid rest) : Spelled (kinds ++ others) ts rest := by
  induction h with
  | nil rest => exact hothers
  | cons t h ih => exact .cons t (ih hothers)

theorem Spelled.single {kind : TokenKind} {t : Token} (h : t.kind = kind) (rest : List Token)
    : Spelled [kind] (t :: rest) rest := by
  subst h
  exact .cons t (.nil rest)

theorem Spelled.cons_of_kind {kind : TokenKind} {t : Token} (ht : t.kind = kind) {kinds : List TokenKind}
    {ts rest : List Token} (h : Spelled kinds ts rest) : Spelled (kind :: kinds) (t :: ts) rest :=
  (Spelled.single ht ts).append h

/--
The tokens up to the rest have nested brackets and spell what has been read, and nothing that is tied as strongly comes
behind them.
-/
structure Recognized (strength : Nat) (spells : List TokenKind → Prop) (ts rest : List Token) (kinds : List TokenKind)
    : Prop where
  spelled : Spelled kinds ts rest
  nested : Nested kinds
  spells : spells kinds
  quiet : Quiet strength rest

theorem Quiet.of_eq_none {strength : Nat} {α : Type} {f : Punct → Option α} {ts : List Token}
    (h : Quiet (strength + 1) ts) (hnone : (punctOf? ts).bind f = none)
    (hf : ∀ p : Punct, p.pull = strength → (f p).isSome) : Quiet strength ts := by
  intro p hp
  have hlt := h p hp
  have hne : p.pull ≠ strength := by
    intro heq
    rw [hp, Option.bind_some] at hnone
    have hsome := hf p heq
    rw [hnone] at hsome
    cases hsome
  omega

theorem operator?_isSome {level : Nat} (hlevel : level < levels) {p : Punct} (h : p.pull = level + 2)
    : (operator? level p).isSome := by
  unfold levels at hlevel
  obtain rfl | rfl | rfl | rfl | rfl | rfl : level = 0 ∨ level = 1 ∨ level = 2 ∨ level = 3 ∨ level = 4 ∨ level = 5 := by
    omega
  all_goals cases p <;> first | rfl | cases h

/--
Behind a conditional, nothing else can be part of a statement.
-/
theorem Quiet.statement {ts : List Token} (h : Quiet 2 ts) (hquestion : punctOf? ts ≠ some .question)
    (hassign : (punctOf? ts).bind assignment? = none) : Quiet 1 ts := by
  intro p hp
  have hlt := h p hp
  rw [hp] at hquestion hassign
  cases p <;> first | exact absurd rfl hquestion | decide | exact absurd hlt (by decide) | cases hassign

theorem assignPunct_eq {p : Punct} {op : Option BinaryOp} (h : assignment? p = some op)
    : p = assignPunct op ∧ ∀ o ∈ op, o.assign?.isSome := by
  cases p <;> cases h <;> exact ⟨rfl, by simp [BinaryOp.assign?]⟩

theorem unary?_eq {p : Punct} {op : UnaryOp} (h : unary? p = some op) : p = op.punct := by
  cases p <;> cases h <;> rfl

theorem isBracket_of_operator? {level : Nat} {p : Punct} {op : Expr → Expr → Expr} (h : operator? level p = some op)
    : p.isBracket = false := by
  unfold operator? at h
  split at h <;> first | rfl | cases h

mutual

theorem recognized_assignment {ts rest : List Token} {e : Expr} (h : Reads (readAssignment ts) e rest)
    : ∃ kinds, Recognized 1 (SpellsStatement · e) ts rest kinds := by
  obtain ⟨h, hrest⟩ | ⟨t, p, op, target, value, mid, ht, hop, htarget, rfl, h, hvalue⟩ := readAssignment_cases h
  . obtain ⟨h, hquestion⟩ | ⟨question, condition, mid, yes, colon, behind, no, hquestion, hcolon, rfl, hcondition, hyes,
      hno⟩ := readConditional_cases h
    . obtain ⟨kinds, h⟩ := recognized_level (Nat.zero_le levels) h
      exact ⟨kinds, h.spelled, h.nested, SpellsOperand.statement h.spells, h.quiet.statement hquestion hrest⟩
    . have hmid := hcondition.length_behind_lt
      have hbehind := hyes.length_behind_lt
      obtain ⟨condition, hcondition⟩ := recognized_level (Nat.zero_le levels) hcondition
      obtain ⟨yes, hyes⟩ := recognized_assignment hyes
      obtain ⟨no, hno⟩ := recognized_assignment hno
      refine ⟨condition ++ .punct .question :: (yes ++ .punct .colon :: no), ?_, ?_,
        spells_conditional hcondition.spells hyes.spells hno.spells, hno.quiet⟩
      . have hbranches := hyes.spelled.append (hno.spelled.cons_of_kind hcolon)
        exact hcondition.spelled.append (hbranches.cons_of_kind hquestion)
      . have hbranches := hyes.nested.append (hno.nested.cons_punct (p := .colon) rfl)
        exact hcondition.nested.append (hbranches.cons_punct rfl)
  . obtain ⟨h, _⟩ | ⟨question, condition, _, yes, colon, _, no, _, _, rfl, _⟩ := readConditional_cases h
    . have hmid := h.length_behind_lt
      obtain ⟨left, h⟩ := recognized_level (Nat.zero_le levels) h
      obtain ⟨right, hvalue⟩ := recognized_assignment hvalue
      obtain ⟨rfl, hassign⟩ := assignPunct_eq hop
      have hbracket : (assignPunct op).isBracket = false := by
        cases hp : assignPunct op <;> rw [hp] at hop <;> first | rfl | cases hop
      exact ⟨left ++ .punct (assignPunct op) :: right, h.spelled.append (hvalue.spelled.cons_of_kind ht),
        h.nested.append (hvalue.nested.cons_punct hbracket), spells_assign hassign htarget h.spells hvalue.spells,
        hvalue.quiet⟩
    . cases htarget
termination_by (ts.length, levels + 5)

theorem recognized_level {ts rest : List Token} {e : Expr} {level : Nat} (hlevel : level ≤ levels)
    (h : Reads (readLevel level ts) e rest)
    : ∃ kinds, Recognized (level + 2) (SpellsOperand level · e) ts rest kinds := by
  obtain rfl | hlt := Nat.eq_or_lt_of_le hlevel
  . rw [readLevel_levels] at h
    exact recognized_unary h
  . obtain ⟨left, mid, shorter, hleft, h⟩ := readLevel_cases hlt h
    obtain ⟨kinds, hleft⟩ := recognized_level hlt hleft
    obtain ⟨others, h⟩ := recognized_operands hlt (SpellsOperand.left hlt hleft.spells) hleft.quiet h
    exact ⟨kinds ++ others, hleft.spelled.append h.spelled, hleft.nested.append h.nested, SpellsLeft.operand h.spells,
      h.quiet⟩
termination_by (ts.length, 3 + (levels - level))

theorem recognized_operands {ts mid rest : List Token} {left e : Expr} {level : Nat} (hlevel : level < levels)
    {read : List TokenKind} (hleft : SpellsLeft level read left) (hquiet : Quiet (level + 3) mid)
    {shorter : mid.length < ts.length}
    (h : Reads (readOperands level { value := left, rest := mid, shorter : Taken ts Expr }) e rest)
    : ∃ kinds, Recognized (level + 2) (fun kinds => SpellsLeft level (read ++ kinds) e) mid rest kinds := by
  obtain ⟨rfl, rfl, hnone⟩ | ⟨t, p, op, following, right, behind, _, hmid, ht, hop, hright, h⟩ := readOperands_cases h
  . have hspells : SpellsLeft level (read ++ []) e := by rwa [List.append_nil]
    exact ⟨[], .nil rest, .nil, hspells, hquiet.of_eq_none hnone fun p => operator?_isSome hlevel⟩
  . have hfollowing : following.length < mid.length := by simp [hmid]
    have hbehind := Nat.lt_trans hright.length_lt hfollowing
    obtain ⟨kinds, hright⟩ := recognized_level hlevel hright
    have hleft := spells_operator hop hleft hright.spells
    obtain ⟨others, h⟩ := recognized_operands hlevel hleft hright.quiet h
    rw [hmid]
    refine ⟨.punct p :: (kinds ++ others), (hright.spelled.append h.spelled).cons_of_kind ht,
      (hright.nested.append h.nested).cons_punct (isBracket_of_operator? hop), ?_, h.quiet⟩
    have hspells := h.spells
    rwa [List.append_assoc] at hspells
termination_by (mid.length, 0)

theorem recognized_unary {ts rest : List Token} {e : Expr} (h : Reads (readUnary ts) e rest)
    : ∃ kinds, Recognized (levels + 2) (SpellsOperand levels · e) ts rest kinds := by
  obtain ⟨t, p, op, following, operand, rfl, ht, hop, rfl, hoperand⟩ | ⟨object, mid, shorter, hobject, h⟩ :=
    readUnary_cases h
  . obtain ⟨kinds, h⟩ := recognized_unary hoperand
    obtain rfl := unary?_eq hop
    have hbracket : op.punct.isBracket = false := by cases op <;> rfl
    exact ⟨.punct op.punct :: kinds, h.spelled.cons_of_kind ht, h.nested.cons_punct hbracket, spells_unary op h.spells,
      h.quiet⟩
  . obtain ⟨kinds, hspelled, hnested, hobject⟩ := recognized_primary hobject
    obtain ⟨others, h⟩ := recognized_members hobject h
    have hspells := h.spells.spells.operand (Nat.le_refl levels) (by decide)
    have hquiet : Quiet (levels + 2) rest := by
      intro p hp
      have hlt := h.quiet p hp
      cases p <;> first | decide | exact absurd hlt (by decide)
    exact ⟨kinds ++ others, hspelled.append h.spelled, hnested.append h.nested, hspells, hquiet⟩
termination_by (ts.length, 2)

theorem recognized_members {ts mid rest : List Token} {object e : Expr} {read : List TokenKind}
    (hobject : SpellsPrimary read object) {shorter : mid.length < ts.length}
    (h : Reads (readMembers { value := object, rest := mid, shorter : Taken ts Expr }) e rest)
    : ∃ kinds, Recognized 9 (fun kinds => SpellsPrimary (read ++ kinds) e) mid rest kinds := by
  obtain ⟨rfl, rfl, hdot, hbracket⟩ | ⟨dot, word, s, behind, _, hmid, hdot, hword, h⟩ |
    ⟨opening, following, key, closing, behind, _, hmid, hopening, hclosing, hkey, h⟩ := readMembers_cases h
  . have hquiet : Quiet 9 rest := by
      intro p hp
      rw [hp] at hdot hbracket
      cases p <;> first | decide | exact absurd rfl hdot | exact absurd rfl hbracket
    have hspells : SpellsPrimary (read ++ []) e := by rwa [List.append_nil]
    exact ⟨[], .nil rest, .nil, hspells, hquiet⟩
  . have hbehind : behind.length < mid.length := by simp only [hmid, List.length_cons]; omega
    obtain ⟨kinds, h⟩ := recognized_members (spells_dot hobject s) h
    rw [hmid]
    have hname : Nested [.name s] := .token nofun
    have hnested : Nested [.punct .dot, .name s] := hname.cons_punct rfl
    refine ⟨[.punct .dot, .name s] ++ kinds, ?_, hnested.append h.nested, ?_, h.quiet⟩
    . exact (h.spelled.cons_of_kind hword).cons_of_kind hdot
    . have hspells := h.spells
      rwa [List.append_assoc] at hspells
  . have hfollowing : following.length < mid.length := by simp [hmid]
    have hbehind := Nat.lt_trans hkey.length_behind_lt hfollowing
    obtain ⟨inner, hkey⟩ := recognized_assignment hkey
    obtain ⟨kinds, h⟩ := recognized_members (spells_bracket hobject hkey.spells) h
    rw [hmid]
    refine ⟨.punct .leftBracket :: (inner ++ [.punct .rightBracket]) ++ kinds, ?_, ?_, ?_, h.quiet⟩
    . have haccess := hkey.spelled.append (.single hclosing behind)
      exact (haccess.cons_of_kind hopening).append h.spelled
    . exact (Nested.enclose rfl hkey.nested).append h.nested
    . have hspells := h.spells
      rwa [List.append_assoc] at hspells
termination_by (mid.length, 0)

theorem recognized_primary {ts rest : List Token} {e : Expr} (h : Reads (readPrimary ts) e rest)
    : ∃ kinds, Spelled kinds ts rest ∧ Nested kinds ∧ SpellsPrimary kinds e := by
  obtain ⟨t, rfl, hkind, hread⟩ | ⟨t, following, closing, rfl, ht, hclosing, hinner⟩ |
    ⟨t, following, items, rfl, ht, rfl, hitems⟩ | ⟨t, following, entries, rfl, ht, rfl, hentries⟩ := readPrimary_cases h
  . exact ⟨[t.kind], .single rfl rest, .token fun p hp => absurd hp (hkind p), spells_token hkind hread⟩
  . obtain ⟨kinds, h⟩ := recognized_assignment hinner
    exact ⟨.punct .leftParen :: (kinds ++ [.punct .rightParen]),
      (h.spelled.append (.single hclosing rest)).cons_of_kind ht, .enclose rfl h.nested, spells_paren h.spells⟩
  . obtain ⟨kinds, hspelled, hnested, hitems⟩ := recognized_items hitems
    refine ⟨.punct .leftBracket :: (kinds ++ [.punct .rightBracket]), hspelled.cons_of_kind ht, .enclose rfl hnested, ?_⟩
    apply spells_of_readPrimary
    . rintro _ ⟨⟩
      rfl
    . intro opening ts rest hopening hspelled
      exact reads_array hopening (hitems hspelled)
  . obtain ⟨kinds, hspelled, hnested, hentries⟩ := recognized_entries hentries
    refine ⟨.punct .leftBrace :: (kinds ++ [.punct .rightBrace]), hspelled.cons_of_kind ht, .enclose rfl hnested, ?_⟩
    apply spells_of_readPrimary
    . rintro _ ⟨⟩
      rfl
    . intro opening ts rest hopening hspelled
      exact reads_object hopening (hentries hspelled)
termination_by (ts.length, 1)

theorem recognized_items {ts rest : List Token} {items : List Expr} (h : Reads (readItems ts) items rest)
    : ∃ kinds, Spelled (kinds ++ [.punct .rightBracket]) ts rest ∧ Nested kinds ∧
        ∀ ⦃ts rest⦄, Spelled (kinds ++ [.punct .rightBracket]) ts rest → Reads (readItems ts) items rest := by
  obtain ⟨rfl, t, rfl, ht⟩ | ⟨item, next, rfl, hnext, h⟩ | ⟨item, next, mid, later, rfl, hnext, h, hlater⟩ :=
    readItems_cases h
  . refine ⟨[], .single ht rest, .nil, ?_⟩
    intro ts rest hspelled
    obtain ⟨closing, rfl, hclosing⟩ := hspelled.eq_cons
    exact reads_items_nil hclosing
  . obtain ⟨kinds, h⟩ := recognized_assignment h
    refine ⟨kinds, h.spelled.append (.single hnext rest), h.nested, ?_⟩
    intro ts rest hspelled
    obtain ⟨_, hinner, hbehind⟩ := hspelled.split
    obtain ⟨closing, rfl, hclosing⟩ := hbehind.eq_cons
    exact reads_items_single (h.spells hinner (quiet_cons hclosing (by decide) rest)) hclosing
  . have hmid := h.length_behind_lt
    obtain ⟨kinds, h⟩ := recognized_assignment h
    obtain ⟨others, hspelled, hnested, hitems⟩ := recognized_items hlater
    refine ⟨kinds ++ .punct .comma :: others, ?_, h.nested.append (hnested.cons_punct rfl), ?_⟩
    . rw [List.append_assoc]
      exact h.spelled.append (hspelled.cons_of_kind hnext)
    . intro ts rest hspelled
      rw [List.append_assoc] at hspelled
      obtain ⟨_, hinner, hbehind⟩ := hspelled.split
      obtain ⟨comma, following, rfl, hcomma, hlater⟩ := hbehind.uncons
      exact reads_items_cons (h.spells hinner (quiet_cons hcomma (by decide) following)) hcomma (hitems hlater)
termination_by (ts.length, levels + 6)

theorem recognized_entries {ts rest : List Token} {entries : List (String × Expr)}
    (h : Reads (readEntries ts) entries rest)
    : ∃ kinds, Spelled (kinds ++ [.punct .rightBrace]) ts rest ∧ Nested kinds ∧
        ∀ ⦃ts rest⦄, Spelled (kinds ++ [.punct .rightBrace]) ts rest → Reads (readEntries ts) entries rest := by
  obtain ⟨rfl, t, rfl, ht⟩ | ⟨word, colon, following, key, value, hts, hword, hcolon, h⟩ := readEntries_cases h
  . refine ⟨[], .single ht rest, .nil, ?_⟩
    intro ts rest hspelled
    obtain ⟨closing, rfl, hclosing⟩ := hspelled.eq_cons
    exact reads_entries_nil hclosing
  . have hfollowing : following.length < ts.length := by simp only [hts, List.length_cons]; omega
    have hnested {kinds : List TokenKind} (h : Nested kinds) : Nested (word.kind :: .punct .colon :: kinds) := by
      have hkey : Nested [word.kind] := by
        apply Nested.token
        intro p hp
        rw [hp] at hword
        cases hword
      exact hkey.append (h.cons_punct rfl)
    obtain ⟨next, rfl, hnext, h⟩ | ⟨next, mid, later, rfl, hnext, h, hlater⟩ := h
    . obtain ⟨kinds, h⟩ := recognized_assignment h
      rw [hts]
      refine ⟨word.kind :: .punct .colon :: kinds, ?_, hnested h.nested, ?_⟩
      . exact ((h.spelled.append (.single hnext rest)).cons_of_kind hcolon).cons_of_kind rfl
      . intro ts rest hspelled
        obtain ⟨other, _, rfl, hother, hspelled⟩ := hspelled.uncons
        obtain ⟨colon, _, rfl, hcolon, hspelled⟩ := hspelled.uncons
        obtain ⟨_, hinner, hbehind⟩ := hspelled.split
        obtain ⟨closing, rfl, hclosing⟩ := hbehind.eq_cons
        rw [← hother] at hword
        exact reads_entries_single hword hcolon (h.spells hinner (quiet_cons hclosing (by decide) rest)) hclosing
    . have hmid := Nat.lt_trans h.length_behind_lt hfollowing
      obtain ⟨kinds, h⟩ := recognized_assignment h
      obtain ⟨others, hspelled, hothers, hentries⟩ := recognized_entries hlater
      rw [hts]
      refine ⟨word.kind :: .punct .colon :: (kinds ++ .punct .comma :: others), ?_,
        hnested (h.nested.append (hothers.cons_punct rfl)), ?_⟩
      . rw [List.cons_append, List.cons_append, List.append_assoc]
        exact ((h.spelled.append (hspelled.cons_of_kind hnext)).cons_of_kind hcolon).cons_of_kind rfl
      . intro ts rest hspelled
        rw [List.cons_append, List.cons_append, List.append_assoc] at hspelled
        obtain ⟨other, _, rfl, hother, hspelled⟩ := hspelled.uncons
        obtain ⟨colon, _, rfl, hcolon, hspelled⟩ := hspelled.uncons
        obtain ⟨_, hinner, hbehind⟩ := hspelled.split
        obtain ⟨comma, following, rfl, hcomma, hlater⟩ := hbehind.uncons
        rw [← hother] at hword
        exact reads_entries_cons hword hcolon (h.spells hinner (quiet_cons hcomma (by decide) following)) hcomma
          (hentries hlater)
termination_by (ts.length, levels + 6)

end

/-! ### What is read from the front -/

section Front

variable {e : Expr} {opening : Token} {ts rest : List Token}

namespace Spelled

variable {kinds : List TokenKind}

theorem exists_append (h : Spelled kinds ts rest) : ∃ read, ts = read ++ rest ∧ read.map Token.kind = kinds := by
  induction h with
  | nil rest => exact ⟨[], rfl, rfl⟩
  | cons t h ih =>
    obtain ⟨read, rfl, rfl⟩ := ih
    exact ⟨t :: read, rfl, rfl⟩

theorem of_append (read rest : List Token) : Spelled (read.map Token.kind) (read ++ rest) rest := by
  induction read with
  | nil => exact .nil rest
  | cons t read ih => exact .cons t ih

end Spelled

/--
Where the line breaks are between tokens does not matter to an expression.
-/
theorem Reads.of_kinds (h : Reads (readAssignment ts) e []) {others : List Token}
    (heq : others.map Token.kind = ts.map Token.kind) : Reads (readAssignment others) e [] := by
  obtain ⟨kinds, h⟩ := recognized_assignment h
  obtain ⟨read, rfl, rfl⟩ := h.spelled.exists_append
  have hspelled := Spelled.of_append others []
  rw [List.append_nil, heq, List.append_nil] at hspelled
  exact h.spells hspelled quiet_nil

theorem exists_unary_of_level {level stronger : Nat} (hlevel : level + stronger = levels)
    (h : Reads (readLevel level ts) e rest) : ∃ operand mid, Reads (readUnary ts) operand mid := by
  induction stronger generalizing level e rest with
  | zero =>
    rw [Nat.add_zero] at hlevel
    rw [hlevel, readLevel_levels] at h
    exact ⟨e, rest, h⟩
  | succ stronger ih =>
    obtain ⟨left, mid, _, hleft, _⟩ := readLevel_cases (by omega) h
    exact ih (by omega) hleft

/--
An expression that starts with a parenthesis starts with an expression in parentheses.
-/
theorem exists_of_reads_leftParen (hopening : opening.kind = .punct .leftParen)
    (h : Reads (readAssignment (opening :: ts)) e rest)
    : ∃ inner closing mid, closing.kind = .punct .rightParen ∧ Reads (readAssignment ts) inner (closing :: mid) := by
  have hconditional : ∃ e rest, Reads (readConditional (opening :: ts)) e rest := by
    obtain ⟨h, _⟩ | ⟨t, _, _, target, _, mid, _, _, _, _, h, _⟩ := readAssignment_cases h
    . exact ⟨e, rest, h⟩
    . exact ⟨target, t :: mid, h⟩
  obtain ⟨e, rest, hconditional⟩ := hconditional
  have hlevel : ∃ e rest, Reads (readLevel 0 (opening :: ts)) e rest := by
    obtain ⟨h, _⟩ | ⟨question, condition, mid, _, _, _, _, _, _, _, h, _⟩ := readConditional_cases hconditional
    . exact ⟨e, rest, h⟩
    . exact ⟨condition, question :: mid, h⟩
  obtain ⟨e, rest, hlevel⟩ := hlevel
  obtain ⟨operand, mid, hunary⟩ := exists_unary_of_level (Nat.zero_add levels) hlevel
  obtain ⟨t, p, op, _, _, heq, ht, hop, _⟩ | ⟨object, mid, _, hprimary, _⟩ := readUnary_cases hunary
  . cases heq
    cases hopening.symm.trans ht
    cases hop
  . obtain ⟨t, heq, ht, _⟩ | ⟨t, _, closing, heq, _, hclosing, hinner⟩ | ⟨t, _, _, heq, ht, _⟩ | ⟨t, _, _, heq, ht, _⟩ :=
      readPrimary_cases hprimary
    . cases heq
      exact absurd hopening (ht _)
    . cases heq
      exact ⟨object, closing, mid, hclosing, hinner⟩
    . cases heq
      cases hopening.symm.trans ht
    . cases heq
      cases hopening.symm.trans ht

/--
The statements from one on, given what is behind it.
-/
def statementsFrom (first : Expr) : List Token → Except Fault (List Expr)
  | [] => .ok [first]
  | next :: others =>
    if next.kind = .punct .semicolon || next.newlineBefore then
      (readStatements (next :: others)).map (first :: ·)
    else
      fail (.unexpectedToken next.kind)

theorem readStatements_of_reads (h : Reads (readAssignment ts) e rest) : readStatements ts = statementsFrom e rest := by
  obtain ⟨t, others, rfl, ht⟩ := exists_cons_of_reads h
  obtain ⟨_, h⟩ := h
  rw [readStatements, if_neg ht]
  split
  . next hread =>
    rw [h] at hread
    cases hread
  . next first hread =>
    rw [h] at hread
    cases hread
    cases rest <;> rfl

theorem exists_of_readStatements {statements : List Expr} (hopening : opening.kind ≠ .punct .semicolon)
    (h : readStatements (opening :: ts) = .ok statements)
    : ∃ e rest, Reads (readAssignment (opening :: ts)) e rest := by
  rw [readStatements, if_neg hopening] at h
  split at h
  . cases h
  . next first hfirst => exact ⟨first.value, first.rest, first.shorter, hfirst⟩

end Front

end Expr
end VisualNovel
