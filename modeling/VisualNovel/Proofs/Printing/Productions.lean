import VisualNovel.Proofs.Printing.Printer

/-!
This module contains what each function of the expression parser reads, one lemma for each production: what its parts
read determines what it reads, and where it stops.
-/

namespace VisualNovel

/--
How strongly a punctuator ties the expression before it to what comes behind, on the scale of `Expr.binding`. It is `0`
for a punctuator that no expression goes on with.
-/
def Punct.pull : Punct → Nat
  | .assign | .addAssign | .subAssign | .mulAssign | .divAssign | .question => 1
  | .or => 2
  | .and => 3
  | .eq | .ne | .strictEq | .strictNe => 4
  | .less | .le | .greater | .ge => 5
  | .plus | .minus => 6
  | .star | .slash | .percent => 7
  | .dot | .leftBracket => 9
  | _ => 0

/--
Can an expression start with the punctuator?
-/
def Punct.startsExpr : Punct → Bool
  | .bang | .minus | .plus | .leftParen | .leftBracket | .leftBrace => true
  | _ => false

namespace Expr

/--
A parser has read a value and stops before the rest.
-/
def Reads {α : Type} {ts : List Token} (x : Except Fault (Taken ts α)) (value : α) (rest : List Token) : Prop :=
  ∃ shorter, x = .ok { value, rest, shorter }

/--
The tokens start with tokens of the given kinds. Where their line breaks are does not matter.
-/
inductive Spelled : List TokenKind → List Token → List Token → Prop where
  | nil (rest : List Token) : Spelled [] rest rest
  | cons {kinds : List TokenKind} {ts rest : List Token} (t : Token) (h : Spelled kinds ts rest)
    : Spelled (t.kind :: kinds) (t :: ts) rest

/--
What comes next is not tied as strongly as `strength` to what is before.
-/
def Quiet (strength : Nat) (ts : List Token) : Prop :=
  ∀ p, punctOf? ts = some p → p.pull < strength

/--
The operators of a level that follow a left operand lead to this value.
-/
def Operands (level : Nat) (left : Expr) (mid : List Token) (value : Expr) (rest : List Token) : Prop :=
  ∀ {ts : List Token} (shorter : mid.length < ts.length),
    Reads (readOperands level { value := left, rest := mid, shorter : Taken ts Expr }) value rest

/--
The accesses to members that follow an object lead to this value.
-/
def Members (object : Expr) (mid : List Token) (value : Expr) (rest : List Token) : Prop :=
  ∀ {ts : List Token} (shorter : mid.length < ts.length),
    Reads (readMembers { value := object, rest := mid, shorter : Taken ts Expr }) value rest

theorem punctOf?_eq_some {ts : List Token} {p : Punct} (h : punctOf? ts = some p)
    : ∃ t rest, ts = t :: rest ∧ t.kind = .punct p := by
  unfold punctOf? at h
  split at h
  . cases h
    exact ⟨_, _, rfl, rfl⟩
  . cases h

theorem punctOf?_cons {t : Token} {p : Punct} (h : t.kind = .punct p) (ts : List Token)
    : punctOf? (t :: ts) = some p := by
  cases t
  subst h
  rfl

theorem Quiet.mono {strength other : Nat} {ts : List Token} (h : Quiet strength ts) (hle : strength ≤ other)
    : Quiet other ts :=
  fun p hp => Nat.lt_of_lt_of_le (h p hp) hle

theorem quiet_nil {strength : Nat} : Quiet strength [] :=
  nofun

theorem quiet_cons {t : Token} {p : Punct} (ht : t.kind = .punct p) {strength : Nat} (h : p.pull < strength)
    (ts : List Token) : Quiet strength (t :: ts) := by
  intro q hq
  rw [punctOf?_cons ht] at hq
  cases hq
  exact h

/--
No punctuator comes next that is tied exactly as strongly.
-/
theorem Quiet.kind_ne {strength : Nat} {t : Token} {ts : List Token} (h : Quiet strength (t :: ts)) {p : Punct}
    (hp : strength ≤ p.pull) : t.kind ≠ .punct p := by
  intro hkind
  have hlt := h p (punctOf?_cons hkind ts)
  omega

theorem pull_of_operator? {level : Nat} {p : Punct} {op : Expr → Expr → Expr} (h : operator? level p = some op)
    : p.pull = level + 2 := by
  unfold operator? at h
  split at h <;> first | rfl | cases h

theorem pull_of_assignment? {p : Punct} {op : Option BinaryOp} (h : assignment? p = some op) : p.pull = 1 := by
  unfold assignment? at h
  split at h <;> first | rfl | cases h

section Expect

variable {p : Punct} {t : Token} {ts : List Token}

theorem reads_expect (ts : List Token) (h : t.kind = .punct p) : Reads (expect p (t :: ts)) () ts := by
  unfold expect
  dsimp only
  rw [if_pos h]
  exact ⟨_, rfl⟩

theorem expect_error (h : punctOf? ts ≠ some p) : ∃ e, expect p ts = .error e := by
  unfold expect
  split
  . exact ⟨_, rfl⟩
  . next t rest =>
    rw [if_neg (fun ht => h (punctOf?_cons ht rest))]
    exact ⟨_, rfl⟩

end Expect

/-! ### Accesses and operands -/

section Members

variable {object key value : Expr} {mid ts rest : List Token}

theorem members_done (h : Quiet 9 mid) : Members object mid object mid := by
  intro ts hlt
  rw [readMembers]
  split
  . exact ⟨_, rfl⟩
  . next t others hmid =>
    dsimp only at hmid
    subst hmid
    rw [if_neg (h.kind_ne (p := .dot) (Nat.le_refl 9)), if_neg (h.kind_ne (p := .leftBracket) (Nat.le_refl 9))]
    exact ⟨_, rfl⟩

theorem members_dot {dot word : Token} {s : String} (hdot : dot.kind = .punct .dot) (hword : word.kind = .name s)
    (h : Members (.member object (.literal (.string s))) mid value rest)
    : Members object (dot :: word :: mid) value rest := by
  intro ts hlt
  obtain ⟨kind, newline⟩ := word
  cases hword
  rw [readMembers]
  dsimp only
  rw [if_pos hdot]
  exact h _

theorem members_bracket {opening closing : Token} (hopening : opening.kind = .punct .leftBracket)
    (hclosing : closing.kind = .punct .rightBracket) (hkey : Reads (readAssignment ts) key (closing :: mid))
    (h : Members (.member object key) mid value rest) : Members object (opening :: ts) value rest := by
  intro _ hlt
  obtain ⟨_, hkey⟩ := hkey
  obtain ⟨_, hbracket⟩ := reads_expect mid hclosing
  have hdot : opening.kind ≠ .punct .dot := by rw [hopening]; decide
  rw [readMembers]
  dsimp only
  rw [if_neg hdot, if_pos hopening, hkey]
  dsimp only
  rw [hbracket]
  exact h _

end Members

section Operands

variable {level : Nat} {left right value : Expr} {mid ts rest : List Token}

theorem bind_operator?_of_quiet (h : Quiet (level + 2) mid) : (punctOf? mid).bind (operator? level) = none := by
  rw [Option.bind_eq_none_iff]
  intro p hp
  cases hop : operator? level p with
  | none => rfl
  | some op =>
    have hlt := h p hp
    rw [pull_of_operator? hop] at hlt
    omega

theorem bind_assignment?_of_quiet (h : Quiet 1 mid) : (punctOf? mid).bind assignment? = none := by
  rw [Option.bind_eq_none_iff]
  intro p hp
  cases hop : assignment? p with
  | none => rfl
  | some op =>
    have hlt := h p hp
    rw [pull_of_assignment? hop] at hlt
    omega

theorem operands_done (h : Quiet (level + 2) mid) : Operands level left mid left mid := by
  intro ts hlt
  have hop := bind_operator?_of_quiet h
  rw [readOperands]
  split
  . exact ⟨_, rfl⟩
  . next t others hmid =>
    dsimp only at hmid
    subst hmid
    rw [hop]
    exact ⟨_, rfl⟩

theorem operands_more {t : Token} {p : Punct} (ht : t.kind = .punct p) {op : Expr → Expr → Expr}
    (hop : operator? level p = some op) (hright : Reads (readLevel (level + 1) ts) right mid)
    (h : Operands level (op left right) mid value rest) : Operands level left (t :: ts) value rest := by
  intro _ hlt
  obtain ⟨_, hright⟩ := hright
  rw [readOperands]
  dsimp only
  rw [punctOf?_cons ht, Option.bind_some, hop]
  dsimp only
  rw [hright]
  exact h _

end Operands

/-! ### Productions -/

section Productions

variable {e value : Expr} {t : Token} {mid ts rest : List Token}

theorem reads_unary_of_primary (hunary : (punctOf? ts).bind unary? = none) (hprimary : Reads (readPrimary ts) e mid)
    (h : Members e mid value rest) : Reads (readUnary ts) value rest := by
  obtain ⟨_, hprimary⟩ := hprimary
  rw [readUnary, hunary]
  dsimp only
  rw [hprimary]
  exact h _

theorem reads_unary_of_operator {p : Punct} (ht : t.kind = .punct p) {op : UnaryOp} (hop : unary? p = some op)
    (h : Reads (readUnary ts) e rest) : Reads (readUnary (t :: ts)) (.unary op e) rest := by
  obtain ⟨_, h⟩ := h
  rw [readUnary, punctOf?_cons ht, Option.bind_some, hop]
  dsimp only
  rw [h]
  exact ⟨_, rfl⟩

theorem readLevel_levels (ts : List Token) : readLevel levels ts = readUnary ts := by
  rw [readLevel, if_neg (Nat.lt_irrefl levels)]

theorem reads_level {level : Nat} (hlevel : level < levels) {left : Expr}
    (hleft : Reads (readLevel (level + 1) ts) left mid) (h : Operands level left mid value rest)
    : Reads (readLevel level ts) value rest := by
  obtain ⟨_, hleft⟩ := hleft
  rw [readLevel, if_pos hlevel, hleft]
  exact h _

theorem reads_conditional_of_level (h : Reads (readLevel 0 ts) e rest)
    (hrest : punctOf? rest ≠ some .question) : Reads (readConditional ts) e rest := by
  obtain ⟨_, h⟩ := h
  rw [readConditional, h]
  dsimp only
  split
  . exact ⟨_, rfl⟩
  . next t others hothers =>
    rw [if_neg (fun ht => hrest (punctOf?_cons ht others))]
    exact ⟨_, rfl⟩

theorem reads_conditional {condition yes no : Expr} {question colon : Token} {behind : List Token}
    (hquestion : question.kind = .punct .question) (hcolon : colon.kind = .punct .colon)
    (hcondition : Reads (readLevel 0 ts) condition (question :: mid))
    (hyes : Reads (readAssignment mid) yes (colon :: behind)) (hno : Reads (readAssignment behind) no rest)
    : Reads (readConditional ts) (.conditional condition yes no) rest := by
  obtain ⟨_, hcondition⟩ := hcondition
  obtain ⟨_, hyes⟩ := hyes
  obtain ⟨_, hcolon⟩ := reads_expect behind hcolon
  obtain ⟨_, hno⟩ := hno
  rw [readConditional, hcondition]
  dsimp only
  rw [if_pos hquestion, hyes]
  dsimp only
  rw [hcolon]
  dsimp only
  rw [hno]
  exact ⟨_, rfl⟩

theorem reads_assignment_of_conditional (h : Reads (readConditional ts) e rest)
    (hrest : (punctOf? rest).bind assignment? = none) : Reads (readAssignment ts) e rest := by
  obtain ⟨_, h⟩ := h
  rw [readAssignment, h]
  dsimp only
  split
  . exact ⟨_, rfl⟩
  . rw [hrest]
    exact ⟨_, rfl⟩

theorem reads_assignment {p : Punct} (ht : t.kind = .punct p) {op : Option BinaryOp} (hop : assignment? p = some op)
    {target : Expr} (htarget : target.isTarget) (h : Reads (readConditional ts) target (t :: mid))
    (hvalue : Reads (readAssignment mid) value rest) : Reads (readAssignment ts) (.assign op target value) rest := by
  obtain ⟨_, h⟩ := h
  obtain ⟨_, hvalue⟩ := hvalue
  rw [readAssignment, h]
  dsimp only
  rw [punctOf?_cons ht, Option.bind_some, hop]
  dsimp only
  rw [if_pos htarget, hvalue]
  exact ⟨_, rfl⟩

end Productions

/-! ### Primary expressions -/

section Primary

variable {e : Expr} {t closing : Token} {ts rest : List Token}

theorem reads_number {x : Binary64} (ht : t.kind = .number x) {n : Number} (hn : Number.ofBinary64? x = some n)
    : Reads (readPrimary (t :: ts)) (.literal (.number n)) ts := by
  rw [readPrimary, ht]
  dsimp only
  rw [number, hn]
  exact ⟨_, rfl⟩

theorem reads_string {s : String} (ht : t.kind = .string s)
    : Reads (readPrimary (t :: ts)) (.literal (.string s)) ts := by
  rw [readPrimary, ht]
  exact ⟨_, rfl⟩

theorem reads_name (ts : List Token) {word : String} (ht : t.kind = .name word)
    : Reads (readPrimary (t :: ts)) (ofWord word) ts := by
  rw [readPrimary, ht]
  exact ⟨_, rfl⟩

theorem reads_paren (ht : t.kind = .punct .leftParen) (hclosing : closing.kind = .punct .rightParen)
    (h : Reads (readAssignment ts) e (closing :: rest)) : Reads (readPrimary (t :: ts)) e rest := by
  obtain ⟨_, h⟩ := h
  obtain ⟨_, hparen⟩ := reads_expect rest hclosing
  rw [readPrimary, ht]
  dsimp only
  rw [h]
  dsimp only
  rw [hparen]
  exact ⟨_, rfl⟩

theorem reads_array (ht : t.kind = .punct .leftBracket) {items : List Expr} (h : Reads (readItems ts) items rest)
    : Reads (readPrimary (t :: ts)) (.array items) rest := by
  obtain ⟨_, h⟩ := h
  rw [readPrimary, ht]
  dsimp only
  rw [h]
  exact ⟨_, rfl⟩

theorem reads_object (ht : t.kind = .punct .leftBrace) {entries : List (String × Expr)}
    (h : Reads (readEntries ts) entries rest) : Reads (readPrimary (t :: ts)) (.object entries) rest := by
  obtain ⟨_, h⟩ := h
  rw [readPrimary, ht]
  dsimp only
  rw [h]
  exact ⟨_, rfl⟩

end Primary

/-! ### Where an expression starts -/

section Starts

variable {e : Expr} {fault : Fault} {p : Punct} {t : Token} {ts rest : List Token}

theorem readUnary_error (ts : List Token) (h : p.startsExpr = false) (ht : t.kind = .punct p)
    : ∃ fault, readUnary (t :: ts) = .error fault := by
  have hprimary : ∃ fault, readPrimary (t :: ts) = .error fault := by
    rw [readPrimary, ht]
    cases p <;> first | exact ⟨_, rfl⟩ | cases h
  obtain ⟨fault, hprimary⟩ := hprimary
  have hunary : unary? p = none := by
    cases p <;> first | rfl | cases h
  rw [readUnary, punctOf?_cons ht, Option.bind_some, hunary]
  dsimp only
  rw [hprimary]
  exact ⟨_, rfl⟩

theorem readLevel_error (h : readUnary ts = .error fault) {level stronger : Nat} (hlevel : level + stronger = levels)
    : readLevel level ts = .error fault := by
  induction stronger generalizing level with
  | zero =>
    rw [Nat.add_zero] at hlevel
    rw [hlevel, readLevel_levels, h]
  | succ stronger ih =>
    have hlt : level < levels := by omega
    rw [readLevel, if_pos hlt, ih (by omega)]

theorem Reads.startsExpr (h : Reads (readAssignment ts) e rest) (hp : punctOf? ts = some p) : p.startsExpr := by
  obtain ⟨_, h⟩ := h
  cases hstarts : p.startsExpr with
  | true => rfl
  | false =>
    obtain ⟨t, ts, rfl, ht⟩ := punctOf?_eq_some hp
    obtain ⟨fault, hunary⟩ := readUnary_error ts hstarts ht
    rw [readAssignment, readConditional, readLevel_error hunary (Nat.zero_add levels)] at h
    cases h

end Starts

/-! ### Lists of expressions -/

/--
The token stands for a key of an object: a word, a string, or the display of a number.
-/
inductive NamesKey : TokenKind → String → Prop where
  | name (s : String) : NamesKey (.name s) s
  | string (s : String) : NamesKey (.string s) s
  | number {x : Binary64} {n : Number} (hn : Number.ofBinary64? x = some n) : NamesKey (.number x) n.display

section Lists

variable {item value : Expr} {items : List Expr} {key : String} {entries : List (String × Expr)}
  {word colon next : Token} {mid ts rest : List Token}

theorem reads_items_nil (h : next.kind = .punct .rightBracket) : Reads (readItems (next :: rest)) [] rest := by
  obtain ⟨_, hbracket⟩ := reads_expect rest h
  rw [readItems, hbracket]
  exact ⟨_, rfl⟩

theorem reads_items_single (hitem : Reads (readAssignment ts) item (next :: rest))
    (h : next.kind = .punct .rightBracket) : Reads (readItems ts) [item] rest := by
  have hstart : punctOf? ts ≠ some .rightBracket := fun hp => nomatch hitem.startsExpr hp
  have hcomma : punctOf? (next :: rest) ≠ some .comma := by rw [punctOf?_cons h]; decide
  obtain ⟨_, hstart⟩ := expect_error hstart
  obtain ⟨_, hcomma⟩ := expect_error hcomma
  obtain ⟨_, hitem⟩ := hitem
  obtain ⟨_, hbracket⟩ := reads_expect rest h
  rw [readItems, hstart]
  dsimp only
  rw [hitem]
  dsimp only
  rw [hcomma]
  dsimp only
  rw [hbracket]
  exact ⟨_, rfl⟩

theorem reads_items_cons (hitem : Reads (readAssignment ts) item (next :: mid)) (h : next.kind = .punct .comma)
    (hitems : Reads (readItems mid) items rest) : Reads (readItems ts) (item :: items) rest := by
  have hstart : punctOf? ts ≠ some .rightBracket := fun hp => nomatch hitem.startsExpr hp
  obtain ⟨_, hstart⟩ := expect_error hstart
  obtain ⟨_, hitem⟩ := hitem
  obtain ⟨_, hcomma⟩ := reads_expect mid h
  obtain ⟨_, hitems⟩ := hitems
  rw [readItems, hstart]
  dsimp only
  rw [hitem]
  dsimp only
  rw [hcomma]
  dsimp only
  rw [hitems]
  exact ⟨_, rfl⟩

theorem reads_entries_nil (h : next.kind = .punct .rightBrace) : Reads (readEntries (next :: rest)) [] rest := by
  obtain ⟨_, hbrace⟩ := reads_expect rest h
  rw [readEntries, hbrace]
  exact ⟨_, rfl⟩

theorem reads_key (ts : List Token) (hword : NamesKey word.kind key) : Reads (readKey (word :: ts)) key ts := by
  obtain ⟨kind, newline⟩ := word
  cases hword with
  | name | string => exact ⟨_, rfl⟩
  | number hn =>
    rw [readKey, number, hn]
    exact ⟨_, rfl⟩

theorem expect_rightBrace_error (ts : List Token) (hword : NamesKey word.kind key)
    : ∃ fault, expect .rightBrace (word :: ts) = .error fault := by
  obtain ⟨kind, newline⟩ := word
  cases hword <;> exact expect_error nofun

theorem reads_entries_single (hword : NamesKey word.kind key) (hcolon : colon.kind = .punct .colon)
    (hvalue : Reads (readAssignment ts) value (next :: rest)) (h : next.kind = .punct .rightBrace)
    : Reads (readEntries (word :: colon :: ts)) [(key, value)] rest := by
  have hcomma : punctOf? (next :: rest) ≠ some .comma := by rw [punctOf?_cons h]; decide
  obtain ⟨_, hstart⟩ := expect_rightBrace_error (colon :: ts) hword
  obtain ⟨_, hkey⟩ := reads_key (colon :: ts) hword
  obtain ⟨_, hcolon⟩ := reads_expect ts hcolon
  obtain ⟨_, hcomma⟩ := expect_error hcomma
  obtain ⟨_, hvalue⟩ := hvalue
  obtain ⟨_, hbrace⟩ := reads_expect rest h
  rw [readEntries, hstart]
  dsimp only
  rw [hkey]
  dsimp only
  rw [hcolon]
  dsimp only
  rw [hvalue]
  dsimp only
  rw [hcomma]
  dsimp only
  rw [hbrace]
  exact ⟨_, rfl⟩

theorem reads_entries_cons (hword : NamesKey word.kind key) (hcolon : colon.kind = .punct .colon)
    (hvalue : Reads (readAssignment ts) value (next :: mid)) (h : next.kind = .punct .comma)
    (hentries : Reads (readEntries mid) entries rest)
    : Reads (readEntries (word :: colon :: ts)) ((key, value) :: entries) rest := by
  obtain ⟨_, hstart⟩ := expect_rightBrace_error (colon :: ts) hword
  obtain ⟨_, hkey⟩ := reads_key (colon :: ts) hword
  obtain ⟨_, hcolon⟩ := reads_expect ts hcolon
  obtain ⟨_, hvalue⟩ := hvalue
  obtain ⟨_, hcomma⟩ := reads_expect mid h
  obtain ⟨_, hentries⟩ := hentries
  rw [readEntries, hstart]
  dsimp only
  rw [hkey]
  dsimp only
  rw [hcolon]
  dsimp only
  rw [hvalue]
  dsimp only
  rw [hcomma]
  dsimp only
  rw [hentries]
  exact ⟨_, rfl⟩

end Lists

/-! ### Statements -/

section Statements

variable {statement : Expr} {statements : List Expr} {next : Token} {mid ts : List Token}

/--
A statement does not start with a semicolon, which would be skipped.
-/
theorem exists_cons_of_reads {rest : List Token} (h : Reads (readAssignment ts) statement rest)
    : ∃ t others, ts = t :: others ∧ t.kind ≠ .punct .semicolon := by
  cases ts with
  | nil =>
    obtain ⟨hlt, _⟩ := h
    cases hlt
  | cons t others =>
    refine ⟨t, others, rfl, fun ht => ?_⟩
    exact nomatch h.startsExpr (punctOf?_cons ht others)

theorem readStatements_single (h : Reads (readAssignment ts) statement []) : readStatements ts = .ok [statement] := by
  obtain ⟨t, others, rfl, ht⟩ := exists_cons_of_reads h
  obtain ⟨_, h⟩ := h
  rw [readStatements, if_neg ht, h]

theorem readStatements_cons (h : Reads (readAssignment ts) statement (next :: mid))
    (hnext : next.kind = .punct .semicolon) (hstatements : readStatements mid = .ok statements)
    : readStatements ts = .ok (statement :: statements) := by
  obtain ⟨t, others, rfl, ht⟩ := exists_cons_of_reads h
  obtain ⟨_, h⟩ := h
  have hskip : readStatements (next :: mid) = .ok statements := by
    rw [readStatements, if_pos hnext, hstatements]
  rw [readStatements, if_neg ht, h]
  dsimp only
  rw [hnext, hskip]
  rfl

end Statements
end Expr
end VisualNovel
