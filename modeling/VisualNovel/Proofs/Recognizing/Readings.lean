import VisualNovel.Proofs.Printing.Inversion

/-!
This module contains what each function of the expression parser has read when it reads something, one lemma for each
production. These are the converses of the lemmas on what the productions read.
-/

namespace VisualNovel
namespace Expr

theorem exists_of_bind_eq_ok {ε α β : Type} {first : Except ε α} {next : α → Except ε β} {b : β}
    (h : first >>= next = .ok b) : ∃ a, first = .ok a ∧ next a = .ok b := by
  cases first with
  | error e => cases h
  | ok a => exact ⟨a, rfl, h⟩

theorem ofBinary64?_of_number {x : Binary64} {n : Number} (h : number x = .ok n) : Number.ofBinary64? x = some n := by
  unfold number at h
  split at h <;> cases h
  assumption

section Cases

variable {e : Expr} {ts rest : List Token}

theorem Reads.length_lt {α : Type} {x : Except Fault (Taken ts α)} {value : α} (h : Reads x value rest)
    : rest.length < ts.length :=
  h.1

theorem Reads.length_behind_lt {α : Type} {x : Except Fault (Taken ts α)} {value : α} {t : Token}
    (h : Reads x value (t :: rest)) : rest.length < ts.length :=
  Nat.lt_of_succ_lt h.1

theorem readAssignment_cases (h : Reads (readAssignment ts) e rest)
    : (Reads (readConditional ts) e rest ∧ (punctOf? rest).bind assignment? = none) ∨
      ∃ t p op target value mid, t.kind = .punct p ∧ assignment? p = some op ∧ target.isTarget ∧
        e = .assign op target value ∧ Reads (readConditional ts) target (t :: mid) ∧
        Reads (readAssignment mid) value rest := by
  obtain ⟨shorter, h⟩ := h
  rw [readAssignment] at h
  split at h
  . cases h
  . next target htarget =>
    obtain ⟨target, behind, hbehind⟩ := target
    dsimp only at h
    split at h
    . cases h
      exact .inl ⟨⟨_, htarget⟩, rfl⟩
    . next t mid =>
      split at h
      . next hnone =>
        cases h
        exact .inl ⟨⟨_, htarget⟩, hnone⟩
      . next op hop =>
        obtain ⟨p, hp, hop⟩ := Option.bind_eq_some_iff.1 hop
        obtain ⟨_, _, heq, ht⟩ := punctOf?_eq_some hp
        cases heq
        split at h
        . next hisTarget =>
          obtain ⟨value, hvalue, h⟩ := exists_of_bind_eq_ok h
          cases h
          exact .inr ⟨t, p, op, target, value.value, mid, ht, hop, hisTarget, rfl, ⟨_, htarget⟩, ⟨_, hvalue⟩⟩
        . cases h

theorem exists_of_expect {p : Punct} {next : Taken ts Unit} (h : expect p ts = .ok next)
    : ∃ t, t.kind = .punct p ∧ ts = t :: next.rest := by
  unfold expect at h
  split at h
  . cases h
  . next t behind =>
    split at h
    . next ht =>
      cases h
      exact ⟨t, ht, rfl⟩
    . cases h

theorem readConditional_cases (h : Reads (readConditional ts) e rest)
    : (Reads (readLevel 0 ts) e rest ∧ punctOf? rest ≠ some .question) ∨
      ∃ question condition mid yes colon behind no, question.kind = .punct .question ∧ colon.kind = .punct .colon ∧
        e = .conditional condition yes no ∧ Reads (readLevel 0 ts) condition (question :: mid) ∧
        Reads (readAssignment mid) yes (colon :: behind) ∧ Reads (readAssignment behind) no rest := by
  obtain ⟨shorter, h⟩ := h
  rw [readConditional] at h
  split at h
  . cases h
  . next condition hcondition =>
    obtain ⟨condition, _, _⟩ := condition
    dsimp only at h
    split at h
    . cases h
      refine .inl ⟨⟨_, hcondition⟩, fun hp => ?_⟩
      cases hp
    . next question mid _ =>
      split at h
      . next hquestion =>
        split at h
        . cases h
        . next yes hyes =>
          obtain ⟨yes, _, _⟩ := yes
          dsimp only at h
          split at h
          . cases h
          . next next hcolon =>
            obtain ⟨colon, hkind, heq⟩ := exists_of_expect hcolon
            have hyes : Reads (readAssignment mid) yes _ := ⟨_, hyes⟩
            rw [heq] at hyes
            obtain ⟨no, hno, h⟩ := exists_of_bind_eq_ok h
            cases h
            exact .inr ⟨question, condition, mid, yes, colon, next.rest, no.value, hquestion, hkind, rfl,
              ⟨_, hcondition⟩, hyes, ⟨_, hno⟩⟩
      . next hquestion =>
        cases h
        refine .inl ⟨⟨_, hcondition⟩, fun hp => ?_⟩
        obtain ⟨_, _, heq, ht⟩ := punctOf?_eq_some hp
        cases heq
        exact hquestion ht

theorem readLevel_cases {level : Nat} (hlevel : level < levels) (h : Reads (readLevel level ts) e rest)
    : ∃ left mid shorter, Reads (readLevel (level + 1) ts) left mid ∧
        Reads (readOperands level { value := left, rest := mid, shorter : Taken ts Expr }) e rest := by
  obtain ⟨shorter, h⟩ := h
  rw [readLevel, if_pos hlevel] at h
  split at h
  . cases h
  . next left hleft => exact ⟨left.value, left.rest, left.shorter, ⟨_, hleft⟩, ⟨_, h⟩⟩

theorem readOperands_cases {level : Nat} {left : Expr} {mid : List Token} {shorter : mid.length < ts.length}
    (h : Reads (readOperands level { value := left, rest := mid, shorter : Taken ts Expr }) e rest)
    : (e = left ∧ rest = mid ∧ (punctOf? mid).bind (operator? level) = none) ∨
      ∃ t p op following right behind shorter, mid = t :: following ∧ t.kind = .punct p ∧ operator? level p = some op ∧
        Reads (readLevel (level + 1) following) right behind ∧
        Reads (readOperands level { value := op left right, rest := behind, shorter : Taken ts Expr }) e rest := by
  obtain ⟨_, h⟩ := h
  rw [readOperands] at h
  dsimp only at h
  split at h
  . cases h
    exact .inl ⟨rfl, rfl, rfl⟩
  . next t following =>
    split at h
    . next hnone =>
      cases h
      exact .inl ⟨rfl, rfl, hnone⟩
    . next op hop =>
      obtain ⟨p, hp, hop⟩ := Option.bind_eq_some_iff.1 hop
      obtain ⟨_, _, heq, ht⟩ := punctOf?_eq_some hp
      cases heq
      split at h
      . cases h
      . next right hright =>
        exact .inr ⟨t, p, op, following, right.value, right.rest, _, rfl, ht, hop, ⟨_, hright⟩, ⟨_, h⟩⟩

theorem readUnary_cases (h : Reads (readUnary ts) e rest)
    : (∃ t p op following operand, ts = t :: following ∧ t.kind = .punct p ∧ unary? p = some op ∧
        e = .unary op operand ∧ Reads (readUnary following) operand rest) ∨
      ∃ object mid shorter, Reads (readPrimary ts) object mid ∧
        Reads (readMembers { value := object, rest := mid, shorter : Taken ts Expr }) e rest := by
  obtain ⟨_, h⟩ := h
  cases hunary : (punctOf? ts).bind unary? with
  | some op =>
    obtain ⟨p, hp, hop⟩ := Option.bind_eq_some_iff.1 hunary
    obtain ⟨t, following, rfl, ht⟩ := punctOf?_eq_some hp
    rw [readUnary, hunary] at h
    dsimp only at h
    obtain ⟨operand, hoperand, h⟩ := exists_of_bind_eq_ok h
    cases h
    exact .inl ⟨t, p, op, following, operand.value, rfl, ht, hop, rfl, ⟨_, hoperand⟩⟩
  | none =>
    rw [readUnary, hunary] at h
    dsimp only at h
    split at h
    . cases h
    . next first hfirst =>
      exact .inr ⟨first.value, first.rest, first.shorter, ⟨_, hfirst⟩, ⟨_, h⟩⟩

theorem readMembers_cases {object : Expr} {mid : List Token} {shorter : mid.length < ts.length}
    (h : Reads (readMembers { value := object, rest := mid, shorter : Taken ts Expr }) e rest)
    : (e = object ∧ rest = mid ∧ punctOf? mid ≠ some .dot ∧ punctOf? mid ≠ some .leftBracket) ∨
      (∃ dot word s behind shorter, mid = dot :: word :: behind ∧ dot.kind = .punct .dot ∧ word.kind = .name s ∧
        Reads (readMembers {
          value := .member object (.literal (.string s)), rest := behind, shorter : Taken ts Expr }) e rest) ∨
      ∃ opening following key closing behind shorter, mid = opening :: following ∧
        opening.kind = .punct .leftBracket ∧ closing.kind = .punct .rightBracket ∧
        Reads (readAssignment following) key (closing :: behind) ∧
        Reads (readMembers { value := .member object key, rest := behind, shorter : Taken ts Expr }) e rest := by
  obtain ⟨_, h⟩ := h
  rw [readMembers] at h
  dsimp only at h
  split at h
  . cases h
    exact .inl ⟨rfl, rfl, nofun, nofun⟩
  . next t following =>
    split at h
    . next hdot =>
      split at h
      . exact .inr (.inl ⟨t, _, _, _, _, rfl, hdot, rfl, ⟨_, h⟩⟩)
      . cases h
    . next hdot =>
      split at h
      . next hopening =>
        split at h
        . cases h
        . next key hkey =>
          obtain ⟨key, _, _⟩ := key
          dsimp only at h
          split at h
          . cases h
          . next next hclosing =>
            obtain ⟨closing, hkind, heq⟩ := exists_of_expect hclosing
            have hkey : Reads (readAssignment following) key _ := ⟨_, hkey⟩
            rw [heq] at hkey
            exact .inr (.inr ⟨t, following, key, closing, next.rest, _, rfl, hopening, hkind, hkey, ⟨_, h⟩⟩)
      . next hopening =>
        cases h
        have hne {p : Punct} (ht : t.kind ≠ .punct p) : punctOf? (t :: following) ≠ some p := by
          intro hp
          obtain ⟨_, _, heq, hkind⟩ := punctOf?_eq_some hp
          cases heq
          exact ht hkind
        exact .inl ⟨rfl, rfl, hne hdot, hne hopening⟩

/--
What a primary expression is read from: a single token, or parentheses, an array or an object.
-/
theorem readPrimary_cases (h : Reads (readPrimary ts) e rest)
    : (∃ t, ts = t :: rest ∧ (∀ p, t.kind ≠ .punct p) ∧
        ∀ u others, u.kind = t.kind → Reads (readPrimary (u :: others)) e others) ∨
      (∃ t following closing, ts = t :: following ∧ t.kind = .punct .leftParen ∧ closing.kind = .punct .rightParen ∧
        Reads (readAssignment following) e (closing :: rest)) ∨
      (∃ t following items, ts = t :: following ∧ t.kind = .punct .leftBracket ∧ e = .array items ∧
        Reads (readItems following) items rest) ∨
      ∃ t following entries, ts = t :: following ∧ t.kind = .punct .leftBrace ∧ e = .object entries ∧
        Reads (readEntries following) entries rest := by
  obtain ⟨_, h⟩ := h
  cases ts with
  | nil =>
    rw [readPrimary] at h
    cases h
  | cons t following =>
    rw [readPrimary] at h
    split at h
    . next x ht =>
      obtain ⟨n, hn, h⟩ := exists_of_bind_eq_ok h
      cases h
      exact .inl ⟨t, rfl, by simp [ht], fun u others hu => reads_number (hu.trans ht) (ofBinary64?_of_number hn)⟩
    . next s ht =>
      cases h
      exact .inl ⟨t, rfl, by simp [ht], fun u others hu => reads_string (hu.trans ht)⟩
    . next s ht =>
      cases h
      exact .inl ⟨t, rfl, by simp [ht], fun u others hu => reads_name others (hu.trans ht)⟩
    . next ht =>
      split at h
      . cases h
      . next inner hinner =>
        obtain ⟨paren, hparen, h⟩ := exists_of_bind_eq_ok h
        cases h
        obtain ⟨closing, hclosing, heq⟩ := exists_of_expect hparen
        have hinner : Reads (readAssignment following) inner.value inner.rest := ⟨_, hinner⟩
        rw [heq] at hinner
        exact .inr (.inl ⟨t, following, closing, rfl, ht, hclosing, hinner⟩)
    . next ht =>
      obtain ⟨items, hitems, h⟩ := exists_of_bind_eq_ok h
      cases h
      exact .inr (.inr (.inl ⟨t, following, items.value, rfl, ht, rfl, ⟨_, hitems⟩⟩))
    . next ht =>
      obtain ⟨entries, hentries, h⟩ := exists_of_bind_eq_ok h
      cases h
      exact .inr (.inr (.inr ⟨t, following, entries.value, rfl, ht, rfl, ⟨_, hentries⟩⟩))
    . cases h

theorem readItems_cases {items : List Expr} (h : Reads (readItems ts) items rest)
    : (items = [] ∧ ∃ t, ts = t :: rest ∧ t.kind = .punct .rightBracket) ∨
      (∃ item next, items = [item] ∧ next.kind = .punct .rightBracket ∧
        Reads (readAssignment ts) item (next :: rest)) ∨
      ∃ item next mid later, items = item :: later ∧ next.kind = .punct .comma ∧
        Reads (readAssignment ts) item (next :: mid) ∧ Reads (readItems mid) later rest := by
  obtain ⟨_, h⟩ := h
  rw [readItems] at h
  split at h
  . next bracket hbracket =>
    cases h
    obtain ⟨t, ht, heq⟩ := exists_of_expect hbracket
    exact .inl ⟨rfl, t, heq, ht⟩
  . split at h
    . cases h
    . next item hitem =>
      obtain ⟨item, behind, hbehind⟩ := item
      have hitem : Reads (readAssignment ts) item behind := ⟨_, hitem⟩
      dsimp only at h
      split at h
      . next comma hcomma =>
        obtain ⟨next, hnext, heq⟩ := exists_of_expect hcomma
        rw [heq] at hitem
        obtain ⟨later, hlater, h⟩ := exists_of_bind_eq_ok h
        cases h
        exact .inr (.inr ⟨item, next, comma.rest, later.value, rfl, hnext, hitem, ⟨_, hlater⟩⟩)
      . obtain ⟨bracket, hbracket, h⟩ := exists_of_bind_eq_ok h
        cases h
        obtain ⟨next, hnext, heq⟩ := exists_of_expect hbracket
        rw [heq] at hitem
        exact .inr (.inl ⟨item, next, rfl, hnext, hitem⟩)

theorem exists_of_readKey {key : Taken ts String} (h : readKey ts = .ok key)
    : ∃ word, NamesKey word.kind key.value ∧ ts = word :: key.rest := by
  unfold readKey at h
  split at h
  . cases h
    exact ⟨_, .name _, rfl⟩
  . cases h
    exact ⟨_, .string _, rfl⟩
  . next x _ _ =>
    obtain ⟨n, hn, h⟩ := exists_of_bind_eq_ok h
    cases h
    exact ⟨_, .number (ofBinary64?_of_number hn), rfl⟩
  . cases h

theorem readEntries_cases {entries : List (String × Expr)} (h : Reads (readEntries ts) entries rest)
    : (entries = [] ∧ ∃ t, ts = t :: rest ∧ t.kind = .punct .rightBrace) ∨
      ∃ word colon following key value, ts = word :: colon :: following ∧ NamesKey word.kind key ∧
        colon.kind = .punct .colon ∧
        ((∃ next, entries = [(key, value)] ∧ next.kind = .punct .rightBrace ∧
            Reads (readAssignment following) value (next :: rest)) ∨
          ∃ next mid later, entries = (key, value) :: later ∧ next.kind = .punct .comma ∧
            Reads (readAssignment following) value (next :: mid) ∧ Reads (readEntries mid) later rest) := by
  obtain ⟨_, h⟩ := h
  rw [readEntries] at h
  split at h
  . next brace hbrace =>
    cases h
    obtain ⟨t, ht, heq⟩ := exists_of_expect hbrace
    exact .inl ⟨rfl, t, heq, ht⟩
  . split at h
    . cases h
    . next key hkey =>
      obtain ⟨word, hword, hts⟩ := exists_of_readKey hkey
      split at h
      . cases h
      . next next hcolon =>
        obtain ⟨colon, hcolon, hbehind⟩ := exists_of_expect hcolon
        rw [hbehind] at hts
        dsimp only at h
        split at h
        . cases h
        . next value hvalue =>
          obtain ⟨value, behind, _⟩ := value
          have hvalue : Reads (readAssignment next.rest) value behind := ⟨_, hvalue⟩
          refine .inr ⟨word, colon, next.rest, key.value, value, hts, hword, hcolon, ?_⟩
          dsimp only at h
          split at h
          . next comma hcomma =>
            obtain ⟨following, hfollowing, heq⟩ := exists_of_expect hcomma
            rw [heq] at hvalue
            obtain ⟨later, hlater, h⟩ := exists_of_bind_eq_ok h
            cases h
            exact .inr ⟨following, comma.rest, later.value, rfl, hfollowing, hvalue, ⟨_, hlater⟩⟩
          . obtain ⟨brace, hbrace, h⟩ := exists_of_bind_eq_ok h
            cases h
            obtain ⟨following, hfollowing, heq⟩ := exists_of_expect hbrace
            rw [heq] at hvalue
            exact .inl ⟨following, rfl, hfollowing, hvalue⟩

end Cases

end Expr
end VisualNovel
