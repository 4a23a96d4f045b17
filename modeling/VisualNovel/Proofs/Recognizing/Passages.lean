import VisualNovel.Proofs.Recognizing.Words

/-!
This module contains how the tokens of a text depend on its parts: a passage of whole tokens is divided alike, whatever
comes behind it, as long as its last token ends there.
-/

namespace VisualNovel

namespace Expr

theorem BreaksOff.refl (rest : List Char) : BreaksOff rest (rest ++ []) :=
  ⟨rest, [], [], (List.append_nil rest).symm, rfl, nofun⟩

/--
The text is divided into tokens of these kinds, and blanks, if it stands before the rest.
-/
inductive Passage : List Char → List TokenKind → List Char → Prop where
  | nil (rest : List Char) : Passage [] [] rest
  | blank {c : Char} (hc : Text.isBlank c) {text : List Char} {kinds : List TokenKind} {rest : List Char}
    (h : Passage text kinds rest) : Passage (c :: text) kinds rest
  | token {word text rest : List Char} {kind : TokenKind} (hword : Lexes word kind (text ++ rest))
    {kinds : List TokenKind} (h : Passage text kinds rest) : Passage (word ++ text) (kind :: kinds) rest

namespace Lexes

variable {word : List Char} {kind : TokenKind} {rest : List Char}

theorem exists_cons (h : Lexes word kind rest) : ∃ c more, word = c :: more ∧ Text.isBlank c = false := by
  obtain ⟨hc, _⟩ := h
  exact ⟨_, _, rfl, hc⟩

theorem unique (h : Lexes word kind rest) {word' : List Char} {kind' : TokenKind} {rest' : List Char}
    (h' : Lexes word' kind' rest') (heq : word ++ rest = word' ++ rest') : word = word' ∧ kind = kind' ∧ rest = rest' := by
  obtain ⟨_, h⟩ := h
  obtain ⟨_, h'⟩ := h'
  rw [List.cons_append, List.cons_append, List.cons.injEq] at heq
  obtain ⟨rfl, heq⟩ := heq
  rw [heq] at h
  obtain ⟨_, h⟩ := h
  obtain ⟨_, h'⟩ := h'
  rw [h] at h'
  cases h'
  exact ⟨congrArg _ (List.append_cancel_right heq), rfl, rfl⟩

/--
No token goes on into breaks at the end of a text, but a closing parenthesis may be one of them.
-/
theorem inside (h : Lexes word kind rest) {text tail behind : List Char} (htail : ∀ c ∈ tail, breaks c)
    (heq : text ++ tail = word ++ behind)
    : (text = [] ∧ word = [')'] ∧ kind = .punct .rightParen) ∨ ∃ a, text = word ++ a ∧ behind = a ++ tail := by
  obtain hkind | hends := h.word.ends
  . obtain rfl : word = [')'] := h.word.punct _ hkind
    cases text with
    | nil => exact .inl ⟨rfl, rfl, hkind⟩
    | cons c text =>
      cases heq
      exact .inr ⟨text, rfl, rfl⟩
  . right
    obtain ⟨a, rfl, rfl⟩ | hinside := List.append_eq_append_iff.1 heq
    . cases hlast : a.getLast? with
      | none =>
        cases List.getLast?_eq_none_iff.1 hlast
        exact ⟨[], by simp, rfl⟩
      | some c =>
        have hbreaks := htail c (List.mem_append_left _ (List.mem_of_getLast? hlast))
        rw [hends c (by simp [List.getLast?_append, hlast])] at hbreaks
        cases hbreaks
    . exact hinside

end Lexes

section Marks

/--
The letter starts a token that is neither a number, a string nor a name.
-/
def isMark (c : Char) : Bool :=
  !(Text.isBlank c || c = '.' || c.isDigit || c = '"' || c = '\'' || isNameStart c)

theorem lexes_mark {c : Char} (hc : isMark c) {p : Punct} {rest : List Char}
    (hpunct : punct? (c :: rest) = some (p, rest)) : Lexes [c] (.punct p) rest := by
  simp only [isMark, Bool.not_eq_true', Bool.or_eq_false_iff, decide_eq_false_iff_not] at hc
  obtain ⟨⟨⟨⟨⟨hblank, hdot⟩, hdigit⟩, hdouble⟩, hsingle⟩, hname⟩ := hc
  refine .intro hblank (readToken_punct ?_ ?_ ?_ hpunct)
  . rw [startsNumber_of_ne hdot, hdigit]
  . simp [hdouble, hsingle]
  . rw [hname]
    nofun

variable (rest : List Char)

theorem lexes_leftParen : Lexes ['('] (.punct .leftParen) rest :=
  lexes_mark (by decide +kernel) rfl

theorem lexes_rightParen : Lexes [')'] (.punct .rightParen) rest :=
  lexes_mark (by decide +kernel) rfl

theorem lexes_leftBrace : Lexes ['\x7b'] (.punct .leftBrace) rest :=
  lexes_mark (by decide +kernel) rfl

theorem lexes_rightBrace : Lexes ['\x7d'] (.punct .rightBrace) rest :=
  lexes_mark (by decide +kernel) rfl

theorem lexes_colon : Lexes [':'] (.punct .colon) rest :=
  lexes_mark (by decide +kernel) rfl

theorem lexes_minus {c : Char} (hc : c ≠ '=') : Lexes ['-'] (.punct .minus) (c :: rest) :=
  lexes_mark (by decide +kernel) (by simp [punct?, Punct.all, Punct.text, stripText?, hc.symm])

theorem lexes_plus {c : Char} (hc : c ≠ '=') : Lexes ['+'] (.punct .plus) (c :: rest) :=
  lexes_mark (by decide +kernel) (by simp [punct?, Punct.all, Punct.text, stripText?, hc.symm])

end Marks

namespace Passage

variable {text others rest other : List Char} {kinds more : List TokenKind}

theorem append (h : Passage text kinds (others ++ rest)) (hothers : Passage others more rest)
    : Passage (text ++ others) (kinds ++ more) rest := by
  generalize hbehind : others ++ rest = behind at h
  induction h with
  | nil => exact hothers
  | blank hc h ih => exact .blank hc (ih hbehind)
  | token hword h ih =>
    subst hbehind
    rw [List.append_assoc]
    rw [← List.append_assoc] at hword
    exact .token hword (ih rfl)

theorem breaksOff (h : Passage text kinds rest) (hother : BreaksOff rest other) : Passage text kinds other := by
  induction h with
  | nil => exact .nil other
  | blank hc h ih => exact .blank hc (ih hother)
  | token hword h ih => exact .token (hword.word.stays _ (hother.append _)) (ih hother)

theorem of_blanks (h : ∀ c ∈ text, Text.isBlank c) (rest : List Char) : Passage text [] rest := by
  induction text with
  | nil => exact .nil rest
  | cons c text ih =>
    rw [List.forall_mem_cons] at h
    exact .blank h.1 (ih h.2)

theorem kinds_of_blanks (h : Passage text kinds rest) (hblanks : ∀ c ∈ text, Text.isBlank c) : kinds = [] := by
  induction h with
  | nil => rfl
  | blank hc h ih => exact ih (List.forall_mem_cons.1 hblanks).2
  | token hword h ih =>
    obtain ⟨c, more, rfl, hc⟩ := hword.exists_cons
    rw [hblanks c (by simp)] at hc
    cases hc

/--
Blanks at the end belong to no token.
-/
theorem before_blanks {blanks : List Char} (h : Passage (text ++ blanks) kinds rest)
    (hblanks : ∀ c ∈ blanks, Text.isBlank c) : Passage text kinds (blanks ++ rest) := by
  generalize hwhole : text ++ blanks = whole at h
  induction h generalizing text with
  | nil =>
    obtain ⟨rfl, rfl⟩ := List.append_eq_nil_iff.1 hwhole
    exact .nil _
  | blank hc h ih =>
    cases text with
    | nil =>
      subst hwhole
      rw [kinds_of_blanks h (List.forall_mem_cons.1 hblanks).2]
      exact .nil _
    | cons c text =>
      cases hwhole
      exact .blank hc (ih rfl)
  | token hword h ih =>
    obtain ⟨rfl, rfl, -⟩ | ⟨a, rfl, rfl⟩ := hword.inside (fun c hc => breaks_of_isBlank (hblanks c hc)) hwhole
    . rw [List.nil_append] at hwhole
      have hparen := hblanks ')' (by simp [hwhole])
      cases hparen
    . rw [List.append_assoc] at hword
      exact .token hword (ih rfl)

theorem of_before_blanks {blanks : List Char} (h : Passage (blanks ++ text) kinds rest)
    (hblanks : ∀ c ∈ blanks, Text.isBlank c) : Passage text kinds rest := by
  induction blanks with
  | nil => exact h
  | cons c blanks ih =>
    rw [List.forall_mem_cons] at hblanks
    generalize hwhole : c :: blanks ++ text = whole at h
    cases h with
    | nil => cases hwhole
    | blank hc h =>
      cases hwhole
      exact ih h hblanks.2
    | token hword h =>
      obtain ⟨d, more, rfl, hd⟩ := hword.exists_cons
      rw [List.cons_append, List.cons_append, List.cons.injEq] at hwhole
      rw [← hwhole.1, hblanks.1] at hd
      cases hd

/--
The blanks around a passage can be left out. What comes behind it then has to start with a break.
-/
theorem trim (h : Passage text kinds rest) (hother : ∀ c ∈ other.head?, breaks c)
    : Passage (Text.trim text) kinds other := by
  obtain ⟨before, behind, heq, hbefore, hbehind⟩ := Text.exists_trim text
  generalize Text.trim text = inner at heq
  subst heq
  exact ((h.of_before_blanks hbefore).before_blanks hbehind).breaksOff ⟨[], _, other, rfl, rfl, hother⟩

theorem concat_rightParen_iff
    : Passage (text ++ [')']) kinds [] ↔ ∃ inner, kinds = inner ++ [.punct .rightParen] ∧ Passage text inner [] := by
  constructor
  . intro h
    generalize hwhole : text ++ [')'] = whole at h
    generalize hrest : ([] : List Char) = rest at h
    induction h generalizing text with
    | nil => simp at hwhole
    | blank hc h ih =>
      cases text with
      | nil =>
        cases hwhole
        cases hc
      | cons c text =>
        cases hwhole
        obtain ⟨inner, rfl, htext⟩ := ih rfl hrest
        exact ⟨inner, rfl, .blank hc htext⟩
    | token hword h ih =>
      subst hrest
      obtain ⟨rfl, rfl, rfl⟩ | ⟨a, rfl, rfl⟩ := hword.inside (by decide) hwhole
      . cases hwhole
        rw [kinds_of_blanks h nofun]
        exact ⟨[], rfl, .nil []⟩
      . obtain ⟨inner, rfl, ha⟩ := ih rfl rfl
        refine ⟨_ :: inner, rfl, .token (hword.word.stays _ ?_) ha⟩
        exact ⟨a, [')'], [], by simp, rfl, nofun⟩
  . rintro ⟨inner, rfl, h⟩
    have hparen : Passage [')'] [.punct .rightParen] [] := .token (lexes_rightParen []) (.nil [])
    have htext : Passage text inner ([')'] ++ []) := h.breaksOff ⟨[], [], [')'], rfl, rfl, by decide⟩
    exact htext.append hparen

/--
A character that is a token by itself is the first one of the tokens.
-/
theorem cons_iff {c : Char} {kind : TokenKind} (hword : ∀ rest, Lexes [c] kind rest)
    : Passage (c :: text) kinds rest ↔ ∃ inner, kinds = kind :: inner ∧ Passage text inner rest := by
  constructor
  . intro h
    generalize hwhole : c :: text = whole at h
    cases h with
    | nil => cases hwhole
    | blank hc h =>
      cases hwhole
      obtain ⟨_, _, heq, hblank⟩ := (hword []).exists_cons
      cases heq
      rw [hc] at hblank
      cases hblank
    | @token word behind rest other hother kinds h =>
      have heq : [c] ++ (text ++ rest) = word ++ (behind ++ rest) := by
        rw [← List.append_assoc, ← List.append_assoc, ← hwhole]
        rfl
      obtain ⟨rfl, rfl, hbehind⟩ := (hword _).unique hother heq
      cases List.append_cancel_right hbehind
      exact ⟨kinds, rfl, h⟩
  . rintro ⟨inner, rfl, h⟩
    exact .token (hword _) h

/--
A punctuator is not among the tokens if its character is not in the text.
-/
theorem punct_not_mem {p : Punct} {c : Char} (hp : c ∈ p.text.toList) (h : Passage text kinds rest) (hc : c ∉ text)
    : .punct p ∉ kinds := by
  induction h with
  | nil => simp
  | blank _ _ ih => exact ih fun hmem => hc (List.mem_cons_of_mem _ hmem)
  | token hword h ih =>
    intro hmem
    obtain rfl | hmem := List.mem_cons.1 hmem
    . have hword := hword.word.punct _ rfl
      exact hc (List.mem_append_left _ (hword ▸ hp))
    . exact ih (fun hmem => hc (List.mem_append_right _ hmem)) hmem

end Passage

/-! ### The tokens of a text -/

section Tokenize

variable {c : Char} {cs word text rest : List Char} {kind : TokenKind} {kinds : List TokenKind}

theorem exists_tokenize_of_blank (hc : Text.isBlank c) (newline : Bool)
    : ∃ after, ∀ cs, tokenize newline (c :: cs) = tokenize after cs := by
  by_cases hline : c = '\n'
  . exact ⟨true, fun cs => by rw [tokenize, if_pos hline]⟩
  . exact ⟨newline, fun cs => by rw [tokenize, if_neg hline, if_pos hc]⟩

theorem tokenize_of_not_blank (hc : Text.isBlank c = false) (newline : Bool) (cs : List Char)
    : tokenize newline (c :: cs)
        =
      match readToken c cs with
      | .error e => .error e
      | .ok t => (tokenize false t.rest).map ({ kind := t.value, newlineBefore := newline } :: ·) := by
  have hline : c ≠ '\n' := by
    rintro rfl
    cases hc
  rw [tokenize, if_neg hline, if_neg (by simp [hc])]
  rfl

theorem Lexes.tokenize (h : Lexes word kind rest) (newline : Bool)
    : Expr.tokenize newline (word ++ rest)
        =
      (Expr.tokenize false rest).map ({ kind, newlineBefore := newline } :: ·) := by
  obtain ⟨hc, _, h⟩ := h
  rw [List.cons_append, tokenize_of_not_blank hc, h]

/--
The tokens of a passage come first, and a line break may have been passed at its end.
-/
theorem Passage.tokenize (h : Passage text kinds rest) (newline : Bool)
    : ∃ after ts, ts.map Token.kind = kinds ∧
        Expr.tokenize newline (text ++ rest) = (Expr.tokenize after rest).map (ts ++ ·) := by
  induction h generalizing newline with
  | nil rest =>
    refine ⟨newline, [], rfl, ?_⟩
    rw [List.nil_append]
    cases Expr.tokenize newline rest <;> rfl
  | blank hc h ih =>
    obtain ⟨between, hbetween⟩ := exists_tokenize_of_blank hc newline
    obtain ⟨after, ts, hts, heq⟩ := ih between
    exact ⟨after, ts, hts, by rw [List.cons_append, hbetween, heq]⟩
  | @token word text rest kind hword kinds h ih =>
    obtain ⟨after, ts, hts, heq⟩ := ih false
    refine ⟨after, { kind, newlineBefore := newline } :: ts, congrArg (kind :: ·) hts, ?_⟩
    rw [List.append_assoc, hword.tokenize, heq]
    cases Expr.tokenize after rest <;> rfl

theorem Passage.exists_tokens (h : Passage text kinds []) (newline : Bool)
    : ∃ ts, ts.map Token.kind = kinds ∧ Expr.tokenize newline text = .ok ts := by
  obtain ⟨after, ts, hts, heq⟩ := h.tokenize newline
  rw [List.append_nil] at heq
  refine ⟨ts, hts, heq.trans ?_⟩
  rw [Expr.tokenize]
  exact congrArg Except.ok (List.append_nil ts)

theorem passage_of_tokenize {newline : Bool} {ts : List Token} (h : tokenize newline cs = .ok ts)
    : Passage cs (ts.map Token.kind) [] := by
  fun_induction tokenize newline cs generalizing ts with
  | case1 =>
    cases h
    exact .nil []
  | case2 newline cs ih => exact .blank (by decide) (ih h)
  | case3 newline c cs hline hc ih => exact .blank hc (ih h)
  | case4 => cases h
  | case5 newline c cs hline hc t ht hlt ih =>
    obtain ⟨others, hothers, h⟩ := exists_of_bind_eq_ok h
    cases h
    obtain ⟨more, heq, hword⟩ := exists_word_of_readToken (Bool.eq_false_iff.2 hc) ht
    have hword : Lexes (c :: more) t.value (t.rest ++ []) := hword.stays _ (.refl _)
    have hpassage := Passage.token hword (ih hothers)
    rwa [List.cons_append, ← heq] at hpassage

end Tokenize

end Expr
end VisualNovel
