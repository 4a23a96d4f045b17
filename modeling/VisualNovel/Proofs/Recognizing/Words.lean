import VisualNovel.Proofs.Recognizing.Quotations

/-!
This module contains what the characters of a token have to do with those behind them: they are the same token in front
of every text that breaks off there.
-/

namespace VisualNovel
namespace Expr

/-! ### Characters that end tokens -/

/--
The codes of the blank characters, and that of a closing parenthesis.
-/
def breakCodes : List Nat := [
  0x9, 0xa, 0xb, 0xc, 0xd, 0x20, 0x29, 0x85, 0xa0, 0x1680, 0x2000, 0x2001, 0x2002, 0x2003, 0x2004, 0x2005, 0x2006, 0x2007,
  0x2008, 0x2009, 0x200a, 0x2028, 0x2029, 0x202f, 0x205f, 0x3000
]

/--
No token goes on with the character, unless it is between quotes.
-/
def breaks (c : Char) : Bool :=
  Text.isBlank c || c == ')'

theorem toNat_mem_breakCodes {c : Char} (h : breaks c) : c.toNat ∈ breakCodes := by
  have hle (a b : Char) : a ≤ b ↔ a.toNat ≤ b.toNat := Iff.rfl
  simp only [breaks, Text.isBlank, Bool.or_eq_true, Bool.and_eq_true, beq_iff_eq, decide_eq_true_eq, ← Char.toNat_inj,
    hle, Char.reduceToNat] at h
  simp only [breakCodes, List.mem_cons, List.not_mem_nil, or_false]
  omega

section Breaks

variable {c : Char}

theorem eq_false_of_breaks (f : Char → Bool) (hf : ∀ n ∈ breakCodes, f (Char.ofNat n) = false) (h : breaks c)
    : f c = false := by
  have hc := hf c.toNat (toNat_mem_breakCodes h)
  rwa [Char.ofNat_toNat] at hc

theorem isNamePart_of_breaks (h : breaks c) : isNamePart c = false :=
  eq_false_of_breaks isNamePart (by decide +kernel) h

/--
The characters of number literals.
-/
def isNumberPart (c : Char) : Bool :=
  c.isDigit || c == '.' || c == '+' || c == '-' || c == 'e' || c == 'E'

theorem isNumberPart_of_breaks (h : breaks c) : isNumberPart c = false :=
  eq_false_of_breaks isNumberPart (by decide +kernel) h

theorem not_mem_tail_of_breaks (p : Punct) (h : breaks c) : c ∉ p.text.toList.tail := by
  have hfalse := eq_false_of_breaks (fun c => p.text.toList.tail.contains c) (by cases p <;> decide +kernel) h
  simpa using hfalse

theorem breaks_of_isBlank (h : Text.isBlank c) : breaks c := by
  rw [breaks, h]
  rfl

theorem not_blank_of_isNumberPart (h : isNumberPart c) : Text.isBlank c = false := by
  rw [Bool.eq_false_iff]
  intro hblank
  rw [isNumberPart_of_breaks (breaks_of_isBlank hblank)] at h
  cases h

theorem isNumberPart_of_isDigit (h : c.isDigit) : isNumberPart c := by
  rw [isNumberPart, h]
  rfl

end Breaks

/--
The other text is a start of the text, and ends there or goes on with a break.
-/
def BreaksOff (rest other : List Char) : Prop :=
  ∃ start behind next, rest = start ++ behind ∧ other = start ++ next ∧ ∀ c ∈ next.head?, breaks c

namespace BreaksOff

variable {rest other : List Char}

theorem head (h : BreaksOff rest other) : ∀ c ∈ other.head?, c ∈ rest.head? ∨ breaks c := by
  obtain ⟨start, behind, next, rfl, rfl, hnext⟩ := h
  intro c hc
  cases start with
  | nil => exact .inr (hnext c hc)
  | cons d start => exact .inl hc

theorem append (text : List Char) (h : BreaksOff rest other) : BreaksOff (text ++ rest) (text ++ other) := by
  obtain ⟨start, behind, next, rfl, rfl, hnext⟩ := h
  exact ⟨text ++ start, behind, next, (List.append_assoc ..).symm, (List.append_assoc ..).symm, hnext⟩

end BreaksOff

/-! ### Words -/

/--
The characters are exactly one token if they stand before the rest.
-/
inductive Lexes : List Char → TokenKind → List Char → Prop where
  | intro {c : Char} {more rest : List Char} {kind : TokenKind} (hc : Text.isBlank c = false)
    (h : ∃ shorter, readToken c (more ++ rest) = .ok { value := kind, rest, shorter }) : Lexes (c :: more) kind rest

/--
The characters of a token determine it and where it ends, together with what is right behind them.
-/
structure Word (word : List Char) (kind : TokenKind) (rest : List Char) : Prop where
  ends : kind = .punct .rightParen ∨ ∀ c ∈ word.getLast?, breaks c = false
  punct : ∀ p, kind = .punct p → word = p.text.toList
  stays : ∀ other, BreaksOff rest other → Lexes word kind other

section Number

theorem scanNumber_append (previous : Char) (seen : Bool) (cs : List Char)
    : (scanNumber previous seen cs).1 ++ (scanNumber previous seen cs).2 = cs := by
  induction cs generalizing previous seen with
  | nil => rfl
  | cons d ds ih =>
    simp only [scanNumber]
    split
    . simp [ih]
    . split
      . simp [ih]
      . rfl

theorem isNumberPart_of_mem_scanNumber (previous : Char) (seen : Bool) (cs : List Char)
    : ∀ c ∈ (scanNumber previous seen cs).1, isNumberPart c := by
  induction cs generalizing previous seen with
  | nil => simp [scanNumber]
  | cons d ds ih =>
    simp only [scanNumber]
    split
    . next h =>
      have hd : isNumberPart d := by
        unfold isNumberPart
        grind
      simpa [hd] using ih d seen
    . split
      . next h =>
        have hd : isNumberPart d := by
          unfold isNumberPart
          grind
        simpa [hd] using ih d true
      . simp

theorem map_cons_eq_iff {d : Char} {ds rest : List Char} {read : List Char × List Char}
    : read.map (d :: ·) id = (d :: ds, rest) ↔ read = (ds, rest) := by
  obtain ⟨literal, behind⟩ := read
  simp

/--
The literal ends at the same place if what is behind it starts alike, or with a break.
-/
theorem scanNumber_of_head {previous : Char} {seen : Bool} {literal rest other : List Char}
    (h : scanNumber previous seen (literal ++ rest) = (literal, rest))
    (hother : ∀ c ∈ other.head?, c ∈ rest.head? ∨ breaks c)
    : scanNumber previous seen (literal ++ other) = (literal, other) := by
  induction literal generalizing previous seen with
  | nil =>
    cases other with
    | nil => rfl
    | cons d ds =>
      obtain hd | hd := hother d rfl
      . obtain ⟨ds', rfl⟩ : ∃ ds', rest = d :: ds' := by
          cases rest <;> cases hd
          exact ⟨_, rfl⟩
        simp only [List.nil_append, scanNumber] at h ⊢
        split at h
        . cases h
        . next hdigit =>
          rw [if_neg hdigit]
          split at h
          . cases h
          . next hexponent => rw [if_neg hexponent]
      . have hpart := isNumberPart_of_breaks hd
        simp only [isNumberPart, Bool.or_eq_false_iff] at hpart
        simp [scanNumber, hpart]
  | cons d ds ih =>
    simp only [List.cons_append, scanNumber] at h ⊢
    split at h
    . next hdigit =>
      rw [if_pos hdigit, ih (map_cons_eq_iff.1 h)]
      rfl
    . next hdigit =>
      rw [if_neg hdigit]
      split at h
      . next hexponent =>
        rw [if_pos hexponent, ih (map_cons_eq_iff.1 h)]
        rfl
      . cases h

theorem startsNumber_of_ne {c : Char} (h : c ≠ '.') (cs : List Char) : startsNumber (c :: cs) = c.isDigit := by
  unfold startsNumber
  split
  . next heq =>
    cases heq
    exact absurd rfl h
  . next heq =>
    cases heq
    rfl
  . next heq => cases heq

theorem startsNumber_point (cs : List Char) : startsNumber ('.' :: cs) = cs.head?.any Char.isDigit := by
  cases cs <;> rfl

theorem isDigit_of_breaks {c : Char} (h : breaks c) : c.isDigit = false := by
  have hpart := isNumberPart_of_breaks h
  simp only [isNumberPart, Bool.or_eq_false_iff] at hpart
  exact hpart.1.1.1.1.1

theorem startsNumber_of_head {c : Char} {more rest other : List Char} (h : startsNumber (c :: (more ++ rest)) = false)
    (hother : ∀ c ∈ other.head?, c ∈ rest.head? ∨ breaks c) : startsNumber (c :: (more ++ other)) = false := by
  by_cases hc : c = '.'
  . subst hc
    rw [startsNumber_point] at h ⊢
    cases more with
    | cons d more => exact h
    | nil =>
      cases other with
      | nil => rfl
      | cons d other =>
        obtain hd | hd := hother d rfl
        . rw [List.nil_append, Option.mem_def.1 hd] at h
          exact h
        . exact isDigit_of_breaks hd
  . rw [startsNumber_of_ne hc] at h ⊢
    exact h

theorem readToken_number {c : Char} {more rest : List Char} (hstart : startsNumber (c :: (more ++ rest)))
    (hscan : scanNumber c false (more ++ rest) = (more, rest)) {x : Binary64} (hx : Binary64.read? (c :: more) = some x)
    : ∃ shorter, readToken c (more ++ rest) = .ok { value := .number x, rest, shorter } := by
  unfold readToken
  rw [if_pos hstart]
  simp only [hscan, hx]
  exact ⟨by simp only [List.length_cons, List.length_append]; omega, trivial⟩

theorem word_number {c : Char} (hc : Text.isBlank c = false) {cs : List Char} (hstart : startsNumber (c :: cs))
    {x : Binary64} (hx : Binary64.read? (c :: (scanNumber c false cs).1) = some x)
    : Word (c :: (scanNumber c false cs).1) (.number x) (scanNumber c false cs).2 := by
  have hscan := scanNumber_append c false cs
  have hparts := isNumberPart_of_mem_scanNumber c false cs
  have hfirst : isNumberPart c := by
    unfold isNumberPart
    by_cases hpoint : c = '.'
    . simp [hpoint]
    . rw [startsNumber_of_ne hpoint] at hstart
      simp [hstart]
  generalize hread : scanNumber c false cs = read at hscan hparts hx ⊢
  obtain ⟨more, rest⟩ := read
  dsimp only at hscan hparts hx ⊢
  subst hscan
  refine ⟨.inr fun d hd => ?_, nofun, fun other hother => .intro hc ?_⟩
  . have hmem := List.mem_of_mem_getLast? hd
    have hd : isNumberPart d := by
      obtain rfl | hmem := List.mem_cons.1 hmem
      . exact hfirst
      . exact hparts d hmem
    cases hbreaks : breaks d with
    | false => rfl
    | true => rw [isNumberPart_of_breaks hbreaks] at hd; cases hd
  . refine readToken_number ?_ (scanNumber_of_head hread hother.head) hx
    by_cases hpoint : c = '.'
    . subst hpoint
      rw [startsNumber_point] at hstart ⊢
      cases more with
      | cons d more => exact hstart
      | nil =>
        cases rest with
        | nil => cases hstart
        | cons d rest =>
          have hdigit : d.isDigit := hstart
          simp only [List.nil_append, scanNumber, hdigit, Bool.true_or, if_true] at hread
          cases hread
    . rw [startsNumber_of_ne hpoint] at hstart ⊢
      exact hstart

end Number

section Quoted

variable {quote : Char} {cs text rest : List Char}

theorem readToken_quote (hquote : quote = '"' ∨ quote = '\'')
    : readToken quote cs
        =
      do
        let t ← readString quote cs
        return (t.map fun s => .string (String.ofList s)).behind := by
  unfold readToken
  obtain rfl | rfl := hquote
  . rw [startsNumber_of_ne (by decide), if_neg (by decide), if_pos (by decide)]
  . rw [startsNumber_of_ne (by decide), if_neg (by decide), if_pos (by decide)]

theorem readToken_string (hquote : quote = '"' ∨ quote = '\'') (h : ReadsString quote cs text rest)
    : ∃ shorter, readToken quote cs = .ok { value := .string (String.ofList text), rest, shorter } := by
  obtain ⟨_, h⟩ := h
  rw [readToken_quote hquote, h]
  exact ⟨_, rfl⟩

theorem not_blank_of_quote (hquote : quote = '"' ∨ quote = '\'') : Text.isBlank quote = false := by
  obtain rfl | rfl := hquote <;> decide

theorem lexes_string {body : List Char} (hquote : quote = '"' ∨ quote = '\'')
    (h : Unescapes IsSignedCode quote body text) (rest : List Char)
    : Lexes (quote :: (body ++ [quote])) (.string (String.ofList text)) rest := by
  refine .intro (not_blank_of_quote hquote) (readToken_string hquote ?_)
  rw [List.append_assoc]
  exact h.readsString hquote rest

theorem word_string (hquote : quote = '"' ∨ quote = '\'') {t : Taken cs (List Char)} (h : readString quote cs = .ok t)
    : ∃ more, cs = more ++ t.rest ∧ Word (quote :: more) (.string (String.ofList t.value)) t.rest := by
  obtain ⟨body, hbody, hunescapes⟩ := exists_of_readString h
  refine ⟨body ++ [quote], by simpa using hbody, .inr ?_, nofun, fun other _ => lexes_string hquote hunescapes other⟩
  intro c hc
  rw [← List.cons_append, List.getLast?_concat] at hc
  cases hc
  obtain rfl | rfl := hquote <;> decide

end Quoted

section Name

theorem readToken_name {c : Char} {more rest : List Char} (hstart : startsNumber (c :: (more ++ rest)) = false)
    (hquote : ¬(c = '"' || c = '\'')) (hname : isNameStart c) (hmore : ∀ d ∈ more, isNamePart d)
    (hrest : ∀ d ∈ rest.head?, isNamePart d = false)
    : ∃ shorter, readToken c (more ++ rest) = .ok { value := .name (String.ofList (c :: more)), rest, shorter } := by
  unfold readToken
  rw [if_neg (by simp [hstart]), if_neg hquote, if_pos hname]
  simp only [Taken.span, Taken.map, Text.takeWhile_append_of_head hmore hrest, Text.dropWhile_append_of_head hmore hrest]
  exact ⟨by simp only [List.length_cons, List.length_append]; omega, trivial⟩

theorem word_name {c : Char} (hc : Text.isBlank c = false) {cs : List Char} (hstart : startsNumber (c :: cs) = false)
    (hquote : ¬(c = '"' || c = '\'')) (hname : isNameStart c)
    : Word (c :: cs.takeWhile isNamePart) (.name (String.ofList (c :: cs.takeWhile isNamePart)))
        (cs.dropWhile isNamePart) := by
  have hpart : isNamePart c := by
    unfold isNameStart at hname
    unfold isNamePart Text.isAlphanumeric
    grind
  have hparts : ∀ d ∈ cs.takeWhile isNamePart, isNamePart d := List.all_eq_true.1 List.all_takeWhile
  refine ⟨.inr fun d hd => ?_, nofun, fun other hother => .intro hc (readToken_name ?_ hquote hname hparts ?_)⟩
  . have hd : isNamePart d := by
      obtain rfl | hmem := List.mem_cons.1 (List.mem_of_mem_getLast? hd)
      . exact hpart
      . exact hparts d hmem
    cases hbreaks : breaks d with
    | false => rfl
    | true => rw [isNamePart_of_breaks hbreaks] at hd; cases hd
  . apply startsNumber_of_head _ hother.head
    rwa [List.takeWhile_append_dropWhile]
  . intro d hd
    obtain hd | hd := hother.head d hd
    . have hhead := List.head?_dropWhile_not isNamePart cs
      rw [Option.mem_def.1 hd] at hhead
      simpa using hhead
    . exact isNamePart_of_breaks hd

end Name

section Punct

theorem stripText?_eq_some_iff {word cs rest : List Char} : stripText? word cs = some rest ↔ cs = word ++ rest := by
  induction word generalizing cs with
  | nil => simp [stripText?]
  | cons c word ih =>
    cases cs with
    | nil => simp [stripText?]
    | cons d cs =>
      simp only [stripText?, List.cons_append, List.cons.injEq]
      split
      . next heq => simp [heq, ih]
      . next hne => simpa using fun heq => absurd heq.symm hne

variable {p : Punct} {rest other : List Char}

/--
No longer punctuator starts here if the text breaks off behind this one.
-/
theorem punct?_of_breaksOff (h : punct? (p.text.toList ++ rest) = some (p, rest)) (hother : BreaksOff rest other)
    : punct? (p.text.toList ++ other) = some (p, other) := by
  obtain ⟨start, behind, next, rfl, rfl, hnext⟩ := hother
  obtain ⟨earlier, q, later, hall, hq, hearlier⟩ := List.findSome?_eq_some_iff.1 h
  obtain ⟨_, _, hq⟩ := Option.map_eq_some_iff.1 hq
  cases hq
  refine List.findSome?_eq_some_iff.2 ⟨earlier, p, later, hall, ?_, fun longer hlonger => ?_⟩
  . rw [stripText?_eq_some_iff.2 rfl]
    rfl
  . have hnone := hearlier longer hlonger
    rw [Option.map_eq_none_iff] at hnone ⊢
    cases hstrip : stripText? longer.text.toList (p.text.toList ++ (start ++ next)) with
    | none => rfl
    | some r =>
      have heq := stripText?_eq_some_iff.1 hstrip
      rw [← List.append_assoc, List.append_eq_append_iff] at heq
      have hcontra {a : List Char} (ha : p.text.toList ++ start = longer.text.toList ++ a) : False := by
        have hstrip : stripText? longer.text.toList (p.text.toList ++ (start ++ behind)) = some (a ++ behind) := by
          rw [stripText?_eq_some_iff, ← List.append_assoc, ha, List.append_assoc]
        rw [hstrip] at hnone
        cases hnone
      obtain ⟨a, ha, hr⟩ | ⟨a, ha, hr⟩ := heq
      . cases a with
        | nil => exact (hcontra (a := []) (by simpa using ha.symm)).elim
        | cons d a =>
          have hd : d ∈ longer.text.toList.tail := by
            obtain ⟨c, word, hword⟩ : ∃ c word, p.text.toList = c :: word := by
              cases p <;> exact ⟨_, _, rfl⟩
            rw [ha, hword]
            simp
          exact absurd hd (not_mem_tail_of_breaks longer (hnext d (by simp [hr])))
      . exact (hcontra ha).elim

theorem ends_text (p : Punct) : p = .rightParen ∨ ∀ c ∈ p.text.toList.getLast?, breaks c = false := by
  cases p <;> first | exact .inl rfl | exact .inr (by decide)

theorem readToken_punct {c : Char} {more : List Char} (hstart : startsNumber (c :: (more ++ rest)) = false)
    (hquote : ¬(c = '"' || c = '\'')) (hname : ¬isNameStart c) (hpunct : punct? (c :: (more ++ rest)) = some (p, rest))
    : ∃ shorter, readToken c (more ++ rest) = .ok { value := .punct p, rest, shorter } := by
  have hlength : rest.length < (c :: (more ++ rest)).length := by
    simp only [List.length_cons, List.length_append]
    omega
  unfold readToken
  rw [if_neg (by simp [hstart]), if_neg hquote, if_neg hname]
  simp only [hpunct, hlength, dif_pos]
  exact ⟨trivial, trivial⟩

theorem word_punct {c : Char} (hc : Text.isBlank c = false) {cs : List Char} (hstart : startsNumber (c :: cs) = false)
    (hquote : ¬(c = '"' || c = '\'')) (hname : ¬isNameStart c) (hpunct : punct? (c :: cs) = some (p, rest))
    : ∃ more, cs = more ++ rest ∧ Word (c :: more) (.punct p) rest := by
  obtain ⟨q, hq, hfound⟩ := List.exists_of_findSome?_eq_some hpunct
  obtain ⟨_, hstrip, heq⟩ := Option.map_eq_some_iff.1 hfound
  cases heq
  have hword := stripText?_eq_some_iff.1 hstrip
  cases hp : p.text.toList with
  | nil => cases p <;> cases hp
  | cons d more =>
    rw [hp, List.cons_append, List.cons.injEq] at hword
    obtain ⟨rfl, rfl⟩ := hword
    rw [← List.cons_append, ← hp] at hpunct
    refine ⟨more, rfl, ?_, ?_, fun other hother => .intro hc ?_⟩
    . obtain rfl | hends := ends_text p
      . exact .inl rfl
      . exact .inr (hp ▸ hends)
    . rintro _ ⟨⟩
      exact hp.symm
    . have hother' := punct?_of_breaksOff hpunct hother
      rw [hp, List.cons_append] at hother'
      exact readToken_punct (startsNumber_of_head hstart hother.head) hquote hname hother'

end Punct

theorem exists_word_of_readToken {c : Char} (hc : Text.isBlank c = false) {cs : List Char} {t : Taken (c :: cs) TokenKind}
    (h : readToken c cs = .ok t) : ∃ more, cs = more ++ t.rest ∧ Word (c :: more) t.value t.rest := by
  unfold readToken at h
  split at h
  . next hstart =>
    dsimp only at h
    split at h
    . cases h
    . next x hx =>
      cases h
      exact ⟨_, (scanNumber_append c false cs).symm, word_number hc hstart hx⟩
  . next hstart =>
    rw [Bool.not_eq_true] at hstart
    split at h
    . next hquote =>
      obtain ⟨u, hu, h⟩ := exists_of_bind_eq_ok h
      cases h
      exact word_string (by simpa using hquote) hu
    . next hquote =>
      split at h
      . next hname =>
        cases h
        exact ⟨_, List.takeWhile_append_dropWhile.symm, word_name hc hstart hquote hname⟩
      . next hname =>
        split at h
        . next p rest hpunct =>
          split at h
          . cases h
            exact word_punct hc hstart hquote hname hpunct
          . cases h
        . cases h

/--
A token is what its characters are, wherever they stand in front of a rest that breaks off.
-/
theorem Lexes.word {word : List Char} {kind : TokenKind} {rest : List Char} (h : Lexes word kind rest)
    : Word word kind rest := by
  obtain ⟨hc, _, h⟩ := h
  obtain ⟨more, heq, hword⟩ := exists_word_of_readToken hc h
  cases List.append_cancel_right heq
  exact hword

end Expr
end VisualNovel
