import Mathlib.Data.List.Forall2
import Mathlib.Data.Nat.Digits.Defs
import VisualNovel.Proofs.Recognizing.Blanks
import VisualNovel.Proofs.Recognizing.Readings

/-!
This module contains the escape language of string literals. The rest of a literal is read as a string exactly if it is
in this language up to the first quote that no backslash escapes. Codes of four hexadecimal digits are in it, and those
of a plus sign and three digits.
-/

namespace VisualNovel
namespace Expr

/-! ### Codes -/

/--
The value of a hexadecimal digit is its place among the sixteen of either case.
-/
def IsHexDigit (d : Char) (value : Nat) : Prop :=
  "0123456789abcdef".toList[value]? = some d ∨ "0123456789ABCDEF".toList[value]? = some d

instance (d : Char) (value : Nat) : Decidable (IsHexDigit d value) :=
  inferInstanceAs (Decidable (_ ∨ _))

/--
The number is written in hexadecimal digits, the highest one first.
-/
def IsHexNumeral (digits : List Char) (n : Nat) : Prop :=
  digits ≠ [] ∧ ∃ values, List.Forall₂ IsHexDigit digits values ∧ Nat.ofDigits 16 values.reverse = n

theorem toNat_lt_of_hexDigit? {d : Char} {value : Nat} (h : hexDigit? d = some value) : d.toNat < 103 := by
  have hle (a b : Char) : a ≤ b ↔ a.toNat ≤ b.toNat := Iff.rfl
  unfold hexDigit? at h
  split at h
  . next hdigit =>
    have hnine : d ≤ '9' := of_decide_eq_true (Bool.and_eq_true_iff.1 hdigit).2
    exact Nat.lt_of_le_of_lt ((hle _ _).1 hnine) (by decide)
  . split at h
    . next hlower =>
      have hf : d ≤ 'f' := of_decide_eq_true (Bool.and_eq_true_iff.1 hlower).2
      exact Nat.lt_succ_of_le ((hle _ _).1 hf)
    . split at h
      . next hupper =>
        have hf : d ≤ 'F' := of_decide_eq_true (Bool.and_eq_true_iff.1 hupper).2
        exact Nat.lt_of_le_of_lt ((hle _ _).1 hf) (by decide)
      . cases h

theorem hexDigit?_eq_some_iff {d : Char} {value : Nat} : hexDigit? d = some value ↔ IsHexDigit d value := by
  constructor
  . intro h
    have hall : ∀ n < 103, ∀ value ∈ hexDigit? (Char.ofNat n), IsHexDigit (Char.ofNat n) value := by decide +kernel
    have hd := hall d.toNat (toNat_lt_of_hexDigit? h)
    rw [Char.ofNat_toNat] at hd
    exact hd value h
  . have hlower : ∀ n < 16, ∀ d ∈ "0123456789abcdef".toList[n]?, hexDigit? d = some n := by decide +kernel
    have hupper : ∀ n < 16, ∀ d ∈ "0123456789ABCDEF".toList[n]?, hexDigit? d = some n := by decide +kernel
    rintro (h | h)
    . exact hlower value (List.getElem?_eq_some_iff.1 h).1 d h
    . exact hupper value (List.getElem?_eq_some_iff.1 h).1 d h

theorem foldl_eq_ofDigits (values : List Nat)
    : values.foldl (fun n value => n * 16 + value) 0 = Nat.ofDigits 16 values.reverse := by
  have hstep (n value : Nat) : n * 16 + value = value + 16 * n := by omega
  rw [Nat.ofDigits_eq_foldr, List.foldr_reverse]
  exact congrArg (List.foldl · 0 values) (funext₂ hstep)

theorem foldlM_hexDigit?_eq_some_iff {digits : List Char} {start n : Nat}
    : digits.foldlM (fun n d => (hexDigit? d).map (n * 16 + ·)) start = some n
        ↔
      ∃ values, List.Forall₂ IsHexDigit digits values ∧ values.foldl (fun n value => n * 16 + value) start = n := by
  induction digits generalizing start with
  | nil => simp
  | cons d digits ih =>
    rw [List.foldlM_cons, Option.bind_eq_bind, Option.bind_eq_some_iff]
    constructor
    . rintro ⟨_, hd, hdigits⟩
      obtain ⟨value, hvalue, rfl⟩ := Option.map_eq_some_iff.1 hd
      obtain ⟨values, hvalues, hn⟩ := ih.1 hdigits
      exact ⟨value :: values, .cons (hexDigit?_eq_some_iff.1 hvalue) hvalues, hn⟩
    . rintro ⟨_, hdigits, hn⟩
      obtain ⟨value, values, hvalue, hvalues, rfl⟩ := List.forall₂_cons_left_iff.1 hdigits
      exact ⟨_, Option.map_eq_some_iff.2 ⟨value, hexDigit?_eq_some_iff.2 hvalue, rfl⟩, ih.2 ⟨values, hvalues, hn⟩⟩

theorem foldlM_eq_some_iff_isHexNumeral {digits : List Char} {n : Nat}
    : (if digits.isEmpty then none else digits.foldlM (fun n d => (hexDigit? d).map (n * 16 + ·)) 0) = some n
        ↔
      IsHexNumeral digits n := by
  cases digits with
  | nil => simp [IsHexNumeral]
  | cons d digits =>
    rw [List.isEmpty_cons, if_neg nofun, foldlM_hexDigit?_eq_some_iff]
    simp [IsHexNumeral, foldl_eq_ofDigits]

/--
The code is the code point of the character in hexadecimal digits, perhaps with a plus sign.
-/
def NamesChar (code : List Char) (c : Char) : Prop :=
  IsHexNumeral code c.toNat ∨ ∃ digits, code = '+' :: digits ∧ IsHexNumeral digits c.toNat

theorem not_isHexNumeral_plus (digits : List Char) (n : Nat) : ¬IsHexNumeral ('+' :: digits) n := by
  rintro ⟨-, values, hvalues, -⟩
  obtain ⟨value, _, hvalue, -, -⟩ := List.forall₂_cons_left_iff.1 hvalues
  have hnone : hexDigit? '+' = none := by decide
  rw [← hexDigit?_eq_some_iff, hnone] at hvalue
  cases hvalue

theorem readHex?_eq_some_iff {code : List Char} {n : Nat}
    : readHex? code = some n ↔ IsHexNumeral code n ∨ ∃ digits, code = '+' :: digits ∧ IsHexNumeral digits n := by
  unfold readHex?
  dsimp only
  rw [foldlM_eq_some_iff_isHexNumeral]
  split
  . next digits => simp [not_isHexNumeral_plus]
  . next hplus => exact (or_iff_left fun ⟨digits, heq, _⟩ => hplus digits heq).symm

theorem readCode?_eq_some_iff {code : List Char} {c : Char} : readCode? code = some c ↔ NamesChar code c := by
  rw [readCode?, Option.bind_eq_some_iff, NamesChar, ← readHex?_eq_some_iff]
  constructor
  . rintro ⟨n, hn, hc⟩
    by_cases hvalid : n.isValidChar
    . rw [dif_pos hvalid] at hc
      cases hc
      exact hn
    . rw [dif_neg hvalid] at hc
      cases hc
  . intro hn
    exact ⟨c.toNat, hn, dif_pos c.valid⟩

/--
Codes are written with these characters.
-/
def isCodePart (c : Char) : Bool :=
  (hexDigit? c).isSome || c == '+'

theorem IsHexNumeral.parts {digits : List Char} {n : Nat} (h : IsHexNumeral digits n) : ∀ d ∈ digits, isCodePart d := by
  obtain ⟨-, values, hvalues, -⟩ := h
  induction hvalues with
  | nil => nofun
  | cons hd _ ih =>
    rw [List.forall_mem_cons]
    exact ⟨by rw [isCodePart, hexDigit?_eq_some_iff.2 hd]; rfl, ih⟩

theorem NamesChar.parts {code : List Char} {c : Char} (h : NamesChar code c) : ∀ d ∈ code, isCodePart d := by
  obtain h | ⟨digits, rfl, h⟩ := h
  . exact h.parts
  . exact List.forall_mem_cons.2 ⟨by decide, h.parts⟩

/-! ### The escape language -/

/--
Four hexadecimal digits.
-/
def IsCode (code : List Char) (c : Char) : Prop :=
  code.length = 4 ∧ IsHexNumeral code c.toNat

/--
Four characters, and the first of them may be a plus sign.
-/
def IsSignedCode (code : List Char) (c : Char) : Prop :=
  code.length = 4 ∧ NamesChar code c

/--
What a literal has for one character of its text, if these are its codes.
-/
inductive Denotes (codes : List Char → Char → Prop) (quote : Char) : List Char → Char → Prop where
  | plain {c : Char} (hquote : c ≠ quote) (hslash : c ≠ '\\') : Denotes codes quote [c] c
  | newline : Denotes codes quote ['\\', 'n'] '\n'
  | tab : Denotes codes quote ['\\', 't'] '\t'
  | carriageReturn : Denotes codes quote ['\\', 'r'] '\r'
  | null : Denotes codes quote ['\\', '0'] '\x00'
  | code {code : List Char} {c : Char} (h : codes code c) : Denotes codes quote ('\\' :: 'u' :: code) c
  | itself {c : Char} (h : c ∉ ['n', 't', 'r', '0', 'u']) : Denotes codes quote ['\\', c] c

/--
The body of a literal, which has no quote but in an escape, and its text.
-/
inductive Unescapes (codes : List Char → Char → Prop) (quote : Char) : List Char → List Char → Prop where
  | nil : Unescapes codes quote [] []
  | cons {written body text : List Char} {c : Char} (h : Denotes codes quote written c)
    (hbody : Unescapes codes quote body text) : Unescapes codes quote (written ++ body) (c :: text)

/--
Where a literal leaves the language: the text ends, perhaps inside of an escape, or a code names no character.
-/
inductive Stuck : List Char → Fault → Prop where
  | ends : Stuck [] .unterminatedString
  | slash : Stuck ['\\'] .unterminatedString
  | short {code : List Char} {c : Char} (hlength : code.length < 4) (h : NamesChar code c)
    : Stuck ('\\' :: 'u' :: code) .unterminatedString
  | code {cs : List Char} (h : ∀ c, ¬NamesChar (cs.take 4) c)
    : Stuck ('\\' :: 'u' :: cs) (.badSyntax (.badEscape (String.ofList (cs.take 4))))

/--
The text up to the first quote that no backslash escapes, and the text behind this quote.
-/
def splitAtQuote? (quote : Char) : List Char → Option (List Char × List Char)
  | '\\' :: e :: cs => (splitAtQuote? quote cs).map (Prod.map (['\\', e] ++ ·) id)
  | c :: cs => if c = quote then some ([], cs) else (splitAtQuote? quote cs).map (Prod.map ([c] ++ ·) id)
  | [] => none

/--
Does an escape have a code with a plus sign?
-/
def hasSignedCode : List Char → Bool
  | '\\' :: e :: cs => (e == 'u' && cs.head? == some '+') || hasSignedCode cs
  | _ :: cs => hasSignedCode cs
  | [] => false

section Denotes

variable {codes : List Char → Char → Prop} {quote c : Char} {written body text rest : List Char}

theorem denotes_unescape {e : Char} (he : e ≠ 'u') : Denotes codes quote ['\\', e] (unescape e) := by
  unfold unescape
  split
  . next h => exact h ▸ .newline
  split
  . next h => exact h ▸ .tab
  split
  . next h => exact h ▸ .carriageReturn
  split
  . next h => exact h ▸ .null
  . exact .itself (by simp [*])

/--
Only codes distinguish two of these languages.
-/
theorem Denotes.recode {others : List Char → Char → Prop} (h : Denotes codes quote written c)
    (hcodes : ∀ code, written = '\\' :: 'u' :: code → codes code c → others code c)
    : Denotes others quote written c := by
  cases h with
  | plain hquote hslash => exact .plain hquote hslash
  | newline => exact .newline
  | tab => exact .tab
  | carriageReturn => exact .carriageReturn
  | null => exact .null
  | code h => exact .code (hcodes _ rfl h)
  | itself h => exact .itself h

theorem Denotes.signed (h : Denotes IsCode quote written c) : Denotes IsSignedCode quote written c :=
  h.recode fun _ _ hcode => ⟨hcode.1, .inl hcode.2⟩

/-! ### Codes with a sign -/

theorem hasSignedCode_cons (hc : c ≠ '\\') (body : List Char) : hasSignedCode (c :: body) = hasSignedCode body := by
  rw [hasSignedCode]
  exact fun _ _ h _ => hc h

theorem hasSignedCode_append {code : List Char} (hcode : ∀ d ∈ code, isCodePart d) (body : List Char)
    : hasSignedCode (code ++ body) = hasSignedCode body := by
  induction code with
  | nil => rfl
  | cons d code ih =>
    rw [List.forall_mem_cons] at hcode
    rw [List.cons_append, hasSignedCode_cons (Text.ne_of_holds hcode.1 (by decide)), ih hcode.2]

theorem hasSignedCode_escape {e : Char} (he : e ≠ 'u') (body : List Char)
    : hasSignedCode ('\\' :: e :: body) = hasSignedCode body := by
  simp [hasSignedCode, he]

theorem IsHexNumeral.head_ne_plus {digits : List Char} {n : Nat} (h : IsHexNumeral digits n) (body : List Char)
    : (digits ++ body).head? ≠ some '+' := by
  cases digits with
  | nil => exact absurd rfl h.1
  | cons d digits =>
    rintro ⟨⟩
    exact not_isHexNumeral_plus digits n h

theorem Denotes.hasSignedCode_append (h : Denotes IsCode quote written c) (body : List Char)
    : hasSignedCode (written ++ body) = hasSignedCode body := by
  cases h with
  | plain _ hslash => exact hasSignedCode_cons hslash body
  | newline | tab | carriageReturn | null => exact hasSignedCode_escape (by decide) body
  | code h =>
    have hplus := beq_eq_false_iff_ne.2 (h.2.head_ne_plus body)
    rw [List.cons_append, List.cons_append, hasSignedCode, hplus, Bool.and_false, Bool.false_or,
      Expr.hasSignedCode_append h.2.parts]
  | itself h => exact hasSignedCode_escape (by grind) body

theorem Denotes.unsigned (h : Denotes IsSignedCode quote written c) (hsign : hasSignedCode (written ++ body) = false)
    : Denotes IsCode quote written c := by
  refine h.recode ?_
  rintro _ rfl ⟨hlength, hdigits | ⟨digits, rfl, -⟩⟩
  . exact ⟨hlength, hdigits⟩
  . cases hsign

/--
A body with a code that is no four digits has one with a sign.
-/
theorem unescapes_isCode_iff
    : Unescapes IsCode quote body text ↔ Unescapes IsSignedCode quote body text ∧ hasSignedCode body = false := by
  constructor
  . intro h
    induction h with
    | nil => exact ⟨.nil, rfl⟩
    | cons h _ ih => exact ⟨.cons h.signed ih.1, (h.hasSignedCode_append _).trans ih.2⟩
  . rintro ⟨h, hsign⟩
    induction h with
    | nil => exact .nil
    | cons h _ ih =>
      have hunsigned := h.unsigned hsign
      exact .cons hunsigned (ih ((hunsigned.hasSignedCode_append _).symm.trans hsign))

/-! ### The closing quote -/

theorem splitAtQuote?_quote (hquote : quote ≠ '\\') (rest : List Char)
    : splitAtQuote? quote (quote :: rest) = some ([], rest) := by
  rw [splitAtQuote?, if_pos rfl]
  exact fun _ _ h _ => hquote h

theorem splitAtQuote?_cons (hquote : c ≠ quote) (hslash : c ≠ '\\') (cs : List Char)
    : splitAtQuote? quote (c :: cs) = (splitAtQuote? quote cs).map (Prod.map ([c] ++ ·) id) := by
  rw [splitAtQuote?, if_neg hquote]
  exact fun _ _ h _ => hslash h

theorem map_append_append (parts : Option (List Char × List Char)) (first second : List Char)
    : (parts.map (Prod.map (second ++ ·) id)).map (Prod.map (first ++ ·) id)
        =
      parts.map (Prod.map (first ++ second ++ ·) id) := by
  obtain _ | ⟨_, _⟩ := parts <;> simp

theorem eq_of_splitAtQuote? {cs : List Char} (h : splitAtQuote? quote cs = some (body, rest))
    : cs = body ++ quote :: rest := by
  fun_induction splitAtQuote? quote cs generalizing body with
  | case1 e cs ih =>
    obtain ⟨⟨_, _⟩, hsplit, heq⟩ := Option.map_eq_some_iff.1 h
    cases heq
    exact congrArg (['\\', e] ++ ·) (ih hsplit)
  | case2 =>
    cases h
    rfl
  | case3 c cs _ _ ih =>
    obtain ⟨⟨_, _⟩, hsplit, heq⟩ := Option.map_eq_some_iff.1 h
    cases heq
    exact congrArg (c :: ·) (ih hsplit)
  | case4 => cases h

theorem splitAtQuote?_append {code : List Char} (hcode : ∀ d ∈ code, isCodePart d) (hquote : isCodePart quote = false)
    (cs : List Char) : splitAtQuote? quote (code ++ cs) = (splitAtQuote? quote cs).map (Prod.map (code ++ ·) id) := by
  induction code with
  | nil =>
    rw [List.nil_append]
    cases splitAtQuote? quote cs <;> rfl
  | cons d code ih =>
    rw [List.forall_mem_cons] at hcode
    have hd := splitAtQuote?_cons (Text.ne_of_holds hcode.1 hquote) (Text.ne_of_holds hcode.1 (by decide)) (code ++ cs)
    rw [List.cons_append, hd, ih hcode.2, map_append_append]
    rfl

theorem Denotes.splitAtQuote?_append (h : Denotes IsSignedCode quote written c) (hquote : isCodePart quote = false)
    (cs : List Char)
    : splitAtQuote? quote (written ++ cs) = (splitAtQuote? quote cs).map (Prod.map (written ++ ·) id) := by
  cases h with
  | plain hquote hslash => exact splitAtQuote?_cons hquote hslash cs
  | code h =>
    rw [List.cons_append, List.cons_append, splitAtQuote?, Expr.splitAtQuote?_append h.2.parts hquote, map_append_append]
    rfl
  | _ => rfl

/--
The body of a literal goes up to the first quote that is not escaped.
-/
theorem Unescapes.splitAtQuote?_eq (h : Unescapes IsSignedCode quote body text) (hquote : quote = '"' ∨ quote = '\'')
    (rest : List Char) : splitAtQuote? quote (body ++ quote :: rest) = some (body, rest) := by
  have hcode : isCodePart quote = false ∧ quote ≠ '\\' := by
    obtain rfl | rfl := hquote <;> decide
  induction h with
  | nil => exact splitAtQuote?_quote hcode.2 rest
  | cons h _ ih =>
    rw [List.append_assoc, h.splitAtQuote?_append hcode.1, ih]
    rfl

end Denotes

/-! ### Reading a literal -/

section Quoted

/--
The rest of a string literal is read as this text, up to behind its closing quote.
-/
def ReadsString (quote : Char) (cs text rest : List Char) : Prop :=
  ∃ shorter, readString quote cs = .ok { value := text, rest, shorter }

variable {quote : Char} {cs text rest : List Char}

theorem readsString_quote (quote : Char) (rest : List Char) : ReadsString quote (quote :: rest) [] rest := by
  rw [ReadsString, readString.eq_def]
  dsimp only
  rw [if_pos rfl]
  exact ⟨_, rfl⟩

theorem readsString_char {c : Char} (hquote : c ≠ quote) (hslash : c ≠ '\\') (h : ReadsString quote cs text rest)
    : ReadsString quote (c :: cs) (c :: text) rest := by
  obtain ⟨_, h⟩ := h
  rw [ReadsString, readString.eq_def]
  dsimp only
  rw [if_neg hquote, if_neg hslash, h]
  exact ⟨_, rfl⟩

theorem readsString_escape {e : Char} (hquote : '\\' ≠ quote) (he : e ≠ 'u') (h : ReadsString quote cs text rest)
    : ReadsString quote ('\\' :: e :: cs) (unescape e :: text) rest := by
  obtain ⟨_, h⟩ := h
  rw [ReadsString, readString.eq_4 quote '\\' e cs he, if_neg hquote, if_pos rfl, h]
  exact ⟨_, rfl⟩

theorem readsString_code {code : List Char} (hquote : '\\' ≠ quote) (hlength : code.length = 4) {c : Char}
    (hcode : readCode? code = some c) (h : ReadsString quote cs text rest)
    : ReadsString quote ('\\' :: 'u' :: (code ++ cs)) (c :: text) rest := by
  have hdrop : (code ++ cs).drop 4 = cs := List.drop_left' hlength
  rw [← hdrop] at h
  obtain ⟨_, h⟩ := h
  rw [ReadsString, readString.eq_3, if_neg hquote, if_pos rfl]
  dsimp only
  rw [List.take_left' hlength, hcode]
  dsimp only
  rw [h]
  exact ⟨_, rfl⟩

theorem Denotes.readsString {written : List Char} {c : Char} (hc : Denotes IsSignedCode quote written c)
    (hquote : '\\' ≠ quote) (h : ReadsString quote cs text rest)
    : ReadsString quote (written ++ cs) (c :: text) rest := by
  cases hc with
  | plain hquote hslash => exact readsString_char hquote hslash h
  | newline | tab | carriageReturn | null => exact readsString_escape hquote (by decide) h
  | code hcode => exact readsString_code hquote hcode.1 (readCode?_eq_some_iff.2 hcode.2) h
  | itself hc =>
    have hescape := readsString_escape hquote (e := c) (by grind) h
    have hunescape : unescape c = c := by
      unfold unescape
      grind
    rwa [hunescape] at hescape

theorem Unescapes.readsString {body : List Char} (h : Unescapes IsSignedCode quote body text)
    (hquote : quote = '"' ∨ quote = '\'') (rest : List Char) : ReadsString quote (body ++ quote :: rest) text rest := by
  have hslash : '\\' ≠ quote := by
    obtain rfl | rfl := hquote <;> decide
  induction h with
  | nil => exact readsString_quote quote rest
  | cons h _ ih =>
    rw [List.append_assoc]
    exact h.readsString hslash ih

/--
What is read as a string is in the escape language.
-/
theorem exists_of_readString {t : Taken cs (List Char)} (h : readString quote cs = .ok t)
    : ∃ body, cs = body ++ quote :: t.rest ∧ Unescapes IsSignedCode quote body t.value := by
  fun_induction readString quote cs with
  | case1 | case3 | case4 => cases h
  | case2 rest =>
    cases h
    exact ⟨[], rfl, .nil⟩
  | case5 rest code c hcode hquote =>
    next ih =>
    obtain ⟨u, hu, h⟩ := exists_of_bind_eq_ok h
    cases h
    obtain ⟨body, hbody, hunescapes⟩ := ih hu
    have hlength : code.length = 4 := by
      have hdrop := congrArg List.length hbody
      simp only [List.length_drop, List.length_append, List.length_cons] at hdrop
      simp only [code, List.length_take]
      omega
    have hrest : rest = code ++ (body ++ quote :: u.rest) := hbody ▸ (List.take_append_drop 4 rest).symm
    refine ⟨'\\' :: 'u' :: code ++ body, ?_, .cons (.code ⟨hlength, readCode?_eq_some_iff.1 hcode⟩) hunescapes⟩
    rw [List.append_assoc]
    exact congrArg ('\\' :: 'u' :: ·) hrest
  | case6 e rest he hquote ih =>
    obtain ⟨u, hu, h⟩ := exists_of_bind_eq_ok h
    cases h
    obtain ⟨body, hbody, hunescapes⟩ := ih hu
    exact ⟨['\\', e] ++ body, congrArg (['\\', e] ++ ·) hbody, .cons (denotes_unescape he) hunescapes⟩
  | case7 c rest hquote hslash ih =>
    obtain ⟨u, hu, h⟩ := exists_of_bind_eq_ok h
    cases h
    obtain ⟨body, hbody, hunescapes⟩ := ih hu
    exact ⟨[c] ++ body, congrArg (c :: ·) hbody, .cons (.plain hquote hslash) hunescapes⟩

theorem eq_error_of_bind_pure {ε α β : Type} {first : Except ε α} {f : α → β} {e : ε}
    (h : (first >>= fun a => pure (f a)) = .error e) : first = .error e := by
  cases first with
  | error fault =>
    cases h
    rfl
  | ok a => cases h

/--
What cannot be read as a string leaves the escape language.
-/
theorem exists_of_readString_eq_error {fault : Fault} (h : readString quote cs = .error fault)
    : ∃ body text stuck, cs = body ++ stuck ∧ Unescapes IsSignedCode quote body text ∧ Stuck stuck fault := by
  fun_induction readString quote cs with
  | case1 =>
    cases h
    exact ⟨[], [], [], rfl, .nil, .ends⟩
  | case2 => cases h
  | case3 =>
    cases h
    exact ⟨[], [], _, rfl, .nil, .slash⟩
  | case4 rest code hcode =>
    cases h
    refine ⟨[], [], _, rfl, .nil, .code fun c hc => ?_⟩
    rw [← readCode?_eq_some_iff] at hc
    cases hcode.symm.trans hc
  | case5 rest code c hcode hquote =>
    next ih =>
    have hnames := readCode?_eq_some_iff.1 hcode
    obtain ⟨body, text, stuck, hrest, hbody, hstuck⟩ := ih (eq_error_of_bind_pure h)
    by_cases hlength : code.length = 4
    . refine ⟨'\\' :: 'u' :: code ++ body, c :: text, stuck, ?_, .cons (.code ⟨hlength, hnames⟩) hbody, hstuck⟩
      have hrest : rest = code ++ (body ++ stuck) := hrest ▸ (List.take_append_drop 4 rest).symm
      rw [List.append_assoc]
      exact congrArg ('\\' :: 'u' :: ·) hrest
    . -- the text ends within the four characters of the code, so nothing behind them is left to be read
      have hshort : rest.length < 4 := by
        simp only [code, List.length_take] at hlength
        omega
      have hcode : code = rest := List.take_of_length_le (Nat.le_of_lt hshort)
      rw [List.drop_of_length_le (Nat.le_of_lt hshort)] at hrest
      obtain ⟨-, rfl⟩ := List.append_eq_nil_iff.1 hrest.symm
      cases hstuck
      exact ⟨[], [], _, rfl, .nil, .short hshort (hcode ▸ hnames)⟩
  | case6 e rest he hquote ih =>
    obtain ⟨body, text, stuck, rfl, hbody, hstuck⟩ := ih (eq_error_of_bind_pure h)
    exact ⟨['\\', e] ++ body, unescape e :: text, stuck, rfl, .cons (denotes_unescape he) hbody, hstuck⟩
  | case7 c rest hquote hslash ih =>
    obtain ⟨body, text, stuck, rfl, hbody, hstuck⟩ := ih (eq_error_of_bind_pure h)
    exact ⟨[c] ++ body, c :: text, stuck, rfl, .cons (.plain hquote hslash) hbody, hstuck⟩

theorem readsString_iff (hquote : quote = '"' ∨ quote = '\'')
    : ReadsString quote cs text rest
        ↔
      ∃ body, splitAtQuote? quote cs = some (body, rest) ∧ Unescapes IsSignedCode quote body text := by
  constructor
  . rintro ⟨_, h⟩
    obtain ⟨body, hbody, hunescapes⟩ := exists_of_readString h
    exact ⟨body, hbody ▸ hunescapes.splitAtQuote?_eq hquote rest, hunescapes⟩
  . rintro ⟨body, hsplit, hunescapes⟩
    rw [eq_of_splitAtQuote? hsplit]
    exact hunescapes.readsString hquote rest

end Quoted

end Expr
end VisualNovel
