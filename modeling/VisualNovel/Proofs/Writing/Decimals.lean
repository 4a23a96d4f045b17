import VisualNovel.Proofs.Printing.Numbers
import VisualNovel.Proofs.Recognizing.Words

/-!
This module contains the texts that are read as decimal numbers: their parts, what their sign has to do with the double,
and that an expression has the unsigned ones as a single token.
-/

namespace VisualNovel
namespace Text

theorem splitDigits_append (cs : List Char) : (splitDigits cs).1 ++ (splitDigits cs).2 = cs := by
  fun_induction splitDigits cs with
  | case1 => rfl
  | case2 c cs hc ds rest heq ih =>
    rw [heq] at ih
    exact congrArg _ ih
  | case3 c cs hc => rfl

theorem isDigit_of_mem_splitDigits (cs : List Char) : ∀ c ∈ (splitDigits cs).1, c.isDigit := by
  fun_induction splitDigits cs with
  | case1 => nofun
  | case2 c cs hc ds rest heq ih =>
    rw [heq] at ih
    exact List.forall_mem_cons.2 ⟨hc, ih⟩
  | case3 c cs hc => nofun

theorem splitDigits_of_digits {ds : List Char} (h : ∀ c ∈ ds, c.isDigit) : splitDigits ds = (ds, []) := by
  induction ds with
  | nil => rfl
  | cons d ds ih =>
    rw [List.forall_mem_cons] at h
    rw [splitDigits, if_pos h.1, ih h.2]

end Text

namespace Binary64

/-! ### Signs -/

/--
The magnitude is rounded without regard to the sign.
-/
theorem ofUnits_cases (num den : Nat)
    : (∃ units, ∀ negative, ofUnits negative num den = .finite negative units) ∨
        ∀ negative, ofUnits negative num den = .infinite negative := by
  unfold ofUnits
  dsimp only
  split
  . exact .inr fun negative => rfl
  . exact .inl ⟨_, fun negative => rfl⟩

theorem ofDecimal_cases (digits : Nat) (exponent : Int)
    : (∃ units, ∀ negative, ofDecimal negative digits exponent = .finite negative units) ∨
        ∀ negative, ofDecimal negative digits exponent = .infinite negative := by
  unfold ofDecimal
  split
  . exact .inl ⟨0, fun negative => rfl⟩
  . split
    . exact .inr fun negative => rfl
    . split
      . exact .inl ⟨0, fun negative => rfl⟩
      . split
        . exact ofUnits_cases ..
        . exact ofUnits_cases ..

/-! ### Decimals -/

/--
The point of a decimal and the digits behind it.
-/
inductive IsFraction : List Char → Prop where
  | none : IsFraction []
  | digits {ds : List Char} (h : ∀ d ∈ ds, d.isDigit) : IsFraction ('.' :: ds)

/--
The letter of an exponent, its sign and its digits.
-/
inductive IsExponent : List Char → Prop where
  | none : IsExponent []
  | digits {letter : Char} (hletter : letter = 'e' ∨ letter = 'E') {sign ds : List Char}
    (hsign : sign = [] ∨ sign = ['-'] ∨ sign = ['+']) (hne : ds ≠ []) (h : ∀ d ∈ ds, d.isDigit)
    : IsExponent (letter :: (sign ++ ds))

/--
A decimal without a sign. There is a digit before or behind its point.
-/
inductive IsDecimal : List Char → Prop where
  | intro {whole fraction exponent : List Char} (hwhole : ∀ d ∈ whole, d.isDigit) (hfraction : IsFraction fraction)
    (hdigit : whole ≠ [] ∨ 1 < fraction.length) (hexponent : IsExponent exponent)
    : IsDecimal (whole ++ (fraction ++ exponent))

/--
Digits alone are left behind the sign of an exponent.
-/
theorem exists_of_readExponent? {cs : List Char} {e : Int} (h : readExponent? cs = some e)
    : ∃ sign ds, cs = sign ++ ds ∧ (sign = [] ∨ sign = ['-'] ∨ sign = ['+']) ∧ ds ≠ [] ∧ ∀ d ∈ ds, d.isDigit := by
  unfold readExponent? at h
  split at h
  next negative ds heq =>
  have hdigits : ds ≠ [] ∧ ∀ d ∈ ds, d.isDigit := by
    have happend := Text.splitDigits_append ds
    have hall := Text.isDigit_of_mem_splitDigits ds
    split at h
    . cases h
    . next ds' hne hsplit =>
      rw [hsplit, List.append_nil] at happend
      rw [hsplit] at hall
      subst happend
      exact ⟨hne, hall⟩
    . cases h
  obtain ⟨hne, hall⟩ := hdigits
  split at heq
  . cases heq
    exact ⟨['-'], ds, rfl, .inr (.inl rfl), hne, hall⟩
  . cases heq
    exact ⟨['+'], ds, rfl, .inr (.inr rfl), hne, hall⟩
  . cases heq
    exact ⟨[], _, rfl, .inl rfl, hne, hall⟩

/--
The digits behind a point, if there is one, and what follows them.
-/
def splitFraction : List Char → List Char × List Char
  | '.' :: rest => Text.splitDigits rest
  | rest => ([], rest)

/--
A decimal of these parts, the last of which is its exponent.
-/
def assemble? (negative : Bool) (whole fraction behind : List Char) : Option Binary64 :=
  if whole.isEmpty && fraction.isEmpty then none
  else
    match behind with
    | [] => some (ofDecimal negative (Text.ofDigits (whole ++ fraction)) (-fraction.length))
    | c :: rest =>
      if c = 'e' || c = 'E' then
        (readExponent? rest).map fun e => ofDecimal negative (Text.ofDigits (whole ++ fraction)) (e - fraction.length)
      else none

theorem readUnsigned?_eq (negative : Bool) (cs : List Char)
    : readUnsigned? negative cs
        =
      assemble? negative (Text.splitDigits cs).1 (splitFraction (Text.splitDigits cs).2).1
        (splitFraction (Text.splitDigits cs).2).2 :=
  rfl

theorem isFraction_of_splitFraction {rest fraction behind : List Char} (h : splitFraction rest = (fraction, behind))
    : ∃ point, rest = point ++ behind ∧ IsFraction point ∧ (fraction ≠ [] → 1 < point.length) := by
  unfold splitFraction at h
  split at h
  . next rest =>
    have happend := Text.splitDigits_append rest
    have hall := Text.isDigit_of_mem_splitDigits rest
    rw [h] at happend hall
    subst happend
    refine ⟨'.' :: fraction, rfl, .digits hall, fun hne => ?_⟩
    exact Nat.succ_lt_succ (List.length_pos_iff.2 hne)
  . cases h
    exact ⟨[], rfl, .none, fun hne => absurd rfl hne⟩

/--
An exponent is all there may be behind the digits, and the sign has no part in whether there is a double.
-/
theorem exists_of_assemble? {negative : Bool} {whole fraction behind : List Char} {x : Binary64}
    (h : assemble? negative whole fraction behind = some x)
    : (whole ≠ [] ∨ fraction ≠ []) ∧ IsExponent behind ∧
        ∃ digits exponent, ∀ negative,
          assemble? negative whole fraction behind = some (ofDecimal negative digits exponent) := by
  unfold assemble? at h ⊢
  split at h
  . cases h
  . next hempty =>
    have hdigit : whole ≠ [] ∨ fraction ≠ [] := by
      cases whole with
      | nil =>
        cases fraction with
        | nil => exact absurd rfl hempty
        | cons _ _ => exact .inr nofun
      | cons _ _ => exact .inl nofun
    simp only [if_neg hempty]
    split at h
    . exact ⟨hdigit, .none, _, _, fun negative => rfl⟩
    . next c rest =>
      split at h
      . next hletter =>
        obtain ⟨e, he, -⟩ := Option.map_eq_some_iff.1 h
        obtain ⟨sign, ds, rfl, hsign, hne, hds⟩ := exists_of_readExponent? he
        simp only [if_pos hletter, he]
        exact ⟨hdigit, .digits (by simpa using hletter) hsign hne hds, _, _, fun negative => rfl⟩
      . cases h

theorem isDecimal_of_readUnsigned? {negative : Bool} {cs : List Char} {x : Binary64} (h : readUnsigned? negative cs = some x)
    : IsDecimal cs ∧
        ∃ digits exponent, ∀ negative, readUnsigned? negative cs = some (ofDecimal negative digits exponent) := by
  have hwhole := Text.isDigit_of_mem_splitDigits cs
  have happend := Text.splitDigits_append cs
  rw [readUnsigned?_eq] at h
  obtain ⟨hdigit, hexponent, hread⟩ := exists_of_assemble? h
  obtain ⟨point, hpoint, hfraction, hlength⟩ := @isFraction_of_splitFraction (Text.splitDigits cs).2 _ _ rfl
  refine ⟨?_, hread⟩
  rw [← happend, hpoint]
  exact .intro hwhole hfraction (hdigit.imp_right hlength) hexponent

/-! ### Signed texts -/

/--
Only the sign of the double depends on the sign of the text.
-/
theorem readUnsigned?_of_finite {negative s : Bool} {cs : List Char} {units : Nat}
    (h : readUnsigned? negative cs = some (.finite s units))
    : s = negative ∧ IsDecimal cs ∧ ∀ negative, readUnsigned? negative cs = some (.finite negative units) := by
  obtain ⟨hdecimal, digits, exponent, hread⟩ := isDecimal_of_readUnsigned? h
  rw [hread negative] at h
  obtain ⟨found, hfinite⟩ | hinfinite := ofDecimal_cases digits exponent
  . rw [hfinite] at h
    cases h
    exact ⟨rfl, hdecimal, fun negative => by rw [hread, hfinite]⟩
  . rw [hinfinite] at h
    cases h

/--
A decimal starts with a digit or with the point before one.
-/
theorem IsDecimal.exists_cons {cs : List Char} (h : IsDecimal cs)
    : ∃ c more, cs = c :: more ∧ (c.isDigit ∨ (c = '.' ∧ ∃ d behind, more = d :: behind ∧ d.isDigit)) := by
  obtain @⟨whole, fraction, exponent, hwhole, hfraction, hdigit, -⟩ := h
  cases whole with
  | cons c whole => exact ⟨c, _, rfl, .inl (hwhole c List.mem_cons_self)⟩
  | nil =>
    cases hfraction with
    | none => simp at hdigit
    | @digits ds hds =>
      cases ds with
      | nil => simp at hdigit
      | cons d ds => exact ⟨'.', _, rfl, .inr ⟨rfl, d, _, rfl, hds d List.mem_cons_self⟩⟩

theorem IsDecimal.parts {cs : List Char} (h : IsDecimal cs) : ∀ c ∈ cs, Expr.isNumberPart c := by
  obtain @⟨whole, fraction, exponent, hwhole, hfraction, -, hexponent⟩ := h
  have hdigits {ds : List Char} (hds : ∀ d ∈ ds, d.isDigit) : ∀ d ∈ ds, Expr.isNumberPart d :=
    fun d hd => Expr.isNumberPart_of_isDigit (hds d hd)
  simp only [List.forall_mem_append]
  refine ⟨hdigits hwhole, ?_, ?_⟩
  . cases hfraction with
    | none => nofun
    | digits hds => exact List.forall_mem_cons.2 ⟨rfl, hdigits hds⟩
  . cases hexponent with
    | none => nofun
    | digits hletter hsign _ hds =>
      refine List.forall_mem_cons.2 ⟨?_, List.forall_mem_append.2 ⟨?_, hdigits hds⟩⟩
      . obtain rfl | rfl := hletter <;> rfl
      . obtain rfl | rfl | rfl := hsign <;> decide

theorem toLower_of_isDigit {c : Char} (h : c.isDigit) : c.toLower = c := by
  simp only [Char.isDigit, Bool.and_eq_true, decide_eq_true_eq] at h
  unfold Char.toLower
  rw [dif_neg]
  rintro ⟨hle, -⟩
  have hlt : (65 : UInt32) ≤ 57 := UInt32.le_trans hle h.2
  exact absurd hlt (by decide)

theorem IsDecimal.map_toLower_ne {cs : List Char} (h : IsDecimal cs) {word : List Char}
    (hword : ∀ c ∈ word.head?, c.isDigit = false ∧ c ≠ '.') : cs.map Char.toLower ≠ word := by
  obtain ⟨c, more, rfl, hc⟩ := h.exists_cons
  rintro rfl
  obtain ⟨hdigit, hpoint⟩ := hword c.toLower rfl
  obtain hc | ⟨rfl, -⟩ := hc
  . rw [toLower_of_isDigit hc, hc] at hdigit
    cases hdigit
  . exact hpoint (by decide)

/--
The text is the decimal with this sign in front of it.
-/
inductive Signed (decimal : List Char) : List Char → Option UnaryOp → Prop where
  | plain : Signed decimal decimal none
  | minus : Signed decimal ('-' :: decimal) (some .neg)
  | plus : Signed decimal ('+' :: decimal) (some .plus)

/--
Is the number below zero, and its text without the sign.
-/
def splitSign : List Char → Bool × List Char
  | '-' :: cs => (true, cs)
  | '+' :: cs => (false, cs)
  | cs => (false, cs)

theorem exists_signed (cs : List Char)
    : ∃ op, Signed (splitSign cs).2 cs op ∧ (splitSign cs).1 = (op == some .neg) := by
  unfold splitSign
  split
  . exact ⟨_, .minus, rfl⟩
  . exact ⟨_, .plus, rfl⟩
  . exact ⟨_, .plain, rfl⟩

theorem Signed.splitSign {cs text : List Char} {op : Option UnaryOp} (h : Signed cs text op) (hdecimal : IsDecimal cs)
    : splitSign text = (op == some .neg, cs) := by
  cases h with
  | minus => rfl
  | plus => rfl
  | plain =>
    obtain ⟨c, more, rfl, hc⟩ := hdecimal.exists_cons
    unfold Binary64.splitSign
    split
    . next heq =>
      cases heq
      obtain hc | ⟨hc, -⟩ := hc <;> cases hc
    . next heq =>
      cases heq
      obtain hc | ⟨hc, -⟩ := hc <;> cases hc
    . rfl

/--
A text without a sign that is one of the words, or else a decimal.
-/
def readMagnitude? (negative : Bool) (cs : List Char) : Option Binary64 :=
  if cs.map Char.toLower = "nan".toList then
    some .nan
  else if cs.map Char.toLower = "inf".toList || cs.map Char.toLower = "infinity".toList then
    some (.infinite negative)
  else
    readUnsigned? negative cs

theorem read?_eq (cs : List Char) : read? cs = readMagnitude? (splitSign cs).1 (splitSign cs).2 :=
  rfl

theorem IsDecimal.readMagnitude?_eq {cs : List Char} (h : IsDecimal cs) (negative : Bool)
    : readMagnitude? negative cs = readUnsigned? negative cs := by
  have hnan : cs.map Char.toLower ≠ "nan".toList := h.map_toLower_ne (by decide)
  have hinf : cs.map Char.toLower ≠ "inf".toList := h.map_toLower_ne (by decide)
  have hinfinity : cs.map Char.toLower ≠ "infinity".toList := h.map_toLower_ne (by decide)
  have hinfinite : ¬(cs.map Char.toLower = "inf".toList || cs.map Char.toLower = "infinity".toList) := by
    rw [Bool.or_eq_true, decide_eq_true_eq, decide_eq_true_eq]
    exact not_or.2 ⟨hinf, hinfinity⟩
  rw [readMagnitude?, if_neg hnan, if_neg hinfinite]

theorem Signed.read? {cs text : List Char} {op : Option UnaryOp} (h : Signed cs text op) (hdecimal : IsDecimal cs)
    : read? text = readUnsigned? (op == some .neg) cs := by
  rw [read?_eq, h.splitSign hdecimal, hdecimal.readMagnitude?_eq]

theorem Signed.parts {cs text : List Char} {op : Option UnaryOp} (h : Signed cs text op) (hdecimal : IsDecimal cs)
    : text ≠ [] ∧ ∀ c ∈ text, Expr.isNumberPart c := by
  obtain ⟨c, more, rfl, -⟩ := hdecimal.exists_cons
  cases h with
  | plain => exact ⟨nofun, hdecimal.parts⟩
  | minus => exact ⟨nofun, List.forall_mem_cons.2 ⟨rfl, hdecimal.parts⟩⟩
  | plus => exact ⟨nofun, List.forall_mem_cons.2 ⟨rfl, hdecimal.parts⟩⟩

/--
A text that is read as a finite double is a decimal with or without a sign.
-/
theorem exists_of_read? {text : List Char} {s : Bool} {units : Nat} (h : read? text = some (.finite s units))
    : ∃ op cs, Signed cs text op ∧ IsDecimal cs ∧ s = (op == some .neg) ∧ read? cs = some (.finite false units) := by
  obtain ⟨op, hsigned, hnegative⟩ := exists_signed text
  have hread : readUnsigned? (splitSign text).1 (splitSign text).2 = some (.finite s units) := by
    rw [read?_eq, readMagnitude?] at h
    split at h
    . cases h
    . split at h
      . cases h
      . exact h
  obtain ⟨rfl, hdecimal, hall⟩ := readUnsigned?_of_finite hread
  refine ⟨op, _, hsigned, hdecimal, hnegative, ?_⟩
  rw [Signed.plain.read? hdecimal]
  exact hall _

end Binary64

namespace Expr

/-! ### Number literals -/

section Scan

variable {behind : List Char} {literal : List Char} {seen : Bool}

/--
Whatever the character before them is, the literal ends right behind these characters.
-/
def Scans (seen : Bool) (literal behind : List Char) : Prop :=
  ∀ previous, scanNumber previous seen (literal ++ behind) = (literal, behind)

theorem scans_nil (h : ∀ c ∈ behind.head?, isNumberPart c = false) (seen : Bool) : Scans seen [] behind := by
  intro previous
  cases behind with
  | nil => rfl
  | cons c behind =>
    have hc := h c rfl
    simp only [isNumberPart, Bool.or_eq_false_iff] at hc
    simp [scanNumber, hc]

theorem Scans.cons {c : Char} (hc : c.isDigit || c == '.') (h : Scans seen literal behind)
    : Scans seen (c :: literal) behind := by
  intro previous
  rw [List.cons_append, scanNumber, if_pos (by rw [hc]; rfl), h c]
  rfl

theorem Scans.digits {ds : List Char} (hds : ∀ d ∈ ds, d.isDigit) (h : Scans seen literal behind)
    : Scans seen (ds ++ literal) behind := by
  induction ds with
  | nil => exact h
  | cons d ds ih =>
    rw [List.forall_mem_cons] at hds
    exact (ih hds.2).cons (by rw [hds.1]; rfl)

/--
A sign is taken only right behind the letter of the exponent.
-/
theorem Scans.sign {letter sign : Char} (hletter : letter = 'e' ∨ letter = 'E') (hsign : sign = '-' ∨ sign = '+')
    (h : Scans seen literal behind)
    : scanNumber letter seen (sign :: literal ++ behind) = (sign :: literal, behind) := by
  have htaken
      : (sign.isDigit || sign == '.' || (sign == '+' || sign == '-') && (letter == 'e' || letter == 'E')) = true := by
    obtain rfl | rfl := hletter <;> obtain rfl | rfl := hsign <;> rfl
  rw [List.cons_append, scanNumber, if_pos htaken, h sign]
  rfl

theorem scans_letter {letter : Char} (hletter : letter = 'e' ∨ letter = 'E')
    (h : scanNumber letter true (literal ++ behind) = (literal, behind)) : Scans false (letter :: literal) behind := by
  intro previous
  rw [List.cons_append, scanNumber, if_neg, if_pos, h]
  . rfl
  . obtain rfl | rfl := hletter <;> rfl
  . intro hcontinues
    obtain rfl | rfl := hletter <;> cases hcontinues

theorem scans_exponent (hbehind : ∀ c ∈ behind.head?, isNumberPart c = false) (h : Binary64.IsExponent literal)
    : Scans false literal behind := by
  cases h with
  | none => exact scans_nil hbehind false
  | @digits letter hletter sign ds hsign _ hds =>
    have hdigits := (scans_nil hbehind true).digits hds
    rw [List.append_nil] at hdigits
    apply scans_letter hletter
    obtain rfl | rfl | rfl := hsign
    . exact hdigits letter
    . exact hdigits.sign hletter (.inl rfl)
    . exact hdigits.sign hletter (.inr rfl)

theorem scans_decimal (hbehind : ∀ c ∈ behind.head?, isNumberPart c = false) (h : Binary64.IsDecimal literal)
    : Scans false literal behind := by
  obtain @⟨whole, fraction, exponent, hwhole, hfraction, -, hexponent⟩ := h
  apply Scans.digits hwhole
  have hbehind := scans_exponent hbehind hexponent
  cases hfraction with
  | none => exact hbehind
  | digits hds => exact (hbehind.digits hds).cons rfl

/--
A decimal is a single token where no character of number literals is behind it.
-/
theorem lexes_decimal (hbehind : ∀ c ∈ behind.head?, isNumberPart c = false) (h : Binary64.IsDecimal literal) {x : Binary64}
    (hx : Binary64.read? literal = some x) : Lexes literal (.number x) behind := by
  have hscan := scans_decimal hbehind h
  obtain ⟨c, more, rfl, hc⟩ := h.exists_cons
  have hfirst : c.isDigit || c == '.' := by
    obtain hc | ⟨rfl, -⟩ := hc
    . rw [hc]
      rfl
    . rfl
  have hmore : scanNumber c false (more ++ behind) = (more, behind) := by
    have hscan := hscan c
    rw [List.cons_append, scanNumber, if_pos (by rw [hfirst]; rfl)] at hscan
    exact map_cons_eq_iff.1 hscan
  have hstarts : startsNumber (c :: (more ++ behind)) := by
    obtain hc | ⟨rfl, d, tail, rfl, hd⟩ := hc
    . rw [startsNumber_of_ne, hc]
      rintro rfl
      cases hc
    . exact hd
  exact .intro (not_blank_of_isNumberPart (h.parts c List.mem_cons_self)) (readToken_number hstarts hmore hx)

end Scan

end Expr
end VisualNovel
