import VisualNovel.Proofs.Writing.Attributes
import VisualNovel.Proofs.Writing.Decimals
import VisualNovel.Proofs.Writing.Layout

/-!
This module contains that the two grammars read a numeral as the same number if expressions compute this number for its
value, and only then.
-/

namespace VisualNovel

/-! ### Numbers that expressions compute -/

namespace Number

/--
The number is the one that a double of its value is read as.
-/
def IsNormal : Number → Prop
  | .int i => i.natAbs < Nat.pow 2 53
  | .float _ units => ¬(Binary64.one ∣ units ∧ units / Binary64.one < Nat.pow 2 53)

theorem natAbs_lt_of_ofBinary64? {x : Binary64} {i : Int} (h : ofBinary64? x = some (.int i))
    : i.natAbs < Nat.pow 2 53 := by
  unfold ofBinary64? at h
  split at h
  . split at h
    . split at h
      . next hlt =>
        cases h
        exact hlt
      . cases h
    . cases h
  . cases h

theorem ofBinary64?_finite (s : Bool) (units : Nat)
    : ofBinary64? (.finite s units)
        =
      if Binary64.one ∣ units ∧ units / Binary64.one < Nat.pow 2 53 then
        some (.int (Binary64.signedUnits s (units / Binary64.one)))
      else some (.float s units) := by
  have habs (units : Nat) : (Binary64.signedUnits s units).natAbs = units := by
    cases s <;> simp [Binary64.signedUnits]
  rw [ofBinary64?, Binary64.toInt?]
  by_cases hdvd : Binary64.one ∣ units
  . rw [if_pos (Nat.mod_eq_zero_of_dvd hdvd)]
    dsimp only
    rw [habs]
    by_cases hlt : units / Binary64.one < Nat.pow 2 53
    . rw [if_pos hlt, if_pos ⟨hdvd, hlt⟩]
    . rw [if_neg hlt, if_neg fun h => hlt h.2]
  . rw [if_neg fun h => hdvd (Nat.dvd_of_mod_eq_zero h), if_neg fun h => hdvd h.1]

theorem exists_ofBinary64?_finite (s : Bool) (units : Nat) : ∃ n, ofBinary64? (.finite s units) = some n := by
  rw [ofBinary64?_finite]
  split <;> exact ⟨_, rfl⟩

/--
Reading the double of a number gives this number exactly if it is normal.
-/
theorem eq_iff_isNormal {n m : Number} (h : ofBinary64? n.toBinary64 = some m) : m = n ↔ n.IsNormal := by
  cases n with
  | int i =>
    constructor
    . rintro rfl
      exact natAbs_lt_of_ofBinary64? h
    . intro hlt
      have hlt : i.natAbs < Nat.pow 2 53 := hlt
      rw [toBinary64, Binary64.ofInt_of_lt hlt, ofBinary64?, Binary64.toInt?_mul_one] at h
      dsimp only at h
      rw [if_pos hlt] at h
      cases h
      rfl
  | float s units =>
    rw [toBinary64, ofBinary64?_finite] at h
    split at h
    . next hwhole =>
      cases h
      refine iff_of_false ?_ fun hnormal => hnormal hwhole
      intro heq
      cases heq
    . next hwhole =>
      cases h
      exact iff_of_true rfl hwhole

end Number

/-! ### Whole numbers -/

namespace Text

theorem readInt64?_eq (text : List Char)
    : readInt64? text
        =
      ((readDigits? (Binary64.splitSign text).2).map
        fun n : Nat => if (Binary64.splitSign text).1 then -(n : Int) else n).filter
          fun i : Int => -(Nat.pow 2 63 : Nat) ≤ i && i < (Nat.pow 2 63 : Nat) := by
  unfold readInt64?
  apply congrArg (Option.filter _)
  fun_cases Binary64.splitSign text with
  | case1 cs =>
    change ((readDigits? cs).bind fun n => some (n : Int)).map (fun i => -i)
      = (readDigits? cs).map fun n : Nat => -(n : Int)
    cases readDigits? cs <;> rfl
  | case2 cs => rfl
  | case3 cs hminus hplus =>
    split
    . exact absurd rfl (hminus _)
    . exact absurd rfl (hplus _)
    . rfl

theorem exists_of_readInt64? {text : List Char} {i : Int} (h : readInt64? text = some i)
    : ∃ digits : Nat, readDigits? (Binary64.splitSign text).2 = some digits ∧ digits ≤ Nat.pow 2 63 ∧
        i = if (Binary64.splitSign text).1 then -(digits : Int) else digits := by
  rw [readInt64?_eq, Option.filter_eq_some_iff, Option.map_eq_some_iff, Bool.and_eq_true, decide_eq_true_eq,
    decide_eq_true_eq] at h
  obtain ⟨⟨digits, hdigits, rfl⟩, hmin, hmax⟩ := h
  refine ⟨digits, hdigits, ?_, rfl⟩
  generalize Nat.pow 2 63 = bound at hmin hmax ⊢
  generalize (Binary64.splitSign text).1 = negative at hmin hmax
  cases negative with
  | true =>
    have hmin : -(bound : Int) ≤ -(digits : Int) := hmin
    omega
  | false =>
    have hmax : (digits : Int) < bound := hmax
    omega

theorem readDigits?_eq_some_iff {ds : List Char} {digits : Nat}
    : readDigits? ds = some digits ↔ ds ≠ [] ∧ (∀ d ∈ ds, d.isDigit) ∧ ofDigits ds = digits := by
  unfold readDigits?
  split
  . next h =>
    simp only [Bool.or_eq_true, List.isEmpty_iff, Bool.not_eq_true', List.all_eq_false] at h
    constructor
    . nofun
    . rintro ⟨hne, hall, -⟩
      obtain hnil | ⟨d, hd, hdigit⟩ := h
      . exact absurd hnil hne
      . exact absurd (hall d hd) hdigit
  . next h =>
    simp only [Bool.or_eq_true, List.isEmpty_iff, Bool.not_eq_true', not_or, Bool.not_eq_false, List.all_eq_true] at h
    simp [h.1]
    exact fun _ => h.2

end Text

namespace Binary64

theorem isDecimal_of_digits {ds : List Char} (hne : ds ≠ []) (hds : ∀ d ∈ ds, d.isDigit) : IsDecimal ds := by
  have hdecimal := IsDecimal.intro hds .none (.inl hne) .none
  rwa [List.append_nil, List.append_nil] at hdecimal

theorem readUnsigned?_of_digits {ds : List Char} (hne : ds ≠ []) (hds : ∀ d ∈ ds, d.isDigit) (negative : Bool)
    : readUnsigned? negative ds = some (ofDecimal negative (Text.ofDigits ds) 0) := by
  have hempty : ds.isEmpty = false := by simpa using hne
  rw [readUnsigned?_eq, Text.splitDigits_of_digits hds]
  simp [splitFraction, assemble?, hempty]

theorem roundDiv_le (num den : Nat) : roundDiv num den ≤ num / den + 1 := by
  unfold roundDiv
  dsimp only
  split <;> omega

/--
The double that is nearest to a number far below the largest one is finite.
-/
theorem exists_ofUnits {n bits : Nat} (h : n < Nat.pow 2 bits) (hbits : Nat.pow 2 bits + Nat.pow 2 bits ≤ overflow)
    (negative : Bool) : ∃ units, ofUnits negative n 1 = .finite negative units := by
  have hgrid : Nat.pow 2 (bitLength n - 53) ≤ Nat.pow 2 bits :=
    Nat.pow_le_pow_right Nat.two_pos (Nat.le_trans (Nat.sub_le ..) (bitLength_le h))
  have hround : roundDiv n (1 * Nat.pow 2 (bitLength n - 53)) * Nat.pow 2 (bitLength n - 53) < overflow := by
    rw [Nat.one_mul]
    calc
      roundDiv n (Nat.pow 2 (bitLength n - 53)) * Nat.pow 2 (bitLength n - 53)
        ≤ (n / Nat.pow 2 (bitLength n - 53) + 1) * Nat.pow 2 (bitLength n - 53) :=
          Nat.mul_le_mul_right _ (roundDiv_le ..)
      _ ≤ n + Nat.pow 2 (bitLength n - 53) := by
          rw [Nat.add_mul, Nat.one_mul]
          exact Nat.add_le_add_right (Nat.div_mul_le_self ..) _
      _ < Nat.pow 2 bits + Nat.pow 2 bits := Nat.add_lt_add_of_lt_of_le h hgrid
      _ ≤ overflow := hbits
  unfold ofUnits
  dsimp only
  rw [Nat.div_one, if_neg (Nat.not_le_of_lt hround)]
  exact ⟨_, rfl⟩

theorem ofDecimal_eq_ofUnits {digits : Nat} (h : digits ≠ 0) (negative : Bool)
    : ofDecimal negative digits 0 = ofUnits negative (digits * one) 1 := by
  unfold ofDecimal
  rw [if_neg h, if_neg (by decide), if_neg (by omega), if_pos (by decide)]
  exact congrArg (fun n => ofUnits negative (n * one) 1) (Nat.mul_one digits)

theorem ofDecimal_eq_ofInt {digits : Nat} (h : digits ≠ 0) (negative : Bool)
    : ofDecimal negative digits 0 = ofInt (if negative then -(digits : Int) else digits) := by
  rw [ofDecimal_eq_ofUnits h, ofInt]
  cases negative with
  | false =>
    have hsign : decide ((digits : Int) < 0) = false := decide_eq_false (by omega)
    rw [if_neg nofun, hsign, Int.natAbs_natCast]
  | true =>
    have hsign : decide (-(digits : Int) < 0) = true := decide_eq_true (by omega)
    rw [if_pos rfl, hsign, Int.natAbs_neg, Int.natAbs_natCast]

theorem ofBinary64?_zero (s : Bool) : Number.ofBinary64? (.finite s 0) = some (.int 0) := by
  have hlt : 0 / one < Nat.pow 2 53 := by
    rw [Nat.zero_div]
    decide
  rw [Number.ofBinary64?_finite, if_pos ⟨Nat.dvd_zero one, hlt⟩, Nat.zero_div]
  cases s <;> rfl

/--
A whole number is read as the same number from its digits as from its double. Only a zero may have lost its sign.
-/
theorem ofBinary64?_ofDecimal (negative : Bool) (digits : Nat)
    : Number.ofBinary64? (ofDecimal negative digits 0)
        =
      Number.ofBinary64? (ofInt (if negative then -(digits : Int) else digits)) := by
  by_cases hzero : digits = 0
  . subst hzero
    have hint : (if negative then -((0 : Nat) : Int) else (0 : Nat)) = 0 := by cases negative <;> rfl
    rw [hint, ofInt_of_lt (by decide), Int.natAbs_zero, Nat.zero_mul, ofBinary64?_zero, ofDecimal, if_pos rfl,
      ofBinary64?_zero]
  . rw [ofDecimal_eq_ofInt hzero]

theorem exists_read?_of_readInt64? {text : List Char} {i : Int} (h : Text.readInt64? text = some i)
    : ∃ s units, read? text = some (.finite s units) ∧
        Number.ofBinary64? (.finite s units) = Number.ofBinary64? (ofInt i) := by
  obtain ⟨digits, hdigits, hle, rfl⟩ := Text.exists_of_readInt64? h
  obtain ⟨hne, hds, hvalue⟩ := Text.readDigits?_eq_some_iff.1 hdigits
  have hread : read? text = some (ofDecimal (splitSign text).1 digits 0) := by
    rw [read?_eq, (isDecimal_of_digits hne hds).readMagnitude?_eq, readUnsigned?_of_digits hne hds, hvalue]
  obtain ⟨units, hfinite⟩ : ∃ units, ofDecimal (splitSign text).1 digits 0 = .finite (splitSign text).1 units := by
    by_cases hzero : digits = 0
    . exact ⟨0, by rw [ofDecimal, if_pos hzero]⟩
    . rw [ofDecimal_eq_ofUnits hzero]
      have hlt : Nat.pow 2 63 * one < Nat.pow 2 1138 := by decide +kernel
      have hbits : Nat.pow 2 1138 + Nat.pow 2 1138 ≤ overflow := by decide +kernel
      exact exists_ofUnits (Nat.lt_of_le_of_lt (Nat.mul_le_mul_right one hle) hlt) hbits _
  rw [hfinite] at hread
  refine ⟨_, units, hread, ?_⟩
  rw [← hfinite, ofBinary64?_ofDecimal]

end Binary64

namespace Grammar
namespace Bracket

theorem exists_of_typedValue {text : List Char} {n : Number} (h : typedValue text = .number n)
    : ∃ s units, Binary64.read? text = some (.finite s units) ∧
        Number.ofBinary64? (.finite s units) = Number.ofBinary64? n.toBinary64 := by
  unfold typedValue at h
  dsimp only at h
  split at h
  . cases h
  split at h
  . cases h
  split at h
  . cases h
  split at h
  . next i hi =>
    cases h
    exact Binary64.exists_read?_of_readInt64? hi
  . split at h
    . next s units hread =>
      cases h
      exact ⟨s, units, hread, rfl⟩
    . cases h

end Bracket
end Grammar

/-! ### Numerals as expressions -/

namespace Expr

/--
The expression that a number with a sign is read as.
-/
def ofNumeral (op : Option UnaryOp) (n : Number) : Expr :=
  match op with
  | none => .literal (.number n)
  | some op => .unary op (.literal (.number n))

/--
The tokens of a number with a sign.
-/
def numeralKinds (op : Option UnaryOp) (x : Binary64) : List TokenKind :=
  op.toList.map (fun op => .punct op.punct) ++ [.number x]

theorem spells_numeral {x : Binary64} {n : Number} (hn : Number.ofBinary64? x = some n) (op : Option UnaryOp)
    : SpellsStatement (numeralKinds op x) (ofNumeral op n) := by
  have hnumber : SpellsPrimary [.number x] (.literal (.number n)) :=
    spells_token nofun fun t ts ht => reads_number ht hn
  cases op with
  | none => exact hnumber.spells.statement
  | some op =>
    have hoperand := hnumber.spells.operand (Nat.le_refl levels) (by decide)
    exact ((spells_unary op hoperand).spells (Nat.le_refl levels) fun h => absurd h (Nat.lt_irrefl _)).statement

theorem spells_entry {kinds : List TokenKind} {value : Expr} (h : SpellsStatement kinds value) (key : String)
    : SpellsPrimary (.punct .leftBrace :: .name key :: .punct .colon :: (kinds ++ [.punct .rightBrace]))
        (.object [(key, value)]) := by
  apply spells_of_readPrimary
  . rintro _ ⟨⟩
    rfl
  . intro opening ts rest hopening hspelled
    obtain ⟨word, _, rfl, hword, hspelled⟩ := hspelled.uncons
    obtain ⟨colon, _, rfl, hcolon, hspelled⟩ := hspelled.uncons
    obtain ⟨_, hinner, hbehind⟩ := hspelled.split
    obtain ⟨closing, rfl, hclosing⟩ := hbehind.eq_cons
    have hvalue := h hinner (quiet_cons hclosing (by decide) rest)
    exact reads_object hopening (reads_entries_single (hword ▸ .name key) hcolon hvalue hclosing)

/--
A number that a positive double is read as has this double.
-/
theorem toBinary64_of_ofBinary64? {units : Nat} {n : Number} (h : Number.ofBinary64? (.finite false units) = some n)
    : n.toBinary64 = .finite false units := by
  rw [Number.ofBinary64?_finite] at h
  split at h
  . next hwhole =>
    obtain ⟨hdvd, hlt⟩ := hwhole
    cases h
    have hlt : ((units / Binary64.one : Nat) : Int).natAbs < Nat.pow 2 53 := by rwa [Int.natAbs_natCast]
    have hsign : decide (((units / Binary64.one : Nat) : Int) < 0) = false :=
      decide_eq_false (Int.not_lt.2 (Int.natCast_nonneg _))
    have hdouble := Binary64.ofInt_of_lt hlt
    rw [hsign, Int.natAbs_natCast, Nat.div_mul_cancel hdvd] at hdouble
    exact hdouble
  . cases h
    rfl

theorem eval_numeral {units : Nat} {n m : Number} {text cs : List Char} {op : Option UnaryOp}
    (hsigned : Binary64.Signed cs text op)
    (hn : Number.ofBinary64? (.finite false units) = some n)
    (hm : Number.ofBinary64? (.finite (op == some .neg) units) = some m) (scope : Scope)
    : (eval (ofNumeral op n)).run.run scope = (.ok (.number m), scope) := by
  have htoBinary64 := toBinary64_of_ofBinary64? hn
  cases hsigned with
  | plain =>
    cases hn.symm.trans hm
    rfl
  | minus =>
    have hm : Number.ofBinary64? (Binary64.neg (.finite false units)) = some m := hm
    have hresult : UnaryOp.apply .neg (.number n) = .ok (.number m) := by
      rw [UnaryOp.apply, Value.toNumber, htoBinary64, result, number, hm]
      rfl
    rw [ofNumeral, eval, eval, pure_bind, hresult]
    rfl
  | plus =>
    have hm : Number.ofBinary64? (.finite false units) = some m := hm
    have hresult : UnaryOp.apply .plus (.number n) = .ok (.number m) := by
      rw [UnaryOp.apply, Value.toNumber, htoBinary64, result, number, hm]
      rfl
    rw [ofNumeral, eval, eval, pure_bind, hresult]
    rfl

theorem eval_entry {e : Expr} {value : Value} {scope : Scope} (h : (eval e).run.run scope = (.ok value, scope))
    (key : String) : (eval (.object [(key, e)])).run.run scope = (.ok (.object [(key, value)]), scope) := by
  simp [eval, evalEntries, Fields.insert, h]
  rfl

/-! ### Texts of numerals -/

section Texts

variable {rest : List Char}

/--
A word that may be the key of an object's entry.
-/
structure IsIdentifier (key : List Char) : Prop where
  starts : ∃ c ∈ key.head?, isNameStart c
  parts : ∀ c ∈ key, isNamePart c

theorem isWordPart_of_isNamePart {c : Char} (h : isNamePart c) : Grammar.Bracket.isWordPart c := by
  have hblank : Text.isBlank c = false := by
    rw [Bool.eq_false_iff]
    intro hblank
    rw [isNamePart_of_breaks (breaks_of_isBlank hblank)] at h
    cases h
  have hne (d : Char) (hd : isNamePart d = false) : (c != d) = true :=
    bne_iff_ne.2 (Text.ne_of_holds h hd)
  rw [Grammar.Bracket.isWordPart, hblank, hne '=' (by decide +kernel), hne ']' (by decide +kernel),
    hne '[' (by decide +kernel), hne '"' (by decide +kernel), hne '\'' (by decide +kernel)]
  rfl

theorem IsIdentifier.isWord {key : List Char} (h : IsIdentifier key) : Grammar.Bracket.IsWord key := by
  obtain ⟨c, hc, -⟩ := h.starts
  refine ⟨?_, fun d hd => isWordPart_of_isNamePart (h.parts d hd)⟩
  rintro rfl
  cases hc

theorem isDigit_of_isNameStart {c : Char} (h : isNameStart c) : c.isDigit = false := by
  have hcodes : ∀ n ∈ List.range' 48 10, isNameStart (Char.ofNat n) = false := by decide +kernel
  rw [Bool.eq_false_iff]
  intro hdigit
  simp only [Char.isDigit, Bool.and_eq_true, decide_eq_true_eq, UInt32.le_iff_toNat_le] at hdigit
  have hcode := hcodes c.toNat (List.mem_range'_1.2 ⟨hdigit.1, Nat.lt_succ_of_le hdigit.2⟩)
  rw [Char.ofNat_toNat, h] at hcode
  cases hcode

theorem lexes_identifier {key : List Char} (hkey : IsIdentifier key) (hrest : ∀ c ∈ rest.head?, isNamePart c = false)
    : Lexes key (.name (String.ofList key)) rest := by
  obtain ⟨c, hc, hstart⟩ := hkey.starts
  obtain ⟨more, rfl⟩ := List.head?_eq_some_iff.1 hc
  have hne (d : Char) (hd : isNameStart d = false) : c ≠ d := Text.ne_of_holds hstart hd
  have hblank := Grammar.Bracket.not_blank_of_isWordPart (isWordPart_of_isNamePart (hkey.parts c List.mem_cons_self))
  refine .intro hblank (readToken_name ?_ ?_ hstart (List.forall_mem_cons.1 hkey.parts).2 hrest)
  . rw [startsNumber_of_ne (hne '.' (by decide +kernel)), isDigit_of_isNameStart hstart]
  . simp [hne '"' (by decide +kernel), hne '\'' (by decide +kernel)]

theorem passage_numeral {cs text : List Char} {op : Option UnaryOp} {x : Binary64}
    (hsigned : Binary64.Signed cs text op) (hdecimal : Binary64.IsDecimal cs) (hx : Binary64.read? cs = some x)
    (hrest : ∀ c ∈ rest.head?, isNumberPart c = false)
    : Passage text (numeralKinds op x) rest := by
  have hnumber : Passage cs [.number x] rest := by
    have htoken := @Passage.token cs [] rest _ (lexes_decimal hrest hdecimal hx) _ (.nil rest)
    rwa [List.append_nil] at htoken
  obtain ⟨c, more, rfl, hc⟩ := hdecimal.exists_cons
  have hassign : c ≠ '=' := by
    rintro rfl
    obtain hc | ⟨hc, -⟩ := hc <;> cases hc
  cases hsigned with
  | plain => exact hnumber
  | minus => exact .token (lexes_minus (more ++ rest) hassign) hnumber
  | plus => exact .token (lexes_plus (more ++ rest) hassign) hnumber

/--
An object of one entry, as the parameters of a command are written.
-/
def entryText (key text : List Char) : List Char :=
  '\x7b' :: (key ++ ':' :: ' ' :: (text ++ ['\x7d']))

theorem trim_entryText (key text : List Char) : Text.trim (entryText key text) = entryText key text := by
  have hlast : (entryText key text).getLast? = some '\x7d' := by simp [entryText, List.getLast?_cons]
  have hhead : ∀ c ∈ (entryText key text).head?, Text.isBlank c = false := by
    rintro _ ⟨⟩
    decide
  have htrim := @Text.trim_of_margins [] (entryText key text) [] nofun nofun hhead (by rw [hlast]; decide)
  rwa [List.nil_append, List.append_nil] at htrim

theorem passage_entry {key text : List Char} {kinds : List TokenKind} (hkey : IsIdentifier key)
    (htext : Passage text kinds ['\x7d'])
    : Passage (entryText key text)
        (.punct .leftBrace :: .name (String.ofList key) :: .punct .colon :: (kinds ++ [.punct .rightBrace])) [] := by
  have hclosing : Passage ['\x7d'] [.punct .rightBrace] [] :=
    @Passage.token ['\x7d'] [] [] _ (lexes_rightBrace []) _ (.nil [])
  have hvalue := htext.append hclosing
  have hcolon : Passage (':' :: ' ' :: (text ++ ['\x7d'])) (.punct .colon :: (kinds ++ [.punct .rightBrace])) [] :=
    @Passage.token [':'] _ [] _ (lexes_colon _) _ (.blank (by decide) hvalue)
  have hname : Lexes key (.name (String.ofList key)) (':' :: ' ' :: (text ++ ['\x7d']) ++ []) := by
    apply lexes_identifier hkey
    rintro _ ⟨⟩
    decide +kernel
  exact @Passage.token ['\x7b'] _ [] _ (lexes_leftBrace _) _ (.token hname hcolon)

end Texts

/--
The entry of a numeral has the number that a double of its value is read as.
-/
theorem whole_entry {key text : List Char} (hkey : IsIdentifier key) {s : Bool} {units : Nat}
    (hread : Binary64.read? text = some (.finite s units)) {m : Number}
    (hm : Number.ofBinary64? (.finite s units) = some m)
    : Whole (String.ofList (entryText key text)) (.object [(String.ofList key, .number m)]) := by
  obtain ⟨op, cs, hsigned, hdecimal, rfl, hx⟩ := Binary64.exists_of_read? hread
  obtain ⟨n, hn⟩ := Number.exists_ofBinary64?_finite false units
  have hnumeral : Passage text (numeralKinds op (.finite false units)) ['\x7d'] := by
    apply passage_numeral hsigned hdecimal hx
    rintro _ ⟨⟩
    rfl
  obtain ⟨ts, hkinds, htokens⟩ := (passage_entry hkey hnumeral).exists_tokens false
  have hspelled := Spelled.of_append ts []
  rw [hkinds, List.append_nil] at hspelled
  have hspells := spells_entry (spells_numeral hn op) (String.ofList key)
  refine ⟨ts, _, ?_, hspells.spells.statement hspelled quiet_nil, ?_⟩
  . rw [String.toList_ofList]
    exact htokens
  . rw [eval_entry (eval_numeral hsigned hn hm {})]

end Expr

namespace Grammar

section Numeral

variable {name key text : List Char} {n : Number}

/--
A command of the line grammar has the number that a double of its value is read as.
-/
theorem Line.read_numeral (hname : Bracket.IsWord name) (hopen : '\x7b' ∉ name) (hkey : Expr.IsIdentifier key)
    {s : Bool} {units : Nat} (hread : Binary64.read? text = some (.finite s units)) {m : Number}
    (hm : Number.ofBinary64? (.finite s units) = some m) {l : SourceLine}
    (htext : l.text = ';' :: (name ++ ' ' :: Expr.entryText key text)) (marks : Nat) (following : List SourceLine)
    : Line.read marks l following
        = .ok (.single
            [.make (String.ofList name)
              (Fields.insert Tag.bodyKey (.string (String.ofList (Expr.entryText key text))) [(String.ofList key, .number m)])
              l.number]
            marks following) := by
  have htrim := Expr.trim_entryText key text
  have hisName : Line.IsName name := by
    refine ⟨hname.ne_nil, fun c hc => ⟨Bracket.not_blank_of_isWordPart (hname.parts c hc), ?_⟩⟩
    rintro rfl
    exact hopen hc
  have hwrites : Line.WritesCommand name (Expr.entryText key text) l.text := by
    have hintro := @Line.WritesCommand.intro name (Expr.entryText key text) [] [] [' '] [] nofun nofun (by decide) nofun
    rw [htrim, List.append_nil] at hintro
    rw [htext]
    exact hintro
  have hopens : (Text.trim (Expr.entryText key text)).head? = some '\x7b' := by
    rw [htrim]
    rfl
  obtain ⟨written, hsplit, hline⟩ := hwrites.read hisName hopens
  rw [htrim] at hsplit
  have hcloses : '\x7d' ∈ Expr.entryText key text := by simp [Expr.entryText]
  have hvalue := (Expr.whole_entry hkey hread hm).wrapped.1
  have hjoined : Line.Joined following written name (Expr.entryText key text) following :=
    .single hsplit fun _ => hcloses
  rw [show Line.read marks l following = _ from hline marks l.number following]
  obtain ⟨⟨tags, marks', rest, le⟩, hc, hmarks, hrest, htags⟩ := (hjoined.yields_or_error marks l).1 _ hvalue
  rw [hc]
  dsimp only at hmarks hrest htags
  subst hmarks hrest htags
  rfl

/--
A command of the bracket grammar has the number that its numeral is typed as.
-/
theorem Bracket.read_numeral (hname : Bracket.IsWord name) (hkey : Bracket.IsWord key)
    (htyped : Bracket.typedValue text = .number n) {l : SourceLine}
    (htext : l.text = '[' :: (name ++ ' ' :: (key ++ '=' :: text) ++ [']'])) (marks : Nat)
    (following : List SourceLine)
    : Bracket.read marks l following
        = .ok (.single
            [Bracket.tagOf name [(String.ofList key, .number n)] (name ++ ' ' :: (key ++ '=' :: text)) l.number]
            marks following) := by
  obtain ⟨s, units, hread, -⟩ := exists_of_typedValue htyped
  obtain ⟨op, cs, hsigned, hdecimal, -⟩ := Binary64.exists_of_read? hread
  obtain ⟨hne, hparts⟩ := hsigned.parts hdecimal
  obtain ⟨c, more, rfl, hc⟩ := hkey.exists_cons
  have hvalue : Takes (readValue '=' (text ++ [']'])) (.number n) [']'] := by
    have hplain :=
      @takes_plain text [']'] [] nofun hne (fun c hc => isPlain_of_isNumberPart (hparts c hc)) (by decide) '='
    rwa [htyped] at hplain
  have hattribute : Takes (readAttribute (String.ofList name) (c :: more ++ '=' :: (text ++ [']'])))
      (String.ofList (c :: more), .number n) [']'] :=
    @takes_attribute_value _ _ _ [] _ hkey nofun hvalue (String.ofList name)
  have hattributes : Takes (readAttributes (String.ofList name) [] (' ' :: (c :: more ++ '=' :: text) ++ [']']))
      [(String.ofList (c :: more), .number n)] [] := by
    rw [List.cons_append, List.append_assoc]
    have hclosing := @takes_attributes_closing [] nofun [] (String.ofList name) [(String.ofList (c :: more), .number n)]
    exact @takes_attributes_cons _ _ [' '] _ _ _ _ [] _ (by decide) hc hattribute hclosing
  have hcommand := @takes_command [] name [] (' ' :: (c :: more ++ '=' :: text))
    [(String.ofList (c :: more), .number n)] hname nofun (by rintro _ ⟨⟩; decide) hattributes l.number
  have hmarker : ∀ d ∈ l.trimmed.head?, d ∉ Grammar.bracket.markers := by
    have htrimmed : l.trimmed = '[' :: Text.trimEnd (name ++ ' ' :: (c :: more ++ '=' :: text) ++ [']']) := by
      rw [SourceLine.trimmed, htext]
      exact @trim_mark [] nofun '[' (by decide) _
    rw [htrimmed]
    rintro _ ⟨⟩
    decide
  have hempty : readText l.number [] = .ok ([], false) := readText.eq_1 l.number
  exact @read_of_takes _ [] [] l htext _ hcommand hmarker _ _ _ _ hempty hempty marks following

/--
Both grammars accept a numeral. They read it as the same number if the bracket grammar types it as a normal one, and as
different numbers otherwise.
-/
theorem read_numeral_iff (hname : Bracket.IsWord name) (hopen : '\x7b' ∉ name) (hkey : Expr.IsIdentifier key)
    (hbody : String.ofList key ≠ Tag.bodyKey) (htyped : Bracket.typedValue text = .number n) {l other : SourceLine}
    (htext : l.text = ';' :: (name ++ ' ' :: Expr.entryText key text))
    (hother : other.text = '[' :: (name ++ ' ' :: (key ++ '=' :: text) ++ [']'])) (marks : Nat)
    (following : List SourceLine)
    : ∃ tag tag' m,
        Line.read marks l following = .ok (.single [tag] marks following) ∧
          Bracket.read marks other following = .ok (.single [tag'] marks following) ∧
          tag.name = String.ofList name ∧ tag'.name = String.ofList name ∧
          tag.value? (String.ofList key) = some (.number m) ∧ tag'.value? (String.ofList key) = some (.number n) ∧
          Number.ofBinary64? n.toBinary64 = some m ∧ (m = n ↔ n.IsNormal) := by
  obtain ⟨s, units, hread, hnormal⟩ := Bracket.exists_of_typedValue htyped
  obtain ⟨m, hm⟩ := Number.exists_ofBinary64?_finite s units
  have hline := Line.read_numeral hname hopen hkey hread hm htext marks following
  have hbracket := Bracket.read_numeral hname hkey.isWord htyped hother marks following
  rw [hnormal] at hm
  refine ⟨_, _, m, hline, hbracket, rfl, rfl, ?_, ?_, hm, Number.eq_iff_isNormal hm⟩
  . rw [Tag.value?_of_ne _ _ _ _ hbody]
    simp [Fields.find?]
  . rw [Bracket.tagOf, Tag.value?_of_ne _ _ _ _ hbody]
    simp [Fields.find?, Fields.insert]

end Numeral

section Sample

theorem typedValue_sample : Bracket.typedValue "1.0".toList = .number (.float false Binary64.one) := by
  have hint : Text.readInt64? "1.0".toList = none := by decide
  have hfloat : Binary64.read? "1.0".toList = some (.finite false Binary64.one) := by decide +kernel
  unfold Bracket.typedValue
  dsimp only
  rw [if_neg (by decide), if_neg (by decide), if_neg (by decide), hint]
  dsimp only
  rw [hfloat]

/--
One that is written with a fraction is a whole number in a line command, and none in a bracket command.
-/
theorem read_sample_numeral
    : let line : SourceLine := { number := 1, text := ";cmd \x7bk: 1.0\x7d".toList }
      let bracket : SourceLine := { number := 1, text := "[cmd k=1.0]".toList }
      ∃ tag tag',
        Line.read 0 line [] = .ok (.single [tag] 0 []) ∧ Bracket.read 0 bracket [] = .ok (.single [tag'] 0 []) ∧
          tag.value? "k" = some (.number (.int 1)) ∧
          tag'.value? "k" = some (.number (.float false Binary64.one)) := by
  intro line bracket
  have hname : Bracket.IsWord "cmd".toList := ⟨by decide, by decide⟩
  have hkey : Expr.IsIdentifier "k".toList := ⟨⟨'k', by decide, by decide +kernel⟩, by decide +kernel⟩
  obtain ⟨tag, tag', m, hline, hbracket, -, -, htag, htag', hm, -⟩ :=
    @read_numeral_iff _ _ _ _ hname (by decide) hkey (by decide) typedValue_sample line bracket (by decide) (by decide)
      0 []
  have hone : Number.ofBinary64? (.finite false Binary64.one) = some (.int 1) := by decide +kernel
  cases hm.symm.trans hone
  exact ⟨tag, tag', hline, hbracket, htag, htag'⟩

end Sample

end Grammar
end VisualNovel
