import VisualNovel.Json.Reader
import VisualNovel.Proofs.Writing.Attributes
import VisualNovel.Proofs.Writing.Decimals

/-!
This module contains that the display of every number is a JSON number, which is read up to its end.
-/

namespace VisualNovel
namespace Text

theorem splitDigits_append_behind {ds behind : List Char} (h : ∀ d ∈ ds, d.isDigit)
    (hbehind : ∀ c ∈ behind.head?, c.isDigit = false) : splitDigits (ds ++ behind) = (ds, behind) := by
  induction ds with
  | nil =>
    cases behind with
    | nil => rfl
    | cons c cs =>
      have hc := hbehind c rfl
      rw [List.nil_append, splitDigits, if_neg (by simp [hc])]
  | cons d ds ih =>
    rw [List.forall_mem_cons] at h
    rw [List.cons_append, splitDigits, if_pos h.1, ih h.2]

end Text

namespace Json

/-! ### The texts of numbers -/

/--
The digits of a number before its point. A zero in front stands alone.
-/
structure IsWhole (ds : List Char) : Prop where
  ne_nil : ds ≠ []
  digits : ∀ d ∈ ds, d.isDigit
  zero : ds.head? = some '0' → ds.length = 1

/--
The point of a number and the digits behind it.
-/
inductive IsFraction : List Char → Prop where
  | none : IsFraction []
  | digits {ds : List Char} (hne : ds ≠ []) (h : ∀ d ∈ ds, d.isDigit) : IsFraction ('.' :: ds)

inductive IsNumber : List Char → Prop where
  | intro {sign whole fraction exponent : List Char} (hsign : sign = [] ∨ sign = ['-']) (hwhole : IsWhole whole)
    (hfraction : IsFraction fraction) (hexponent : Binary64.IsExponent exponent)
    : IsNumber (sign ++ (whole ++ (fraction ++ exponent)))

/--
Does a number end before this text?
-/
def EndsNumber (behind : List Char) : Prop :=
  ∀ c ∈ behind.head?, c.isDigit = false ∧ c ≠ '.' ∧ c ≠ 'e' ∧ c ≠ 'E'

theorem head_exponent {exponent behind : List Char} (h : Binary64.IsExponent exponent) (hbehind : EndsNumber behind)
    : ∀ c ∈ (exponent ++ behind).head?, c.isDigit = false ∧ c ≠ '.' := by
  cases h with
  | none => exact fun c hc => ⟨(hbehind c hc).1, (hbehind c hc).2.1⟩
  | digits hletter =>
    intro c hc
    cases hc
    rcases hletter with rfl | rfl <;> decide

theorem head_fraction {fraction rest : List Char} (h : IsFraction fraction) (hrest : ∀ c ∈ rest.head?, c.isDigit = false)
    : ∀ c ∈ (fraction ++ rest).head?, c.isDigit = false := by
  cases h with
  | none => exact hrest
  | digits =>
    intro c hc
    cases hc
    rfl

theorem readFraction?_append {fraction rest : List Char} (h : IsFraction fraction)
    (hrest : ∀ c ∈ rest.head?, c.isDigit = false ∧ c ≠ '.')
    : ∃ ds, readFraction? (fraction ++ rest) = some (ds, rest) := by
  cases h with
  | none =>
    refine ⟨[], ?_⟩
    rw [List.nil_append]
    unfold readFraction?
    split
    . exact absurd rfl (hrest '.' rfl).2
    . rfl
  | @digits ds hne hds =>
    refine ⟨ds, ?_⟩
    rw [List.cons_append, readFraction?, Text.splitDigits_append_behind hds fun c hc => (hrest c hc).1]
    dsimp only
    rw [if_neg (by simpa using hne)]

theorem splitSign_append {sign ds : List Char} (hsign : sign = [] ∨ sign = ['-'] ∨ sign = ['+']) (hne : ds ≠ [])
    (h : ∀ d ∈ ds, d.isDigit) (rest : List Char) : ∃ negative, splitSign (sign ++ (ds ++ rest)) = (negative, ds ++ rest) := by
  rcases hsign with rfl | rfl | rfl
  . obtain ⟨d, ds', rfl⟩ := List.exists_cons_of_ne_nil hne
    have hd := h d List.mem_cons_self
    refine ⟨false, ?_⟩
    rw [List.nil_append, List.cons_append]
    unfold splitSign
    split
    . next heq =>
      cases heq
      cases hd
    . next heq =>
      cases heq
      cases hd
    . rfl
  . exact ⟨true, rfl⟩
  . exact ⟨false, rfl⟩

theorem readExponent?_append {exponent behind : List Char} (h : Binary64.IsExponent exponent) (hbehind : EndsNumber behind)
    : ∃ e, readExponent? (exponent ++ behind) = some (e, behind) := by
  cases h with
  | none =>
    refine ⟨none, ?_⟩
    cases behind with
    | nil => rfl
    | cons c cs =>
      obtain ⟨_, _, hlower, hupper⟩ := hbehind c rfl
      rw [List.nil_append, readExponent?, if_neg (by simp [hlower, hupper])]
  | @digits letter hletter sign ds hsign hne hds =>
    obtain ⟨negative, hnegative⟩ := splitSign_append hsign hne hds behind
    refine ⟨some (negative, ds), ?_⟩
    rw [List.cons_append, List.append_assoc, readExponent?, if_pos (by simpa using hletter), hnegative]
    dsimp only
    rw [Text.splitDigits_append_behind hds fun c hc => (hbehind c hc).1]
    dsimp only
    rw [if_neg (by simpa using hne)]

theorem splitMinus_append {sign whole : List Char} (hsign : sign = [] ∨ sign = ['-']) (h : IsWhole whole) (rest : List Char)
    : ∃ negative, splitMinus (sign ++ (whole ++ rest)) = (negative, whole ++ rest) := by
  rcases hsign with rfl | rfl
  . obtain ⟨d, ds, rfl⟩ := List.exists_cons_of_ne_nil h.ne_nil
    have hd := h.digits d List.mem_cons_self
    refine ⟨false, ?_⟩
    rw [List.nil_append, List.cons_append]
    unfold splitMinus
    split
    . next heq =>
      cases heq
      cases hd
    . rfl
  . exact ⟨true, rfl⟩

/--
A number is read up to its end.
-/
theorem IsNumber.reads {cs behind : List Char} (h : IsNumber cs) (hbehind : EndsNumber behind)
    : ∃ n, readNumeral? (cs ++ behind) = some (n, behind) := by
  cases h with
  | @intro sign whole fraction exponent hsign hwhole hfraction hexponent =>
    have hexponentHead := head_exponent hexponent hbehind
    have hrest := head_fraction hfraction fun c hc => (hexponentHead c hc).1
    obtain ⟨negative, hnegative⟩ := splitMinus_append hsign hwhole (fraction ++ (exponent ++ behind))
    have hdigits := Text.splitDigits_append_behind hwhole.digits hrest
    obtain ⟨places, hplaces⟩ := readFraction?_append hfraction hexponentHead
    obtain ⟨e, he⟩ := readExponent?_append hexponent hbehind
    have hguard : (!whole.isEmpty && (whole.head? != some '0' || whole.length == 1)) = true := by
      have hempty : whole.isEmpty = false := by simpa using hwhole.ne_nil
      by_cases hzero : whole.head? = some '0'
      . simp [hempty, hwhole.zero hzero]
      . simp [hempty, hzero]
    have hpass : (guard ((!whole.isEmpty && (whole.head? != some '0' || whole.length == 1)) = true) : Option Unit) = some () :=
      if_pos hguard
    refine ⟨{ negative, digits := whole, fraction := places, exponent := e }, ?_⟩
    rw [List.append_assoc, List.append_assoc, List.append_assoc, readNumeral?, hnegative]
    dsimp only
    rw [hdigits]
    dsimp only
    rw [hpass]
    dsimp only [bind, Option.bind]
    rw [hplaces]
    dsimp only
    rw [he]
    rfl

/-! ### Digits -/

theorem head?_toDigits {n : Nat} (h : n ≠ 0) : (Nat.toDigits 10 n).head? ≠ some '0' := by
  induction n using Nat.strongRecOn with
  | _ n ih =>
    by_cases hlt : n < 10
    . have hdigit : ∀ n < 10, n ≠ 0 → [n.digitChar].head? ≠ some '0' := by decide
      rw [Nat.toDigits_of_lt_base hlt]
      exact hdigit n hlt h
    . rw [Nat.toDigits_of_base_le (by decide) (by omega), List.head?_append_of_ne_nil _ Nat.toDigits_ne_nil]
      exact ih (n / 10) (by omega) (by omega)

theorem isWhole_toDigits (n : Nat) : IsWhole (Nat.toDigits 10 n) := by
  refine ⟨Nat.toDigits_ne_nil, Text.isDigit_of_mem_toDigits, fun hzero => ?_⟩
  by_cases hn : n = 0
  . subst hn
    rfl
  . exact absurd hzero (head?_toDigits hn)

theorem isWhole_singleton {d : Char} (h : d.isDigit) : IsWhole [d] :=
  ⟨by simp, by simpa using h, fun _ => rfl⟩

end Json

namespace Binary64

open Json (IsWhole IsNumber)

/-! ### The digits of a double -/

theorem le_of_bitLength {units power k : Nat} (h : units ≠ 0) (hpower : power = Nat.pow 2 k) (hk : k < bitLength units)
    : power ≤ units := by
  rw [bitLength, if_neg h] at hk
  rw [hpower]
  exact Nat.le_trans (Nat.pow_le_pow_right Nat.two_pos (Nat.le_of_lt_succ hk)) (Nat.log2_self_le h)

theorem interval_low_pos {units : Nat} (h : units ≠ 0) : 0 < (interval units).low := by
  have hgrid : Nat.pow 2 (bitLength units - 53) ≤ units := by
    apply le_of_bitLength h rfl
    rw [bitLength, if_neg h]
    omega
  unfold interval
  dsimp only
  split <;> omega

theorem contains_zero {units scale : Nat} (h : units ≠ 0) (hscale : 0 < scale)
    : (interval units).contains scale 0 = false := by
  have hlow : 0 < (interval units).low * scale := Nat.mul_pos (interval_low_pos h) hscale
  unfold Interval.contains
  split
  . simp only [Bool.and_eq_false_iff, decide_eq_false_iff_not]
    omega
  . simp only [Bool.and_eq_false_iff, decide_eq_false_iff_not]
    omega

/--
Zero does not read back as a positive double.
-/
theorem onGrid?_ne_zero {tie : Tie} {units digits : Nat} {exponent : Int} (hunits : units ≠ 0)
    (h : onGrid? tie units exponent = some digits) : digits ≠ 0 := by
  have hscale : 0 < Nat.pow 10 (-exponent).toNat := Nat.pow_pos (by decide)
  unfold onGrid? at h
  dsimp only at h
  split at h
  . next hlower _ =>
    cases h
    split
    . simp
    . intro hzero
      rw [hzero, Nat.zero_mul, Nat.mul_zero, contains_zero hunits hscale] at hlower
      cases hlower
  . next hlower _ =>
    cases h
    intro hzero
    rw [hzero, Nat.zero_mul, Nat.mul_zero, contains_zero hunits hscale] at hlower
    cases hlower
  . cases h
    exact Nat.succ_ne_zero _
  . cases h

theorem go_ne_zero {tie : Tie} {units : Nat} (hunits : units ≠ 0) {steps : Nat} {first : Int}
    (hlast : 0 ≤ first - steps → one ≤ units) (h : 0 ≤ (shortest.go tie units steps first).2)
    : (shortest.go tie units steps first).1 ≠ 0 := by
  induction steps generalizing first with
  | zero =>
    rw [shortest.go] at h ⊢
    dsimp only at h ⊢
    have hscale : Nat.pow 10 (-first).toNat = 1 := by
      rw [Int.toNat_of_nonpos (by omega)]
    rw [hscale, Nat.mul_one]
    exact Nat.ne_of_gt (Nat.div_pos (hlast (by omega)) one_pos)
  | succ steps ih =>
    rw [shortest.go] at h ⊢
    cases hgrid : onGrid? tie units first with
    | some digits => exact onGrid?_ne_zero hunits hgrid
    | none =>
      rw [hgrid] at h
      exact ih (fun hlater => hlast (by omega)) h

theorem shortest_ne_zero {tie : Tie} {units : Nat} (hunits : units ≠ 0) (h : 0 ≤ (shortest tie units).2)
    : (shortest tie units).1 ≠ 0 := by
  refine go_ne_zero hunits (fun hlast => ?_) h
  exact le_of_bitLength hunits one_eq (by omega)

/-! ### Layouts -/

theorem isNumber_plain {sign ds : List Char} {exponent : Int} (hsign : sign = [] ∨ sign = ['-']) (h : IsWhole ds)
    (hzero : 0 ≤ exponent → ds.head? ≠ some '0') : IsNumber (sign ++ (Layout.plain ds exponent).toList) := by
  unfold Layout.plain
  split
  . next hexponent =>
    have hwhole : IsWhole (ds ++ List.replicate exponent.toNat '0') := by
      refine ⟨by simp [h.ne_nil], ?_, fun hhead => ?_⟩
      . rw [List.forall_mem_append]
        refine ⟨h.digits, fun d hd => ?_⟩
        rw [List.eq_of_mem_replicate hd]
        rfl
      . rw [List.head?_append_of_ne_nil _ h.ne_nil] at hhead
        exact absurd hhead (hzero hexponent)
    have hnumber := IsNumber.intro hsign hwhole (.digits (show ['0'] ≠ [] by simp) (by decide)) .none
    simpa using hnumber
  . next hexponent =>
    have hplaces : 0 < (-exponent).toNat := by omega
    dsimp only
    generalize (-exponent).toNat = places at hplaces
    generalize hpadded : List.replicate (places + 1 - ds.length) '0' ++ ds = padded
    have hlength : places < padded.length := by
      rw [← hpadded, List.length_append, List.length_replicate]
      omega
    have hdigits : ∀ d ∈ padded, d.isDigit := by
      rw [← hpadded, List.forall_mem_append]
      refine ⟨fun d hd => ?_, h.digits⟩
      rw [List.eq_of_mem_replicate hd]
      rfl
    have hwhole : IsWhole (padded.take (padded.length - places)) := by
      refine ⟨?_, fun d hd => hdigits d (List.mem_of_mem_take hd), fun hhead => ?_⟩
      . rw [← List.length_pos_iff, List.length_take]
        omega
      . rw [List.length_take]
        by_cases hle : ds.length ≤ places
        . rw [← hpadded, List.length_append, List.length_replicate]
          omega
        . rw [List.head?_take, if_neg (by omega), ← hpadded, Nat.sub_eq_zero_of_le (by omega)] at hhead
          have := h.zero hhead
          omega
    have hfraction : Json.IsFraction ('.' :: padded.drop (padded.length - places)) := by
      refine .digits ?_ fun d hd => hdigits d (List.mem_of_mem_drop hd)
      rw [← List.length_pos_iff, List.length_drop]
      omega
    have hnumber := IsNumber.intro hsign hwhole hfraction .none
    simpa using hnumber

/--
Digits with a point behind the first of them, if others follow.
-/
def pointed : List Char → List Char
  | d :: e :: ds => d :: '.' :: e :: ds
  | ds => ds

theorem isNumber_scientific {l : Layout} {sign ds : List Char} {lead : Int} (hsign : sign = [] ∨ sign = ['-'])
    (hne : ds ≠ []) (h : ∀ d ∈ ds, d.isDigit) : IsNumber (sign ++ (l.scientific ds lead).toList) := by
  have hexponent : IsExponent ('e' :: ((if l.plus && 0 ≤ lead then ['+'] else []) ++ (toString lead).toList)) := by
    rw [Text.toList_toString_int, ← List.append_assoc]
    refine .digits (.inl rfl) ?_ Nat.toDigits_ne_nil Text.isDigit_of_mem_toDigits
    by_cases hlead : lead < 0
    . simp [hlead, Int.not_le.2 hlead]
    . cases l.plus <;> simp [hlead]
  have htext : (l.scientific ds lead).toList
      = pointed ds ++ 'e' :: ((if l.plus && 0 ≤ lead then ['+'] else []) ++ (toString lead).toList) := by
    unfold Layout.scientific pointed
    dsimp only
    split <;> split <;> simp
  obtain ⟨d, others, rfl⟩ := List.exists_cons_of_ne_nil hne
  have hwhole : IsWhole [d] := Json.isWhole_singleton (h d (by simp))
  rw [htext]
  cases others with
  | nil => exact .intro hsign hwhole .none hexponent
  | cons e ds =>
    have hfraction : Json.IsFraction ('.' :: e :: ds) :=
      .digits (by simp) fun c hc => h c (List.mem_cons_of_mem d hc)
    exact .intro hsign hwhole hfraction hexponent

theorem isNumber_magnitude (l : Layout) (units : Nat) {sign : List Char} (hsign : sign = [] ∨ sign = ['-'])
    : IsNumber (sign ++ (l.magnitude units).toList) := by
  unfold Layout.magnitude
  split
  . exact .intro hsign (Json.isWhole_singleton (d := '0') rfl) (.digits (show ['0'] ≠ [] by simp) (by decide)) .none
  . next hunits =>
    dsimp only
    split
    . apply isNumber_plain hsign (Json.isWhole_toDigits _)
      exact fun hexponent => Json.head?_toDigits (shortest_ne_zero hunits hexponent)
    . exact isNumber_scientific hsign Nat.toDigits_ne_nil Text.isDigit_of_mem_toDigits

end Binary64

/--
Every number is displayed as a JSON number.
-/
theorem Json.isNumber_display (n : Number) : IsNumber n.display.toList := by
  cases n with
  | int i =>
    have hsign : (if i < 0 then ['-'] else []) = [] ∨ (if i < 0 then ['-'] else []) = ['-'] := by
      split <;> simp
    have hnumber := IsNumber.intro hsign (isWhole_toDigits i.natAbs) .none .none
    rw [Number.display, Text.toList_toString_int]
    simpa using hnumber
  | float negative units =>
    have hsign : (if negative then ['-'] else []) = [] ∨ (if negative then ['-'] else []) = ['-'] := by
      split <;> simp
    have hnumber := Binary64.isNumber_magnitude Number.layout units hsign
    rw [Number.display, Binary64.render, String.toList_append]
    cases negative <;> exact hnumber

end VisualNovel
