import VisualNovel.Value.Basic

/-!
This module contains that a number survives being written as a double and read again.
-/

namespace VisualNovel

namespace Binary64

theorem one_eq : one = Nat.pow 2 1074 := by
  decide +kernel

theorem one_pos : 0 < one := by
  decide +kernel

theorem roundDiv_of_dvd {num den : Nat} (hden : 0 < den) (h : den ∣ num) : roundDiv num den = num / den := by
  have hmod : num % den = 0 := Nat.mod_eq_zero_of_dvd h
  have hne : ¬den = 0 := Nat.ne_of_gt hden
  simp [roundDiv, hmod, Ne.symm hne]

theorem bitLength_le {n k : Nat} (h : n < Nat.pow 2 k) : bitLength n ≤ k := by
  unfold bitLength
  split
  . exact Nat.zero_le k
  . next hne => exact (Nat.log2_lt hne).2 h

/--
A number of units with 53 binary digits, and zeros behind them, is not rounded.
-/
theorem ofUnits_mul_pow (negative : Bool) {n k zeros : Nat} (h : n < Nat.pow 2 53) (hzeros : zeros = Nat.pow 2 k)
    (hoverflow : n * zeros < overflow) : ofUnits negative (n * zeros) 1 = .finite negative (n * zeros) := by
  have hbits : bitLength (n * zeros) ≤ 53 + k := by
    have hlt : n * zeros < Nat.pow 2 53 * zeros :=
      Nat.mul_lt_mul_of_pos_right h (hzeros ▸ Nat.pow_pos Nat.two_pos)
    rw [hzeros] at hlt ⊢
    exact bitLength_le (Nat.lt_of_lt_of_eq hlt (Nat.pow_add 2 53 k).symm)
  have hgrid : Nat.pow 2 (bitLength (n * zeros) - 53) ∣ n * zeros := by
    have hdvd : Nat.pow 2 (bitLength (n * zeros) - 53) ∣ Nat.pow 2 k := Nat.pow_dvd_pow 2 (by omega)
    rw [← hzeros] at hdvd
    exact Nat.dvd_trans hdvd (Nat.dvd_mul_left ..)
  have hpos : 0 < Nat.pow 2 (bitLength (n * zeros) - 53) := Nat.pow_pos Nat.two_pos
  unfold ofUnits
  dsimp only
  rw [Nat.div_one, Nat.one_mul, roundDiv_of_dvd hpos hgrid, Nat.div_mul_cancel hgrid,
    if_neg (Nat.not_le_of_lt hoverflow)]

theorem ofInt_of_lt {i : Int} (h : i.natAbs < Nat.pow 2 53)
    : ofInt i = .finite (decide (i < 0)) (i.natAbs * one) := by
  have hoverflow : i.natAbs * one < overflow := by
    have hlt : i.natAbs * one < Nat.pow 2 53 * one := Nat.mul_lt_mul_of_pos_right h one_pos
    have hle : Nat.pow 2 53 * one ≤ overflow := by decide +kernel
    exact Nat.lt_of_lt_of_le hlt hle
  exact ofUnits_mul_pow _ h one_eq hoverflow

theorem toInt?_mul_one (i : Int) : (finite (decide (i < 0)) (i.natAbs * one)).toInt? = some i := by
  rw [toInt?, Nat.mul_mod_left, if_pos rfl, Nat.mul_div_cancel _ one_pos, signedUnits]
  by_cases hi : i < 0
  . rw [decide_eq_true hi, if_pos rfl]
    congr 1
    omega
  . rw [decide_eq_false hi, if_neg nofun]
    congr 1
    omega

end Binary64

/--
A number that a double is read as is printed as a double that is read as this number.
-/
theorem Number.ofBinary64?_toBinary64 {x : Binary64} {n : Number} (h : ofBinary64? x = some n)
    : ofBinary64? n.toBinary64 = some n := by
  unfold ofBinary64? at h
  split at h
  . next s u =>
    split at h
    . next i hi =>
      cases h
      split
      . next hlt =>
        rw [toBinary64, Binary64.ofInt_of_lt hlt, ofBinary64?, Binary64.toInt?_mul_one]
        dsimp only
        rw [if_pos hlt]
      . next hlt =>
        rw [toBinary64, ofBinary64?, hi]
        dsimp only
        rw [if_neg hlt]
    . next hi =>
      cases h
      rw [toBinary64, ofBinary64?, hi]
  . cases h

end VisualNovel
