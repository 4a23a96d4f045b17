import Mathlib.Algebra.Group.Nat.Defs
import Mathlib.Control.Basic
import VisualNovel.Cache.Record

/-!
This module contains that numbers, texts and tags are read back from their bytes as they have been written, whatever
follows them.
-/

namespace VisualNovel

/-! ### Bytes as lists -/

theorem toList_loop (bytes : ByteArray) (i : Nat) (before : List UInt8)
    : ByteArray.toList.loop bytes i before = before.reverse ++ bytes.data.toList.drop i := by
  fun_induction ByteArray.toList.loop bytes i before with
  | case1 i before hi ih =>
    have hentry : bytes.get! i = bytes.data.toList[i] := getElem!_pos bytes.data i hi
    rw [ih, List.drop_eq_getElem_cons hi, hentry, List.reverse_cons, List.append_assoc, List.singleton_append]
  | case2 i before hi =>
    have hdrop : bytes.data.toList.drop i = [] := List.drop_eq_nil_iff.2 (Nat.le_of_not_lt hi)
    rw [hdrop, List.append_nil]

theorem toList_eq (bytes : ByteArray) : bytes.toList = bytes.data.toList := by
  rw [ByteArray.toList, toList_loop]
  rfl

theorem toList_mk (bytes : List UInt8) : (ByteArray.mk bytes.toArray).toList = bytes := by
  rw [toList_eq]

theorem mk_toList (bytes : ByteArray) : ByteArray.mk bytes.toList.toArray = bytes := by
  rw [toList_eq]

theorem toUTF8_toList_inj {s t : String} (h : s.toUTF8.toList = t.toUTF8.toList) : s = t := by
  apply String.toByteArray_inj.1
  rw [← mk_toList s.toByteArray, ← mk_toList t.toByteArray]
  exact congrArg (fun bytes => ByteArray.mk bytes.toArray) h

theorem length_toUTF8 (s : String) : s.toUTF8.toList.length = s.utf8ByteSize := by
  rw [toList_eq, Array.length_toList]
  exact String.size_toByteArray

theorem fromUTF8?_toUTF8 (s : String) : String.fromUTF8? s.toUTF8 = some s :=
  dif_pos s.isValidUTF8

namespace Record

/-! ### Numbers -/

theorem length_lowBytes (count n : Nat) : (lowBytes count n).length = count := by
  induction count generalizing n with
  | zero => rfl
  | succ count ih => rw [lowBytes, List.length_cons, ih]

theorem ofLowBytes_lowBytes {count n : Nat} (h : n < 256 ^ count) : ofLowBytes (lowBytes count n) = n := by
  induction count generalizing n with
  | zero =>
    rw [lowBytes, ofLowBytes]
    omega
  | succ count ih =>
    have hdiv : n / 256 < 256 ^ count := by
      rw [Nat.pow_succ] at h
      omega
    have hbyte : n.toUInt8.toNat = n % 256 := UInt8.toNat_ofNat'
    rw [lowBytes, ofLowBytes, ih hdiv, hbyte]
    omega

theorem splitBytes?_append (bytes rest : List UInt8) : splitBytes? bytes.length (bytes ++ rest) = some (bytes, rest) := by
  rw [splitBytes?, if_pos (by simp), List.splitAt_eq, List.take_left, List.drop_left]

/--
Reads the bytes behind a marker, of which the width allows as many.
-/
theorem readNumber?_lowBytes {width count n : Nat} {marker : UInt8} (rest : List UInt8)
    (hmarker : (marker, count) ∈ [(251, 2), (252, 4), (253, 8)]) (hwidth : count ≤ width) (h : n < 256 ^ count)
    : readNumber? width (marker :: (lowBytes count n ++ rest)) = some (n, rest) := by
  have hsplit := splitBytes?_append (lowBytes count n) rest
  rw [length_lowBytes] at hsplit
  simp only [List.mem_cons, Prod.mk.injEq, List.not_mem_nil, or_false] at hmarker
  obtain ⟨rfl, rfl⟩ | ⟨rfl, rfl⟩ | ⟨rfl, rfl⟩ := hmarker
  all_goals
    unfold readNumber?
    simp [hwidth, guard, hsplit, ofLowBytes_lowBytes h]

/--
A number is read back, whatever width is read if it takes one byte.
-/
theorem readNumber?_numberBytes {width n : Nat} (rest : List UInt8) (hwidth : n < 251 ∨ width = 8) (h : n < 2 ^ 64)
    : readNumber? width (numberBytes n ++ rest) = some (n, rest) := by
  unfold numberBytes
  by_cases hone : n < 251
  . rw [if_pos hone]
    have hbyte : n.toUInt8.toNat = n := by
      rw [UInt8.toNat_ofNat']
      omega
    have hlt : n.toUInt8 < 251 := by
      rw [UInt8.lt_iff_toNat_lt, hbyte]
      exact hone
    unfold readNumber?
    simp [hlt, hbyte]
  . obtain hone' | rfl := hwidth
    . exact absurd hone' hone
    rw [if_neg hone]
    split
    . next htwo => exact readNumber?_lowBytes rest (by simp) (by decide) htwo
    . split
      . next hfour => exact readNumber?_lowBytes rest (by simp) (by decide) hfour
      . exact readNumber?_lowBytes rest (by simp) (by decide) h

theorem length_numberBytes_pos (n : Nat) : 0 < (numberBytes n).length := by
  unfold numberBytes
  split
  . exact Nat.zero_lt_one
  . split
    . exact Nat.succ_pos _
    . split <;> exact Nat.succ_pos _

/-! ### Texts -/

theorem size_le_textBytes (s : String) : s.utf8ByteSize ≤ (textBytes s).length := by
  rw [textBytes, List.length_append, length_toUTF8]
  omega

theorem readText?_textBytes {s : String} (rest : List UInt8) (h : s.utf8ByteSize < 2 ^ 64)
    : readText? (textBytes s ++ rest) = some (s, rest) := by
  have hsplit := splitBytes?_append s.toUTF8.toList rest
  rw [length_toUTF8] at hsplit
  unfold readText? textBytes
  rw [List.append_assoc, readNumber?_numberBytes _ (.inr rfl) h, Option.bind_eq_bind, Option.bind_some]
  dsimp only
  rw [hsplit, Option.bind_eq_bind, Option.bind_some]
  dsimp only
  rw [mk_toList, fromUTF8?_toUTF8]
  rfl

/-! ### Tags -/

theorem length_bytes_pos (stored : Stored) : 0 < stored.bytes.length := by
  have := length_numberBytes_pos stored.line
  rw [Stored.bytes, List.length_append, List.length_append]
  omega

theorem readStored?_bytes {stored : Stored} (rest : List UInt8) (h : stored.bytes.length < 2 ^ 64)
    (hline : stored.line < 2 ^ 64) : readStored? (stored.bytes ++ rest) = some (stored, rest) := by
  have hname := size_le_textBytes stored.name
  have hvalues := size_le_textBytes stored.values
  rw [Stored.bytes, List.length_append, List.length_append] at h
  unfold readStored? Stored.bytes
  rw [List.append_assoc, readText?_textBytes _ (by omega), Option.bind_eq_bind, Option.bind_some]
  dsimp only
  rw [List.append_assoc, readText?_textBytes _ (by omega), Option.bind_eq_bind, Option.bind_some]
  dsimp only
  rw [readNumber?_numberBytes _ (.inr rfl) hline]
  rfl

theorem readMany?_bytes {stored : List Stored} (h : (stored.flatMap Stored.bytes).length < 2 ^ 64)
    (hlines : ∀ tag ∈ stored, tag.line < 2 ^ 64)
    : readMany? stored.length (stored.flatMap Stored.bytes) = some stored := by
  induction stored with
  | nil => rfl
  | cons first others ih =>
    rw [List.flatMap_cons, List.length_append] at h
    rw [List.flatMap_cons, List.length_cons, readMany?,
      readStored?_bytes _ (by omega) (hlines first List.mem_cons_self), Option.bind_eq_bind, Option.bind_some]
    dsimp only
    rw [ih (by omega) fun tag htag => hlines tag (List.mem_cons_of_mem _ htag)]
    rfl

theorem length_le_flatMap_bytes (stored : List Stored) : stored.length ≤ (stored.flatMap Stored.bytes).length := by
  induction stored with
  | nil => exact Nat.le_refl 0
  | cons first others ih =>
    have := length_bytes_pos first
    rw [List.flatMap_cons, List.length_append, List.length_cons]
    omega

end Record
end VisualNovel
