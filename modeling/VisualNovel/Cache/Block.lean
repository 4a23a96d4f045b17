/-!
This module contains LZ4 blocks: runs of literal bytes, each but the last one followed by a copy of bytes that
came before. How bytes are cut into runs and copies is left open, as long as a block gives back what it has been
made of.
-/

namespace VisualNovel
namespace Block

/--
Adds up the bytes that extend a length. The last one of them is not 255.
-/
def readLength (n : Nat) : List UInt8 → Option (Nat × List UInt8)
  | [] => none
  | b :: bytes => if b = 255 then readLength (n + 255) bytes else some (n + b.toNat, bytes)

theorem length_readLength_lt {n m : Nat} {bytes rest : List UInt8} (h : readLength n bytes = some (m, rest))
    : rest.length < bytes.length := by
  induction bytes generalizing n with
  | nil => simp [readLength] at h
  | cons b bytes ih =>
    simp only [readLength] at h
    split at h
    . have := ih h
      simp
      omega
    . simp at h
      simp [h]

/--
Reads a length of which the token holds four bits, if these are all set with more bytes.
-/
def readNibble (nibble : Nat) (bytes : List UInt8) : Option (Nat × List UInt8) :=
  if nibble = 15 then readLength 15 bytes else some (nibble, bytes)

theorem length_readNibble_le {nibble m : Nat} {bytes rest : List UInt8} (h : readNibble nibble bytes = some (m, rest))
    : rest.length ≤ bytes.length := by
  unfold readNibble at h
  split at h
  . exact Nat.le_of_lt (length_readLength_lt h)
  . simp at h
    simp [h]

/--
Repeats the bytes from `offset` before the end on. They may overlap with their copy.
-/
def copy (offset : Nat) (out : Array UInt8) : Nat → Array UInt8
  | 0 => out
  | count + 1 => copy offset (out.push (out.getD (out.size - offset) 0)) count

/--
Decodes a block to at most `size` bytes.
-/
def decode (size : Nat) (out : Array UInt8) (bytes : List UInt8) : Option (Array UInt8) :=
  match bytes with
  | [] => none
  | token :: afterToken =>
    match _hl : readNibble (token.toNat / 16) afterToken with
    | none => none
    | some (literals, afterLength) =>
      if afterLength.length < literals || size < out.size + literals then
        none
      else
        let out := out ++ afterLength.take literals
        match _ho : afterLength.drop literals with
        | [] => some out
        | [_] => none
        | low :: high :: afterOffset =>
          let offset := low.toNat + 256 * high.toNat
          match _hm : readNibble (token.toNat % 16) afterOffset with
          | none => none
          | some (length, rest) =>
            let length := length + 4
            if offset = 0 || out.size < offset || size < out.size + length then
              none
            else
              decode size (copy offset out length) rest
termination_by bytes.length
decreasing_by
  have h₁ := length_readNibble_le _hl
  have h₂ := length_readNibble_le _hm
  have h₃ := congrArg List.length _ho
  simp at h₃ ⊢
  omega

/--
Decodes a block behind its decoded size. It may hold fewer bytes than it says, but not more.
-/
def unpack? : List UInt8 → Option (List UInt8)
  | a :: b :: c :: d :: block =>
    let size := a.toNat + 256 * b.toNat + 65536 * c.toNat + 16777216 * d.toNat
    (decode size #[] block).map Array.toList
  | _ => none

theorem size_decode_le {size : Nat} {out unpacked : Array UInt8} {bytes : List UInt8}
    (h : decode size out bytes = some unpacked) : unpacked.size ≤ size := by
  fun_induction decode size out bytes with
  | case4 out token afterToken literals afterLength _ hfits out' hrest =>
    simp only [Bool.or_eq_true, decide_eq_true_eq, not_or, Nat.not_lt] at hfits
    have htake := List.length_take_le literals afterLength
    rw [← Option.some.inj h, ← Array.length_toList, Array.toList_appendList, List.length_append, Array.length_toList]
    omega
  | case8 _ _ _ _ _ _ _ _ _ _ _ _ _ _ _ _ _ _ ih => exact ih h
  | _ => cases h

/--
What is unpacked is no longer than four bytes can tell.
-/
theorem length_lt_of_unpack? {block bytes : List UInt8} (h : unpack? block = some bytes) : bytes.length < 4294967296 := by
  unfold unpack? at h
  split at h
  . next a b c d _ =>
    obtain ⟨unpacked, hdecode, rfl⟩ := Option.map_eq_some_iff.1 h
    have := size_decode_le hdecode
    have := a.toNat_lt
    have := b.toNat_lt
    have := c.toNat_lt
    have := d.toNat_lt
    rw [Array.length_toList]
    omega
  . cases h

/-! ### Blocks without copies -/

/--
The bytes that extend a length of 15.
-/
def lengthBytes (n : Nat) : List UInt8 :=
  if n < 255 then [n.toUInt8] else 255 :: lengthBytes (n - 255)

/--
A block of one run of literals.
-/
def literal (bytes : List UInt8) : List UInt8 :=
  if bytes.length < 15 then
    (16 * bytes.length).toUInt8 :: bytes
  else
    0xf0 :: lengthBytes (bytes.length - 15) ++ bytes

def sizeBytes (n : Nat) : List UInt8 :=
  [n.toUInt8, (n / 256).toUInt8, (n / 65536).toUInt8, (n / 16777216).toUInt8]

theorem readLength_lengthBytes (n m : Nat) (bytes : List UInt8)
    : readLength n (lengthBytes m ++ bytes) = some (n + m, bytes) := by
  fun_induction lengthBytes m generalizing n with
  | case1 m hm =>
    have hbyte : m.toUInt8.toNat = m := by
      rw [UInt8.toNat_ofNat']
      omega
    have hne : m.toUInt8 ≠ 255 := by
      intro heq
      rw [heq] at hbyte
      have : (255 : UInt8).toNat = 255 := rfl
      omega
    rw [List.singleton_append, readLength, if_neg hne, hbyte]
  | case2 m hm ih =>
    rw [List.cons_append, readLength, if_pos rfl, ih]
    have : n + 255 + (m - 255) = n + m := by omega
    rw [this]

/--
A block that ends with its first run of literals.
-/
theorem decode_last {size : Nat} {out : Array UInt8} {token : UInt8} {block bytes : List UInt8}
    (h : readNibble (token.toNat / 16) block = some (bytes.length, bytes))
    : decode size out (token :: block) = if size < out.size + bytes.length then none else some (out ++ bytes) := by
  rw [decode]
  split
  . next hnone =>
    rw [h] at hnone
    cases hnone
  . next literals afterLength hsome =>
    rw [h] at hsome
    cases hsome
    simp only [Nat.lt_irrefl, decide_false, Bool.false_or, decide_eq_true_eq]
    split
    . rfl
    . split
      . simp
      . next hrest => simp at hrest
      . next hrest => simp at hrest

theorem decode_literal (size : Nat) (bytes : List UInt8)
    : (decode size #[] (literal bytes)).map Array.toList = if size < bytes.length then none else some bytes := by
  have hlast {token : UInt8} {block : List UInt8}
      (h : readNibble (token.toNat / 16) block = some (bytes.length, bytes))
      : (decode size #[] (token :: block)).map Array.toList = if size < bytes.length then none else some bytes := by
    rw [decode_last h]
    have : (#[] : Array UInt8).size + bytes.length = bytes.length := Nat.zero_add _
    rw [this]
    split
    . rfl
    . simp
  unfold literal
  split
  . next hshort =>
    apply hlast
    have htoken : (16 * bytes.length).toUInt8.toNat / 16 = bytes.length := by
      rw [UInt8.toNat_ofNat']
      omega
    rw [htoken, readNibble, if_neg (by omega)]
  . next hlong =>
    rw [List.cons_append]
    apply hlast
    have : 15 + (bytes.length - 15) = bytes.length := by omega
    rw [show (0xf0 : UInt8).toNat / 16 = 15 from rfl, readNibble, if_pos rfl, readLength_lengthBytes, this]

/--
Four bytes tell the size of what is unpacked. A longer text is not unpacked at all.
-/
theorem unpack?_literal (bytes : List UInt8)
    : unpack? (sizeBytes bytes.length ++ literal bytes) = if bytes.length < 4294967296 then some bytes else none := by
  have hbyte (n : Nat) : n.toUInt8.toNat = n % 256 := UInt8.toNat_ofNat'
  have hsize : bytes.length.toUInt8.toNat + 256 * (bytes.length / 256).toUInt8.toNat
      + 65536 * (bytes.length / 65536).toUInt8.toNat + 16777216 * (bytes.length / 16777216).toUInt8.toNat
      = bytes.length % 4294967296 := by
    rw [hbyte, hbyte, hbyte, hbyte]
    omega
  unfold sizeBytes
  simp only [List.cons_append, List.nil_append, unpack?]
  rw [hsize, decode_literal]
  by_cases h : bytes.length < 4294967296
  . rw [if_pos h, if_neg (by omega)]
  . rw [if_neg h, if_pos (by omega)]

end Block

/--
A way to pack bytes into a block behind its decoded size. Whatever the block is like, it is unpacked to the bytes
that have been packed, or not at all.
-/
structure Packing where
  pack : List UInt8 → List UInt8
  eq_of_unpack? : ∀ {bytes unpacked}, Block.unpack? (pack bytes) = some unpacked → unpacked = bytes

namespace Packing

/--
The packing that looks for no copies.
-/
def literal : Packing where
  pack bytes := Block.sizeBytes bytes.length ++ Block.literal bytes
  eq_of_unpack? h := by
    rw [Block.unpack?_literal] at h
    split at h
    . exact (Option.some.inj h).symm
    . cases h

end Packing
end VisualNovel
