import VisualNovel.Proofs.Caching.Bytes
import VisualNovel.Proofs.Parsing.Tags

/-!
This module contains that an entry holds the tags that it has been made of, or else is refused, however it has been packed.
-/

namespace VisualNovel

/--
What is read back from the text of some values are these values, if anything is.
-/
def Json.Faithful (values : Fields) : Prop :=
  ∀ value, readWhole? (compact (.object values)) = some value → value = .object values

namespace Record

theorem tag?_ofTag {tag other : Tag} (hbody : tag.HasBody) (hjson : Json.Faithful tag.values)
    (h : (Stored.ofTag tag).tag? = some other) : other = tag := by
  unfold Stored.tag? at h
  split at h
  . next fields hread =>
    cases hjson _ hread
    cases h
    exact Tag.make_of_hasBody hbody
  . cases h

/--
The tags with their values read back from text.
-/
def reread? (tags : List Tag) : Option (List Tag) :=
  (tags.map Stored.ofTag).mapM Stored.tag?

theorem eq_of_reread? {tags others : List Tag} (hbody : ∀ tag ∈ tags, tag.HasBody)
    (hjson : ∀ tag ∈ tags, Json.Faithful tag.values) (h : reread? tags = some others) : others = tags := by
  unfold reread? at h
  induction tags generalizing others with
  | nil =>
    cases h
    rfl
  | cons tag tags ih =>
    rw [List.map_cons, List.mapM_cons] at h
    cases htag : (Stored.ofTag tag).tag? with
    | none =>
      rw [htag] at h
      cases h
    | some first =>
      cases htags : (tags.map Stored.ofTag).mapM Stored.tag? with
      | none =>
        rw [htag, htags] at h
        cases h
      | some rest =>
        rw [htag, htags] at h
        cases h
        rw [tag?_ofTag (hbody tag List.mem_cons_self) (hjson tag List.mem_cons_self) htag,
          ih (fun tag h => hbody tag (List.mem_cons_of_mem _ h)) (fun tag h => hjson tag (List.mem_cons_of_mem _ h)) htags]

/--
An entry is refused, or it holds the tags that it has been made of, with their values read back from text.
-/
theorem reread?_of_decode {packing : Packing} {tags others : List Tag} (hlines : ∀ tag ∈ tags, tag.line < 2 ^ 64)
    (h : decode (encode packing tags) = .ok others) : reread? tags = some others := by
  unfold decode encode at h
  cases hunpack : Block.unpack? (packing.pack (bytes tags)) with
  | none =>
    rw [hunpack] at h
    cases h
  | some unpacked =>
    cases packing.eq_of_unpack? hunpack
    -- the entry is as short as its block says, so its numbers are read back
    have hsize := Block.length_lt_of_unpack? hunpack
    have hstored : (tags.flatMap fun tag => (Stored.ofTag tag).bytes) = (tags.map Stored.ofTag).flatMap Stored.bytes := by
      rw [List.flatMap_map]
    rw [bytes, hstored, List.length_append, List.length_append] at hsize
    have hcount := length_le_flatMap_bytes (tags.map Stored.ofTag)
    rw [List.length_map] at hcount
    have hstoredLines : ∀ stored ∈ tags.map Stored.ofTag, stored.line < 2 ^ 64 := by
      intro stored hmem
      obtain ⟨tag, htag, rfl⟩ := List.mem_map.1 hmem
      exact hlines tag htag
    have hread := readMany?_bytes (by omega) hstoredLines
    rw [List.length_map] at hread
    rw [hunpack] at h
    dsimp only at h
    rw [bytes, hstored, readNumber?_numberBytes _ (.inl (by decide)) (by decide)] at h
    dsimp only at h
    rw [readNumber?_numberBytes _ (.inr rfl) (by omega)] at h
    dsimp only at h
    rw [hread] at h
    dsimp only at h
    rw [if_neg (not_not_intro rfl)] at h
    cases hmap : (tags.map Stored.ofTag).mapM Stored.tag? with
    | none =>
      rw [hmap] at h
      cases h
    | some decoded =>
      rw [hmap] at h
      cases h
      exact hmap

/--
An entry is refused, or it holds the tags that it has been made of.
-/
theorem decode_encode {packing : Packing} {tags others : List Tag} (hlines : ∀ tag ∈ tags, tag.line < 2 ^ 64)
    (hbody : ∀ tag ∈ tags, tag.HasBody) (hjson : ∀ tag ∈ tags, Json.Faithful tag.values)
    (h : decode (encode packing tags) = .ok others) : others = tags :=
  eq_of_reread? hbody hjson (reread?_of_decode hlines h)

end Record
end VisualNovel
