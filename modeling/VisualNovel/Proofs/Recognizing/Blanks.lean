import VisualNovel.Text.Blank

/-!
This module contains the blanks around a text: a text is its trimmed form with blanks at both ends, and it is trimmed
already if it neither starts nor ends with one.
-/

namespace VisualNovel
namespace Text

/-
Note: What holds of all letters of a text is decided letter by letter. Without these instances it could be decided by
the one for finite types, that goes through all letters there are.
-/
instance (priority := 2000) decidableForallMem {p : Char → Prop} [DecidablePred p] (text : List Char)
    : Decidable (∀ c ∈ text, p c) :=
  List.decidableBAll p text

instance (priority := 2000) decidableForallMemEnd {p : Char → Prop} [DecidablePred p] (c? : Option Char)
    : Decidable (∀ c ∈ c?, p c) :=
  Option.decidableForallMem c?

/--
Two letters are different if only one of them belongs to a class of letters.
-/
theorem ne_of_holds {p : Char → Bool} {c d : Char} (hc : p c) (hd : p d = false) : c ≠ d := by
  rintro rfl
  rw [hc] at hd
  cases hd

section Span

variable {p : Char → Bool} {word rest : List Char} (hword : ∀ c ∈ word, p c) (hrest : ∀ c ∈ rest.head?, p c = false)

include hrest

theorem dropWhile_of_head : rest.dropWhile p = rest := by
  cases rest with
  | nil => rfl
  | cons c rest =>
    have hc := hrest c rfl
    exact List.dropWhile_cons_of_neg (by simp [hc])

theorem takeWhile_of_head : rest.takeWhile p = [] := by
  cases rest with
  | nil => rfl
  | cons c rest =>
    have hc := hrest c rfl
    exact List.takeWhile_cons_of_neg (by simp [hc])

include hword

theorem dropWhile_append_of_head : (word ++ rest).dropWhile p = rest := by
  rw [List.dropWhile_append_of_pos hword, dropWhile_of_head hrest]

theorem takeWhile_append_of_head : (word ++ rest).takeWhile p = word := by
  rw [List.takeWhile_append_of_pos hword, takeWhile_of_head hrest, List.append_nil]

end Span

section Behind

variable {p : Char → Bool} {text : List Char}

theorem dropWhile_append_of_ne_nil (h : text.dropWhile p ≠ []) (more : List Char)
    : (text ++ more).dropWhile p = text.dropWhile p ++ more := by
  rw [List.dropWhile_append, if_neg (by simpa using h)]

theorem takeWhile_append_of_ne_nil (h : text.dropWhile p ≠ []) (more : List Char)
    : (text ++ more).takeWhile p = text.takeWhile p := by
  have hwhole := List.takeWhile_append_dropWhile (p := p) (l := text ++ more)
  rw [dropWhile_append_of_ne_nil h, ← List.append_assoc] at hwhole
  conv at hwhole => rhs; rw [← List.takeWhile_append_dropWhile (p := p) (l := text)]
  exact List.append_cancel_right (List.append_cancel_right hwhole)

theorem trimStart_append_of_eq_cons {c : Char} {rest : List Char} (h : trimStart text = c :: rest) (more : List Char)
    : trimStart (text ++ more) = c :: (rest ++ more) := by
  have hne : text.dropWhile isBlank ≠ [] := by
    rw [← trimStart, h]
    nofun
  rw [trimStart, dropWhile_append_of_ne_nil hne, ← trimStart, h]
  rfl

theorem trimStart_append_of_blanks {blanks : List Char} (hblanks : ∀ c ∈ blanks, isBlank c)
    (htext : ∀ c ∈ text.head?, isBlank c = false) : trimStart (blanks ++ text) = text :=
  dropWhile_append_of_head hblanks htext

theorem eq_false_of_head_dropWhile {c : Char} (h : c ∈ (text.dropWhile p).head?) : p c = false := by
  have hhead := List.head?_dropWhile_not p text
  rw [Option.mem_def.1 h] at hhead
  simpa using hhead

end Behind

theorem exists_trim (text : List Char)
    : ∃ before behind, text = before ++ (trim text ++ behind) ∧ (∀ c ∈ before, isBlank c) ∧ ∀ c ∈ behind, isBlank c := by
  refine ⟨text.takeWhile isBlank, ((trimStart text).reverse.takeWhile isBlank).reverse, ?_,
    List.all_eq_true.1 List.all_takeWhile, fun c hc => ?_⟩
  . rw [trim, trimEnd, ← List.reverse_append, List.takeWhile_append_dropWhile, List.reverse_reverse, trimStart,
      List.takeWhile_append_dropWhile]
  . exact List.all_eq_true.1 List.all_takeWhile c (List.mem_reverse.1 hc)

section Ends

variable {text : List Char} {c : Char}

theorem not_blank_of_head_trim (h : c ∈ (trim text).head?) : isBlank c = false := by
  obtain ⟨rest, hrest⟩ : ∃ rest, trim text = c :: rest := by
    cases htrim : trim text with
    | nil =>
      rw [htrim] at h
      cases h
    | cons d rest =>
      rw [htrim] at h
      cases h
      exact ⟨rest, rfl⟩
  have hstart := List.takeWhile_append_dropWhile (p := isBlank) (l := (trimStart text).reverse)
  have hreverse := congrArg List.reverse hstart
  rw [List.reverse_append, List.reverse_reverse] at hreverse
  change trim text ++ _ = _ at hreverse
  rw [hrest] at hreverse
  have hhead : c ∈ (trimStart text).head? := by
    rw [← hreverse]
    rfl
  exact eq_false_of_head_dropWhile hhead

theorem not_blank_of_last_trim (h : c ∈ (trim text).getLast?) : isBlank c = false := by
  rw [trim, trimEnd, List.getLast?_reverse] at h
  exact eq_false_of_head_dropWhile h

end Ends

theorem trim_of_margins {before text behind : List Char} (hbefore : ∀ c ∈ before, isBlank c)
    (hbehind : ∀ c ∈ behind, isBlank c) (hhead : ∀ c ∈ text.head?, isBlank c = false)
    (hlast : ∀ c ∈ text.getLast?, isBlank c = false) : trim (before ++ (text ++ behind)) = text := by
  rw [trim, trimStart, trimEnd, List.dropWhile_append_of_pos hbefore]
  cases text with
  | nil =>
    rw [List.nil_append, ← List.append_nil behind, List.dropWhile_append_of_pos hbehind]
    rfl
  | cons c text =>
    have hreverse : ∀ d ∈ behind.reverse, isBlank d := fun d hd => hbehind d (List.mem_reverse.1 hd)
    have hstart : ∀ d ∈ (c :: text ++ behind).head?, isBlank d = false := hhead
    rw [dropWhile_of_head hstart, List.reverse_append, List.dropWhile_append_of_pos hreverse,
      dropWhile_of_head (by rwa [List.head?_reverse]), List.reverse_reverse]

end Text
end VisualNovel
