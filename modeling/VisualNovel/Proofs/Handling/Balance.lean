import VisualNovel.Proofs.Scanning

/-!
This module contains what the scans over tags look for, said by counting. A block that the tags stand in ends among them if
along them more blocks are closed than opened.
-/

namespace VisualNovel
namespace Play

/--
Up to some place in the tags, more than `depth` blocks have been closed that have not been opened there.
-/
def Closes (opening closing : Directive) (depth : Nat) (tags : List Tag) : Prop :=
  ∃ part, part <+: tags ∧
    part.countP (·.directive? = some opening) + depth < part.countP (·.directive? = some closing)

namespace Closes

variable {opening closing : Directive} {depth : Nat} {tag : Tag} {tags others : List Tag}

theorem mono (h : Closes opening closing depth tags) (hlonger : tags <+: others)
    : Closes opening closing depth others := by
  obtain ⟨part, hpart, hcount⟩ := h
  exact ⟨part, hpart.trans hlonger, hcount⟩

@[simp]
theorem not_nil : ¬ Closes opening closing depth [] := by
  rintro ⟨part, hpart, hcount⟩
  rw [List.prefix_nil.1 hpart] at hcount
  exact Nat.not_lt_zero _ hcount

theorem cons_iff
    : Closes opening closing depth (tag :: tags)
        ↔
      ∃ part, part <+: tags ∧ (tag :: part).countP (·.directive? = some opening) + depth
        < (tag :: part).countP (·.directive? = some closing) := by
  constructor
  . rintro ⟨part, hpart, hcount⟩
    obtain rfl | ⟨rest, rfl, hrest⟩ := List.prefix_cons_iff.1 hpart
    . exact absurd hcount (Nat.not_lt_zero _)
    . exact ⟨rest, hrest, hcount⟩
  . rintro ⟨part, hpart, hcount⟩
    exact ⟨tag :: part, List.cons_prefix_cons.2 ⟨rfl, hpart⟩, hcount⟩

theorem cons_opening (h : tag.directive? = some opening) (hne : opening ≠ closing)
    : Closes opening closing depth (tag :: tags) ↔ Closes opening closing (depth + 1) tags := by
  rw [cons_iff]
  simp [Closes, h, hne, Nat.add_right_comm, Nat.add_assoc]

theorem cons_closing (h : tag.directive? = some closing) (hne : opening ≠ closing)
    : Closes opening closing (depth + 1) (tag :: tags) ↔ Closes opening closing depth tags := by
  rw [cons_iff]
  simp [Closes, h, hne.symm, ← Nat.add_assoc]

theorem cons_last_closing (h : tag.directive? = some closing) (hne : opening ≠ closing)
    : Closes opening closing 0 (tag :: tags) := by
  rw [cons_iff]
  exact ⟨[], List.nil_prefix, by simp [h, hne.symm]⟩

theorem cons_neutral (hopening : tag.directive? ≠ some opening) (hclosing : tag.directive? ≠ some closing)
    : Closes opening closing depth (tag :: tags) ↔ Closes opening closing depth tags := by
  rw [cons_iff]
  simp [Closes, hopening, hclosing]

end Closes

/-! ### The end of a conditional -/

theorem countToEndIf_eq_none_iff {nested : Nat} {tags : List Tag}
    : countToEndIf nested tags = none ↔ ¬ Closes .ifThen .endIf nested tags := by
  have hne : Directive.ifThen ≠ .endIf := by decide
  fun_induction countToEndIf nested tags with
  | case1 => simp
  | case2 nested tag tags h ih =>
    rw [Closes.cons_opening h hne, Option.map_eq_none_iff]
    exact ih
  | case3 tag tags h => simp [Closes.cons_last_closing h hne]
  | case4 tag tags nested h ih =>
    rw [Closes.cons_closing h hne, Option.map_eq_none_iff]
    exact ih
  | case5 nested tag tags hif hlast hend ih =>
    have hclosing : tag.directive? ≠ some .endIf := by
      intro h
      cases nested with
      | zero => exact hlast h rfl
      | succ nested => exact hend nested h rfl
    rw [Closes.cons_neutral hif hclosing, Option.map_eq_none_iff]
    exact ih

/-! ### The end of a loop -/

theorem scanLoop_eq_none_iff {loops ifs closed count : Nat} {tags : List Tag}
    : scanLoop loops ifs closed count tags = none ↔ ¬ Closes .forLoop .endFor loops tags := by
  have hne : Directive.forLoop ≠ .endFor := by decide
  fun_induction scanLoop loops ifs closed count tags with
  | case1 => simp
  | case2 loops ifs closed count tag tags h ih =>
    rw [Closes.cons_opening h hne]
    exact ih
  | case3 ifs closed count tag tags h => simp [Closes.cons_last_closing h hne]
  | case4 ifs closed count tag tags h loops ih =>
    rw [Closes.cons_closing h hne]
    exact ih
  | case5 loops ifs closed count tag tags h ih =>
    rw [Closes.cons_neutral (by simp [h]) (by simp [h])]
    exact ih
  | case6 loops closed count tag tags h ih =>
    rw [Closes.cons_neutral (by simp [h]) (by simp [h])]
    exact ih
  | case7 loops closed count tag tags h ifs ih =>
    rw [Closes.cons_neutral (by simp [h]) (by simp [h])]
    exact ih
  | case8 loops ifs closed count tag tags hfor hendfor hif hend ih =>
    rw [Closes.cons_neutral hfor hendfor]
    exact ih

theorem closed_le_of_scanLoop {loops ifs closed count : Nat} {tags : List Tag} {scan : LoopScan}
    (h : scanLoop loops ifs closed count tags = some scan) : closed ≤ scan.closed := by
  fun_induction scanLoop loops ifs closed count tags with
  | case1 => cases h
  | case3 =>
    cases h
    exact Nat.le_refl _
  | case6 loops closed count tag tags _ ih => exact Nat.le_of_succ_le (ih h)
  | _ =>
    next ih =>
    exact ih h

/--
The body of a loop goes up to the first place where the loop is closed. Beside `closed` conditionals, those have ended there
that are closed in the body and not opened.
-/
structure Body (loops ifs closed total : Nat) (tags body : List Tag) : Prop where
  ends : ∃ tail rest, tags = body ++ tail :: rest ∧ Closes .forLoop .endFor loops (body ++ [tail])
  inside : ¬ Closes .forLoop .endFor loops body
  ifs : ∀ depth, closed + depth < total ↔ Closes .ifThen .endIf (ifs + depth) body

theorem Body.cons {loops ifs closed others ifs' closed' total : Nat} {tag : Tag} {tags body : List Tag}
    (h : Body others ifs' closed' total tags body)
    (hloops : ∀ part, Closes .forLoop .endFor loops (tag :: part) ↔ Closes .forLoop .endFor others part)
    (hifs : ∀ depth, closed + depth < total ↔ Closes .ifThen .endIf (ifs + depth) (tag :: body))
    : Body loops ifs closed total (tag :: tags) (tag :: body) where
  ends := by
    obtain ⟨tail, rest, rfl, hends⟩ := h.ends
    exact ⟨tail, rest, rfl, (hloops _).2 hends⟩
  inside hcloses := h.inside ((hloops body).1 hcloses)
  ifs := hifs

theorem exists_body_of_scanLoop {loops ifs closed count : Nat} {tags : List Tag} {scan : LoopScan}
    (h : scanLoop loops ifs closed count tags = some scan) : ∃ body, Body loops ifs closed scan.closed tags body := by
  have hfor : Directive.forLoop ≠ .endFor := by decide
  have hif : Directive.ifThen ≠ .endIf := by decide
  fun_induction scanLoop loops ifs closed count tags with
  | case1 => cases h
  | case2 loops ifs closed count tag tags htag ih =>
    obtain ⟨body, hbody⟩ := ih h
    refine ⟨tag :: body, hbody.cons (fun _ => Closes.cons_opening htag hfor) fun depth => ?_⟩
    rw [Closes.cons_neutral (by simp [htag]) (by simp [htag])]
    exact hbody.ifs depth
  | case3 ifs closed count tag tags htag =>
    cases h
    exact ⟨[], ⟨tag, tags, rfl, Closes.cons_last_closing htag hfor⟩, Closes.not_nil, fun depth => by simp⟩
  | case4 ifs closed count tag tags htag loops ih =>
    obtain ⟨body, hbody⟩ := ih h
    refine ⟨tag :: body, hbody.cons (fun _ => Closes.cons_closing htag hfor) fun depth => ?_⟩
    rw [Closes.cons_neutral (by simp [htag]) (by simp [htag])]
    exact hbody.ifs depth
  | case5 loops ifs closed count tag tags htag ih =>
    obtain ⟨body, hbody⟩ := ih h
    refine ⟨tag :: body, hbody.cons (fun _ => Closes.cons_neutral (by simp [htag]) (by simp [htag])) fun depth => ?_⟩
    rw [Closes.cons_opening htag hif, Nat.add_right_comm]
    exact hbody.ifs depth
  | case6 loops closed count tag tags htag ih =>
    obtain ⟨body, hbody⟩ := ih h
    refine ⟨tag :: body, hbody.cons (fun _ => Closes.cons_neutral (by simp [htag]) (by simp [htag])) fun depth => ?_⟩
    cases depth with
    | zero => exact iff_of_true (closed_le_of_scanLoop h) (Closes.cons_last_closing htag hif)
    | succ depth =>
      rw [← Nat.add_assoc 0, Closes.cons_closing htag hif, ← hbody.ifs depth, Nat.add_right_comm closed, Nat.add_assoc]
  | case7 loops closed count tag tags htag ifs ih =>
    obtain ⟨body, hbody⟩ := ih h
    refine ⟨tag :: body, hbody.cons (fun _ => Closes.cons_neutral (by simp [htag]) (by simp [htag])) fun depth => ?_⟩
    rw [Nat.succ_add, Closes.cons_closing htag hif]
    exact hbody.ifs depth
  | case8 loops ifs closed count tag tags hneFor hneEndFor hneIf hneEndIf ih =>
    obtain ⟨body, hbody⟩ := ih h
    refine ⟨tag :: body, hbody.cons (fun _ => Closes.cons_neutral hneFor hneEndFor) fun depth => ?_⟩
    rw [Closes.cons_neutral hneIf hneEndIf]
    exact hbody.ifs depth

theorem closes_of_scanLoop {loops ifs closed count : Nat} {tags : List Tag} {scan : LoopScan}
    (h : scanLoop loops ifs closed count tags = some scan) : Closes .forLoop .endFor loops tags := by
  obtain ⟨body, hbody⟩ := exists_body_of_scanLoop h
  obtain ⟨tail, rest, rfl, hends⟩ := hbody.ends
  exact hends.mono ⟨rest, by simp⟩

/--
A loop whose body closes more than `depth` conditionals from outside does so before its end.
-/
theorem lt_closed_iff {tags : List Tag} {scan : LoopScan} (h : scanLoop 0 0 0 0 tags = some scan) (depth : Nat)
    : depth < scan.closed
        ↔
      ∃ part, part <+: tags ∧ ¬ Closes .forLoop .endFor 0 part ∧ Closes .ifThen .endIf depth part := by
  obtain ⟨body, hbody⟩ := exists_body_of_scanLoop h
  obtain ⟨tail, rest, rfl, hends⟩ := hbody.ends
  have hifs := hbody.ifs depth
  rw [Nat.zero_add] at hifs
  rw [hifs]
  constructor
  . intro hcloses
    exact ⟨body, List.prefix_append body _, hbody.inside, hcloses⟩
  . rintro ⟨part, hpart, hinside, hcloses⟩
    -- a part that goes beyond the body holds the end of the loop
    have hwhole : body ++ [tail] <+: body ++ tail :: rest := ⟨rest, by simp⟩
    obtain hlonger | hshorter := List.prefix_or_prefix_of_prefix hwhole hpart
    . exact absurd (hends.mono hlonger) hinside
    . obtain heq | hwithin := List.prefix_concat_iff.1 hshorter
      . rw [heq] at hinside
        exact absurd hends hinside
      . exact hcloses.mono hwithin

end Play
end VisualNovel
