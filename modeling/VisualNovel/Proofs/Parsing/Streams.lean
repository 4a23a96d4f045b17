import VisualNovel.Proofs.Parsing.Tags

/-!
This module contains that what is parsed is a stream of tags for the cursors: the lines of the tags never go back, and the
stop tag ends the stream on the last line.
-/

namespace VisualNovel

theorem SourceLine.pairwise_enumerate (first : Nat) (texts : List (List Char))
    : (enumerate first texts).Pairwise (·.number < ·.number) := by
  apply List.pairwise_iff_getElem.2
  intro i j hi hj hlt
  rw [number_of_getElem? (List.getElem?_eq_getElem hi), number_of_getElem? (List.getElem?_eq_getElem hj)]
  omega

namespace Grammar

/--
What the readers of a script with this many lines rely on.
-/
structure IsStream (lines : Nat) (tags : List Tag) : Prop where
  stopped : tags.getLast? = some (.stop lines)
  ordered : tags.Pairwise (·.line ≤ ·.line)
  placed : ∀ tag ∈ tags, 1 ≤ tag.line ∧ tag.line ≤ lines
  made : ∀ tag ∈ tags, tag.WellMade

/--
Constructs stand one behind the other, and all tags of a construct are on its first line.
-/
theorem Answers.ordered {grammar : Grammar} {marks : Nat} {lines : List SourceLine} {tags : List Tag}
    (h : Answers grammar marks lines (.ok tags)) (hlines : lines.Pairwise (·.number < ·.number))
    : tags.Pairwise (·.line ≤ ·.line) := by
  generalize hok : Except.ok tags = answer at h
  induction h generalizing tags with
  | nil marks =>
    cases hok
    exact .nil
  | error h => cases hok
  | @construct marks first following portion answer h hrest ih =>
    cases answer with
    | error e => cases hok
    | ok behind =>
      cases hok
      obtain ⟨inner, rfl, _⟩ := Form.read_local h
      obtain ⟨hfirst, hfollowing⟩ := List.pairwise_cons.1 hlines
      have hline := Form.read_line h
      refine List.pairwise_append.2 ⟨?_, ih (List.pairwise_append.1 hfollowing).2.1 rfl, ?_⟩
      . apply List.pairwise_of_forall_mem_list
        intro tag htag other hother
        rw [hline tag htag, hline other hother]
      . intro tag htag other hother
        obtain ⟨_, l, hl, hother⟩ := hrest.tags other hother
        rw [hline tag htag, hother]
        exact Nat.le_of_lt (hfirst l (List.mem_append_right _ hl))

/--
What is parsed from a source in either grammar is a stream of tags, on as many lines as the source has.
-/
theorem isStream_of_parse {grammar : Grammar} {source : String} {tags : List Tag} (h : grammar.parse source = .ok tags)
    : IsStream (source.toList.count '\n' + 1) tags := by
  have htags := wellMade_of_parse h
  obtain ⟨constructs, hanswers, rfl⟩ := exists_constructs h
  rw [← lineCount_eq]
  refine ⟨List.getLast?_concat, ?_, fun tag htag => (htags tag htag).2, fun tag htag => (htags tag htag).1⟩
  refine List.pairwise_append.2 ⟨hanswers.ordered (SourceLine.pairwise_enumerate ..), List.pairwise_singleton .., ?_⟩
  intro tag htag stop hstop
  rw [List.mem_singleton.1 hstop]
  exact (htags tag (List.mem_append_left _ htag)).2.2

theorem isStream_sampleStart : IsStream 4 sampleTags :=
  isStream_of_parse parse_sampleStart

end Grammar
end VisualNovel
