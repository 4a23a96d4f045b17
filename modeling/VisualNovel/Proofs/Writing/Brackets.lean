import VisualNovel.Proofs.Literal
import VisualNovel.Proofs.Parsing.Relocation
import VisualNovel.Proofs.Recognizing.Blanks
import VisualNovel.Proofs.Recognizing.Readings

/-!
This module contains what each reader of the bracket grammar reads, and that text and commands are read alike with other
text behind them.
-/

namespace VisualNovel
namespace Grammar
namespace Bracket

/-! ### Characters -/

/--
The characters of values without quotes.
-/
def isRawPart (c : Char) : Bool :=
  !Text.isBlank c && c != ']'

theorem not_blank_of_isRawPart {c : Char} (h : isRawPart c) : Text.isBlank c = false := by
  rw [isRawPart, Bool.and_eq_true, Bool.not_eq_true'] at h
  exact h.1

/--
A name of a command or of an attribute.
-/
structure IsWord (word : List Char) : Prop where
  ne_nil : word ≠ []
  parts : ∀ c ∈ word, isWordPart c

theorem isWordPart_of_isBlank {c : Char} (h : Text.isBlank c) : isWordPart c = false := by
  rw [isWordPart, h]
  rfl

theorem isRawPart_of_isBlank {c : Char} (h : Text.isBlank c) : isRawPart c = false := by
  rw [isRawPart, h]
  rfl

theorem not_blank_of_isWordPart {c : Char} (h : isWordPart c) : Text.isBlank c = false := by
  rw [Bool.eq_false_iff]
  intro hblank
  rw [isWordPart_of_isBlank hblank] at h
  cases h

theorem IsWord.exists_cons {word : List Char} (h : IsWord word) : ∃ c more, word = c :: more ∧ isWordPart c := by
  obtain ⟨c, more, rfl⟩ := List.exists_cons_of_ne_nil h.ne_nil
  exact ⟨c, more, rfl, h.parts c List.mem_cons_self⟩

/-! ### Readers -/

/--
The reader reads this value, up to the rest.
-/
def Takes {α : Type} {cs : List Char} (read : Except ParseFault (Taken cs α)) (value : α) (rest : List Char) : Prop :=
  ∃ shorter, read = .ok { value, rest, shorter }

section Takes

variable {cs rest : List Char} {α : Type} {read : Except ParseFault (Taken cs α)} {a b : α}

theorem Takes.unique (h : Takes read a rest) {rest' : List Char} (h' : Takes read b rest') : a = b ∧ rest = rest' := by
  obtain ⟨_, h⟩ := h
  obtain ⟨_, h'⟩ := h'
  rw [h] at h'
  cases h'
  exact ⟨rfl, rfl⟩

theorem Takes.ne_nil (h : Takes read a rest) : cs ≠ [] :=
  List.ne_nil_of_length_pos (Nat.zero_lt_of_lt h.1)

end Takes

section Quoted

variable {quote : Char} {cs text rest : List Char}

theorem readQuoted_of_ne {c : Char} (hslash : c ≠ '\\') (cs : List Char)
    : readQuoted quote (c :: cs)
        =
      if c = quote then .ok (.first [])
      else do
        let t ← readQuoted quote cs
        return (t.map (c :: ·)).behind :=
  readQuoted.eq_4 quote c cs (fun h _ => hslash h) (fun _ _ h _ => hslash h)

theorem takes_quote (hquote : quote ≠ '\\') (rest : List Char) : Takes (readQuoted quote (quote :: rest)) [] rest := by
  rw [Takes, readQuoted_of_ne hquote, if_pos rfl]
  exact ⟨_, rfl⟩

theorem Takes.char {c : Char} (hquote : c ≠ quote) (hslash : c ≠ '\\') (h : Takes (readQuoted quote cs) text rest)
    : Takes (readQuoted quote (c :: cs)) (c :: text) rest := by
  obtain ⟨_, h⟩ := h
  rw [Takes, readQuoted_of_ne hslash, if_neg hquote, h]
  exact ⟨_, rfl⟩

theorem Takes.escape (c : Char) (h : Takes (readQuoted quote cs) text rest)
    : Takes (readQuoted quote ('\\' :: c :: cs)) ((if c = 'n' then '\n' else if c = 't' then '\t' else c) :: text) rest := by
  obtain ⟨_, h⟩ := h
  rw [Takes, readQuoted.eq_3, h]
  exact ⟨_, rfl⟩

end Quoted

section Value

variable {cs raw text written rest : List Char} {value : Value} {c : Char}

theorem readValue_of_quote {quote : Char} (hquote : quote = '"' ∨ quote = '\'')
    (htrim : Text.trimStart cs = quote :: written) (c : Char)
    : ∃ hlt : written.length < cs.length, readValue c cs
        =
      (readQuoted quote written).map fun t => ((t.map fun s => .string (String.ofList s)).within hlt).behind := by
  have hlt := Taken.length_lt_of_eq_cons htrim (Text.length_trimStart_le cs)
  refine ⟨hlt, ?_⟩
  unfold readValue
  dsimp only
  split
  . next heq =>
    cases htrim.symm.trans heq
    cases readQuoted _ written <;> rfl
  . next heq =>
    cases htrim.symm.trans heq
    cases readQuoted _ written <;> rfl
  . next hdouble hsingle =>
    obtain rfl | rfl := hquote
    . exact absurd htrim (hdouble _)
    . exact absurd htrim (hsingle _)

theorem takes_value_of_raw (hhead : ∀ d ∈ (Text.trimStart cs).head?, ¬(d = '"' ∨ d = '\'')) (c : Char)
    : Takes (readValue c cs) (typedValue ((Text.trimStart cs).takeWhile isRawPart))
        ((Text.trimStart cs).dropWhile isRawPart) := by
  unfold Takes readValue
  dsimp only
  split
  . next heq =>
    rw [heq] at hhead
    exact absurd (.inl rfl) (hhead _ rfl)
  . next heq =>
    rw [heq] at hhead
    exact absurd (.inr rfl) (hhead _ rfl)
  . have hle := Nat.le_trans (List.dropWhile_sublist isRawPart).length_le (Text.length_trimStart_le cs)
    exact ⟨Nat.lt_succ_of_le hle, rfl⟩

/--
A value goes up to its closing quote, or else up to the first character that is no part of it.
-/
theorem takes_value_iff
    : Takes (readValue c cs) value rest
        ↔
      (∃ quote written text, (quote = '"' ∨ quote = '\'') ∧ Text.trimStart cs = quote :: written ∧
          Takes (readQuoted quote written) text rest ∧ value = .string (String.ofList text)) ∨
        ((∀ d ∈ (Text.trimStart cs).head?, ¬(d = '"' ∨ d = '\'')) ∧
          value = typedValue ((Text.trimStart cs).takeWhile isRawPart) ∧
          rest = (Text.trimStart cs).dropWhile isRawPart) := by
  constructor
  . intro h
    by_cases hhead : ∀ d ∈ (Text.trimStart cs).head?, ¬(d = '"' ∨ d = '\'')
    . obtain ⟨rfl, rfl⟩ := h.unique (takes_value_of_raw hhead c)
      exact .inr ⟨hhead, rfl, rfl⟩
    . left
      simp only [Classical.not_forall, Classical.not_not] at hhead
      obtain ⟨quote, hquote', hquote⟩ := hhead
      obtain ⟨written, htrim⟩ := List.head?_eq_some_iff.1 hquote'
      obtain ⟨hlt, hread⟩ := readValue_of_quote hquote htrim c
      obtain ⟨_, h⟩ := h
      rw [hread] at h
      cases hquoted : readQuoted quote written with
      | error fault =>
        rw [hquoted] at h
        cases h
      | ok t =>
        rw [hquoted] at h
        cases h
        exact ⟨quote, written, t.value, hquote, htrim, ⟨_, hquoted⟩, rfl⟩
  . rintro (⟨quote, written, text, hquote, htrim, ⟨hshorter, hquoted⟩, rfl⟩ | ⟨hhead, rfl, rfl⟩)
    . obtain ⟨hlt, hread⟩ := readValue_of_quote hquote htrim c
      rw [Takes, hread, hquoted]
      exact ⟨_, rfl⟩
    . exact takes_value_of_raw hhead c

end Value

section Attribute

variable {command : String} {cs key rest : List Char} {entry : String × Value}

/--
An attribute is a name with an equals sign and a value behind it, or without an equals sign.
-/
theorem exists_of_takes_attribute (h : Takes (readAttribute command cs) entry rest)
    : ∃ key behind, IsWord key ∧ cs = key ++ behind ∧ (∀ c ∈ behind.head?, isWordPart c = false) ∧
        entry.1 = String.ofList key ∧
        ((∃ written, Text.trimStart behind = '=' :: written ∧ Takes (readValue '=' written) entry.2 rest) ∨
          ((∀ c ∈ (Text.trimStart behind).head?, c ≠ '=') ∧ entry.2 = .bool true ∧ rest = Text.trimStart behind)) := by
  obtain ⟨_, h⟩ := h
  cases cs with
  | nil => cases h
  | cons c more =>
    unfold readAttribute at h
    dsimp only at h
    split at h
    . next hc =>
      refine ⟨c :: more.takeWhile isWordPart, more.dropWhile isWordPart, ⟨nofun, ?_⟩, ?_, ?_, ?_⟩
      . exact List.forall_mem_cons.2 ⟨hc, List.all_eq_true.1 List.all_takeWhile⟩
      . rw [List.cons_append, List.takeWhile_append_dropWhile]
      . exact fun d => Text.eq_false_of_head_dropWhile
      . split at h
        . next written heq =>
          obtain ⟨t, ht, h⟩ := Expr.exists_of_bind_eq_ok h
          cases h
          exact ⟨rfl, .inl ⟨written, heq, _, ht⟩⟩
        . next hne =>
          cases h
          refine ⟨rfl, .inr ⟨fun d hd heq => ?_, rfl, rfl⟩⟩
          obtain ⟨written, htrim⟩ := List.head?_eq_some_iff.1 hd
          exact hne written (heq ▸ htrim)
    . cases h

theorem takes_attribute {behind : List Char} (hkey : IsWord key) (hbehind : ∀ c ∈ behind.head?, isWordPart c = false)
    {value : Value}
    (hvalue : (∃ written, Text.trimStart behind = '=' :: written ∧ Takes (readValue '=' written) value rest) ∨
      ((∀ c ∈ (Text.trimStart behind).head?, c ≠ '=') ∧ value = .bool true ∧ rest = Text.trimStart behind))
    : Takes (readAttribute command (key ++ behind)) (String.ofList key, value) rest := by
  obtain ⟨c, more, rfl⟩ := List.exists_cons_of_ne_nil hkey.ne_nil
  have hmore := (List.forall_mem_cons.1 hkey.parts).2
  have htake := Text.takeWhile_append_of_head hmore hbehind
  have hdrop := Text.dropWhile_append_of_head hmore hbehind
  have hle := Text.length_trimStart_le behind
  have hlonger : behind.length ≤ (more ++ behind).length := by simp
  unfold Takes readAttribute
  simp only [List.cons_append, if_pos (hkey.parts c List.mem_cons_self), htake]
  split
  . next written heq =>
    rw [hdrop] at heq
    obtain ⟨other, htrim, hlt, hread⟩ | ⟨hhead, -⟩ := hvalue
    . cases htrim.symm.trans heq
      rw [htrim] at hle
      rw [hread]
      exact ⟨Nat.lt_succ_of_lt (Nat.lt_of_lt_of_le hlt (Nat.le_trans hle hlonger)), rfl⟩
    . rw [heq] at hhead
      exact absurd rfl (hhead _ rfl)
  . next hne =>
    rw [hdrop] at hne
    obtain ⟨written, htrim, -⟩ | ⟨-, hflag, hrest⟩ := hvalue
    . exact absurd htrim (hne written)
    . cases hflag
      simp only [hdrop, hrest]
      exact ⟨Nat.lt_succ_of_le (Nat.le_trans hle hlonger), trivial⟩

/--
Either the command ends here, or an attribute is behind the blanks.
-/
theorem takes_attributes_iff {values fields : Fields}
    : Takes (readAttributes command values cs) fields rest
        ↔
      (Text.trimStart cs = ']' :: rest ∧ fields = values) ∨
        ∃ c more entry behind, Text.trimStart cs = c :: more ∧ c ≠ ']' ∧
          Takes (readAttribute command (c :: more)) entry behind ∧
          Takes (readAttributes command (Fields.insert entry.1 entry.2 values) behind) fields rest := by
  rw [Takes, readAttributes]
  constructor
  . rintro ⟨_, h⟩
    split at h
    . cases h
    . next c more htrim =>
      split at h
      . next hc =>
        subst hc
        cases h
        exact .inl ⟨htrim, rfl⟩
      . next hc =>
        split at h
        . cases h
        . next entry hentry =>
          obtain ⟨t, ht, h⟩ := Expr.exists_of_bind_eq_ok h
          cases h
          exact .inr ⟨c, more, entry.value, entry.rest, htrim, hc, ⟨_, hentry⟩, _, ht⟩
  . rintro (⟨htrim, rfl⟩ | ⟨c, more, entry, behind, htrim, hc, ⟨hfirst, hentry⟩, ⟨hlt, hread⟩⟩)
    . split
      . next heq => cases htrim.symm.trans heq
      . next heq =>
        cases htrim.symm.trans heq
        rw [if_pos rfl]
        exact ⟨Taken.length_lt_of_eq_cons htrim (Text.length_trimStart_le cs), rfl⟩
    . split
      . next heq => cases htrim.symm.trans heq
      . next heq =>
        cases htrim.symm.trans heq
        rw [if_neg hc, hentry]
        dsimp only
        rw [hread]
        have hle := Taken.length_le_of_eq htrim (Text.length_trimStart_le cs)
        exact ⟨Nat.lt_trans hlt (Nat.lt_of_lt_of_le hfirst hle), rfl⟩

end Attribute

section Command

variable {line : Nat} {cs rest : List Char} {tag : Tag}

/--
A command is its name and its attributes. Its body goes up to the closing bracket, which is right before the rest.
-/
theorem takes_command_iff
    : Takes (readCommand line cs) tag rest
        ↔
      ∃ name behind values, IsWord name ∧ Text.trimStart cs = name ++ behind ∧
        (∀ c ∈ behind.head?, isWordPart c = false) ∧ Takes (readAttributes (String.ofList name) [] behind) values rest ∧
        tag = .make (String.ofList name) (Fields.insert Tag.bodyKey
          (.string (String.ofList (Text.trim (cs.take (cs.length - (rest.length + 1)))))) values) line := by
  have htake := List.takeWhile_append_dropWhile (p := isWordPart) (l := Text.trimStart cs)
  unfold Takes readCommand
  dsimp only
  constructor
  . rintro ⟨_, h⟩
    split at h
    . cases h
    . next hne =>
      obtain ⟨t, ht, h⟩ := Expr.exists_of_bind_eq_ok h
      cases h
      refine ⟨_, _, t.value, ⟨hne, List.all_eq_true.1 List.all_takeWhile⟩, htake.symm,
        fun c => Text.eq_false_of_head_dropWhile, ⟨_, ht⟩, rfl⟩
  . rintro ⟨name, behind, values, hname, htrim, hbehind, ⟨hlt, hread⟩, rfl⟩
    have hword : (Text.trimStart cs).takeWhile isWordPart = name := by
      rw [htrim, Text.takeWhile_append_of_head hname.parts hbehind]
    have hrest : (Text.trimStart cs).dropWhile isWordPart = behind := by
      rw [htrim, Text.dropWhile_append_of_head hname.parts hbehind]
    subst hword hrest
    have hle := Nat.le_trans (List.dropWhile_sublist isWordPart).length_le (Text.length_trimStart_le cs)
    split
    . next hnil => exact absurd hnil hname.ne_nil
    . rw [hread]
      exact ⟨Nat.lt_of_lt_of_le hlt hle, rfl⟩

/--
A command does not start with a second bracket.
-/
theorem Takes.not_doubled (h : Takes (readCommand line cs) tag rest) (text : List Char) : cs ≠ '[' :: text := by
  rintro rfl
  obtain ⟨name, behind, values, hname, htrim, -⟩ := takes_command_iff.1 h
  obtain ⟨c, more, rfl, hc⟩ := hname.exists_cons
  cases htrim
  cases hc

end Command

/-! ### Text behind -/

section Behind

variable {cs rest : List Char}

theorem ne_slash {c : Char} {cs : List Char} (hend : c = '\\' → cs = [] → False)
    (hescape : ∀ d ds, c = '\\' → cs = d :: ds → False) : c ≠ '\\' := by
  intro hc
  cases cs with
  | nil => exact hend hc rfl
  | cons d ds => exact hescape d ds hc rfl

theorem Takes.quoted_append {quote : Char} {text : List Char} (h : Takes (readQuoted quote cs) text rest) (more : List Char)
    : Takes (readQuoted quote (cs ++ more)) text (rest ++ more) := by
  fun_induction readQuoted quote cs generalizing text with
  | case1 =>
    obtain ⟨_, h⟩ := h
    cases h
  | case2 =>
    obtain ⟨_, h⟩ := h
    cases h
  | case3 c cs ih =>
    obtain ⟨_, h⟩ := h
    obtain ⟨t, ht, h⟩ := Expr.exists_of_bind_eq_ok h
    cases h
    exact (ih ⟨_, ht⟩).escape c
  | case4 cs hend hescape =>
    obtain ⟨_, h⟩ := h
    cases h
    exact takes_quote (ne_slash hend hescape) _
  | case5 c cs hend hescape hquote ih =>
    obtain ⟨_, h⟩ := h
    obtain ⟨t, ht, h⟩ := Expr.exists_of_bind_eq_ok h
    cases h
    exact (ih ⟨_, ht⟩).char hquote (ne_slash hend hescape)

theorem Takes.value_append {c : Char} {value : Value} (h : Takes (readValue c cs) value rest) (hne : rest ≠ [])
    (more : List Char) : Takes (readValue c (cs ++ more)) value (rest ++ more) := by
  rw [takes_value_iff] at h ⊢
  obtain ⟨quote, written, text, hquote, htrim, hread, rfl⟩ | ⟨hhead, rfl, rfl⟩ := h
  . exact .inl ⟨quote, written ++ more, text, hquote, Text.trimStart_append_of_eq_cons htrim more,
      hread.quoted_append more, rfl⟩
  . right
    cases htrim : Text.trimStart cs with
    | nil =>
      rw [htrim] at hne
      exact absurd rfl hne
    | cons d written =>
      rw [htrim] at hhead hne
      rw [Text.trimStart_append_of_eq_cons htrim, ← List.cons_append, Text.dropWhile_append_of_ne_nil hne,
        Text.takeWhile_append_of_ne_nil hne]
      exact ⟨hhead, rfl, rfl⟩

theorem Takes.attribute_append {command : String} {entry : String × Value}
    (h : Takes (readAttribute command cs) entry rest) (hne : rest ≠ []) (more : List Char)
    : Takes (readAttribute command (cs ++ more)) entry (rest ++ more) := by
  obtain ⟨key, behind, hkey, rfl, hbehind, hname, hvalue⟩ := exists_of_takes_attribute h
  obtain ⟨name, value⟩ := entry
  obtain rfl : name = String.ofList key := hname
  obtain ⟨d, written, htrim⟩ : ∃ d written, Text.trimStart behind = d :: written := by
    obtain ⟨written, htrim, -⟩ | ⟨-, -, rfl⟩ := hvalue
    . exact ⟨'=', written, htrim⟩
    . exact List.exists_cons_of_ne_nil hne
  have hmore := Text.trimStart_append_of_eq_cons htrim more
  rw [List.append_assoc]
  apply takes_attribute hkey
  . cases behind with
    | nil => cases htrim
    | cons _ _ => exact hbehind
  . rw [hmore]
    obtain ⟨_, heq, hread⟩ | ⟨hhead, hflag, rfl⟩ := hvalue
    . cases htrim.symm.trans heq
      exact .inl ⟨written ++ more, rfl, hread.value_append hne more⟩
    . rw [htrim] at hhead ⊢
      exact .inr ⟨hhead, hflag, rfl⟩

theorem Takes.attributes_append {command : String} {cs : List Char} {values fields : Fields}
    (h : Takes (readAttributes command values cs) fields rest) (more : List Char)
    : Takes (readAttributes command values (cs ++ more)) fields (rest ++ more) := by
  have hle := Text.length_trimStart_le cs
  rw [takes_attributes_iff] at h ⊢
  obtain ⟨htrim, rfl⟩ | ⟨c, written, entry, behind, htrim, hc, hentry, hread⟩ := h
  . exact .inl ⟨Text.trimStart_append_of_eq_cons htrim more, rfl⟩
  . have hlt : behind.length < cs.length := Nat.lt_of_lt_of_le hentry.1 (htrim ▸ hle)
    exact .inr ⟨c, written ++ more, entry, behind ++ more, Text.trimStart_append_of_eq_cons htrim more, hc,
      hentry.attribute_append hread.ne_nil more, Takes.attributes_append hread more⟩
termination_by cs.length

/--
A command is read alike with other text behind its closing bracket.
-/
theorem Takes.command_append {line : Nat} {tag : Tag} (h : Takes (readCommand line cs) tag rest) (more : List Char)
    : Takes (readCommand line (cs ++ more)) tag (rest ++ more) := by
  rw [takes_command_iff] at h ⊢
  obtain ⟨name, behind, values, hname, htrim, hbehind, hread, rfl⟩ := h
  obtain ⟨c, written, rfl⟩ := List.exists_cons_of_ne_nil hname.ne_nil
  refine ⟨c :: written, behind ++ more, values, hname, ?_, ?_, hread.attributes_append more, ?_⟩
  . rw [Text.trimStart_append_of_eq_cons htrim]
    exact congrArg _ (List.append_assoc ..)
  . obtain ⟨d, behind, rfl⟩ := List.exists_cons_of_ne_nil hread.ne_nil
    exact hbehind
  . have hlength : (cs ++ more).length - ((rest ++ more).length + 1) = cs.length - (rest.length + 1) := by
      rw [List.length_append, List.length_append]
      omega
    rw [hlength, List.take_append_of_le_length (Nat.sub_le ..)]

/--
Text is read alike with other text behind it.
-/
theorem readText_append {line : Nat} {tags : List Tag} {shown : Bool} (h : readText line cs = .ok (tags, shown))
    (more : List Char)
    : readText line (cs ++ more) = (readText line more).map fun (others, shown') => (tags ++ others, shown || shown') := by
  fun_induction readText line cs generalizing tags shown with
  | case1 =>
    cases h
    rw [List.nil_append]
    cases readText line more <;> rfl
  | case2 rest ih =>
    obtain ⟨⟨others, shown'⟩, hrest, h⟩ := Expr.exists_of_bind_eq_ok h
    cases h
    rw [List.cons_append, List.cons_append, readText, ih hrest]
    cases readText line more <;> rfl
  | case3 rest hsingle fault hcommand => cases h
  | case4 rest hsingle command hcommand _ ih =>
    obtain ⟨⟨others, shown'⟩, hrest, h⟩ := Expr.exists_of_bind_eq_ok h
    cases h
    obtain ⟨value, behind, hshorter⟩ := command
    have htakes : Takes (readCommand line rest) value behind := ⟨hshorter, hcommand⟩
    obtain ⟨_, hmore⟩ := htakes.command_append more
    rw [List.cons_append, readText.eq_3, hmore]
    . dsimp only at hrest ih ⊢
      rw [ih hrest]
      cases readText line more <;> rfl
    . intro written heq
      cases rest with
      | nil => cases htakes.1
      | cons d rest =>
        cases heq
        exact hsingle rest rfl
  | case5 c rest hdouble hopen ih =>
    obtain ⟨⟨others, shown'⟩, hrest, h⟩ := Expr.exists_of_bind_eq_ok h
    cases h
    rw [List.cons_append, readText.eq_4, ih hrest]
    . cases readText line more <;> rfl
    . exact fun _ hc _ => hopen hc
    . exact hopen

end Behind

/--
A line with a command is a line of text, unless it starts with the marker of another one.
-/
theorem read_of_mem {l : SourceLine} (hbracket : '[' ∈ l.text) (hmarker : ∀ c ∈ l.trimmed.head?, c ∉ Grammar.bracket.markers)
    (marks : Nat) (following : List SourceLine) : Bracket.read marks l following = Bracket.text marks l following := by
  have htrimmed : '[' ∈ l.trimmed := (mem_trim_iff (by decide) l.text).2 hbracket
  unfold Bracket.read
  split
  . next heq =>
    rw [heq] at htrimmed
    cases htrimmed
  . next heq => exact absurd (by decide) (hmarker ';' (by rw [heq]; rfl))
  . next heq => exact absurd (by decide) (hmarker '*' (by rw [heq]; rfl))
  . next heq => exact absurd (by decide) (hmarker '|' (by rw [heq]; rfl))
  . split
    . next heq =>
      rw [heq] at htrimmed
      exact absurd htrimmed (by decide)
    . rfl

end Bracket
end Grammar
end VisualNovel
