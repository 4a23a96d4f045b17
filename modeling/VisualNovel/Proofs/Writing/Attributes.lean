import VisualNovel.Proofs.Recognizing.Words
import VisualNovel.Proofs.Writing.Brackets

/-!
This module contains how the attributes of a command are written in the bracket grammar, and that the command has the
values which were written, wherever it stands in a line of text.
-/

namespace VisualNovel

/-! ### Maps of distinct names -/

theorem Fields.find?_foldl_insert {entries : List (String × Value)} (hdistinct : (entries.map Prod.fst).Nodup)
    (fields : Fields) (key : String) (value : Value)
    : Fields.find? key (entries.foldl (fun fields entry => Fields.insert entry.1 entry.2 fields) fields) = some value
        ↔
      (key, value) ∈ entries ∨ (key ∉ entries.map Prod.fst ∧ Fields.find? key fields = some value) := by
  induction entries generalizing fields with
  | nil => simp
  | cons entry entries ih =>
    obtain ⟨name, first⟩ := entry
    rw [List.map_cons, List.nodup_cons] at hdistinct
    rw [List.foldl_cons, ih hdistinct.2]
    by_cases hkey : key = name
    . subst hkey
      have hnone : (key, value) ∉ entries := fun h => hdistinct.1 (List.mem_map.2 ⟨_, h, rfl⟩)
      rw [Fields.find?_insert_self]
      simp [hdistinct.1, hnone, eq_comm]
    . rw [Fields.find?_insert_of_ne _ _ hkey]
      simp [hkey]

/-! ### Tags with a body -/

namespace Tag

variable (name : String) (body : Value) (values : Fields) (line : Nat)

theorem value?_make_insert (key : String)
    : (make name (Fields.insert bodyKey body values) line).value? key
        =
      Fields.find? key (Fields.insert bodyKey body values) := by
  have hcontains : Fields.contains bodyKey (Fields.insert bodyKey body values) := by
    rw [Fields.contains, Fields.find?_insert_self]
    rfl
  rw [value?, make]
  simp only [if_pos hcontains]

theorem value?_bodyKey : (make name (Fields.insert bodyKey body values) line).value? bodyKey = some body := by
  rw [value?_make_insert, Fields.find?_insert_self]

theorem value?_of_ne {key : String} (h : key ≠ bodyKey)
    : (make name (Fields.insert bodyKey body values) line).value? key = Fields.find? key values := by
  rw [value?_make_insert, Fields.find?_insert_of_ne _ _ h]

end Tag

namespace Text

/-! ### Whole numbers -/

theorem ofDigits_toDigits (n : Nat) : ofDigits (Nat.toDigits 10 n) = n := by
  have hfold : ofDigits (Nat.toDigits 10 n) = Nat.ofDigitChars 10 (Nat.toDigits 10 n) 0 := by
    simp only [ofDigits, Nat.ofDigitChars, Nat.mul_comm]
  rw [hfold, Nat.ofDigitChars_toDigits (by decide) (by decide)]

theorem isDigit_of_mem_toDigits {n : Nat} : ∀ c ∈ Nat.toDigits 10 n, c.isDigit :=
  fun _ => Nat.isDigit_of_mem_toDigits (by decide) (by decide)

theorem readDigits?_toDigits (n : Nat) : readDigits? (Nat.toDigits 10 n) = some n := by
  have hdigits : (Nat.toDigits 10 n).all Char.isDigit := List.all_eq_true.2 isDigit_of_mem_toDigits
  simp [readDigits?, hdigits, Nat.toDigits_ne_nil, ofDigits_toDigits]

theorem toList_toString_int (i : Int)
    : (toString i).toList = (if i < 0 then ['-'] else []) ++ Nat.toDigits 10 i.natAbs := by
  cases i with
  | ofNat n => simp [Int.repr, Nat.repr_eq_ofList_toDigits]
  | negSucc n => simp [Int.repr, Nat.repr_eq_ofList_toDigits]

theorem readInt64?_toString {i : Int} (hmin : -(Nat.pow 2 63 : Nat) ≤ i) (hmax : i < (Nat.pow 2 63 : Nat))
    : readInt64? (toString i).toList = some i := by
  unfold readInt64?
  dsimp only
  rw [Option.filter_eq_some_iff, toList_toString_int]
  refine ⟨?_, by rw [Bool.and_eq_true, decide_eq_true_eq, decide_eq_true_eq]; exact ⟨hmin, hmax⟩⟩
  by_cases hi : i < 0
  . rw [if_pos hi]
    simp only [List.singleton_append, readDigits?_toDigits]
    exact congrArg some (show -(i.natAbs : Int) = i by omega)
  . rw [if_neg hi, List.nil_append]
    cases htext : Nat.toDigits 10 i.natAbs with
    | nil => exact absurd htext Nat.toDigits_ne_nil
    | cons c cs =>
      have hc : c.isDigit := isDigit_of_mem_toDigits c (by rw [htext]; exact List.mem_cons_self)
      split
      . next heq =>
        cases heq
        cases hc
      . next heq =>
        cases heq
        cases hc
      . rw [← htext, readDigits?_toDigits, Option.map_some]
        exact congrArg some (Int.natAbs_of_nonneg (Int.not_lt.1 hi))

end Text

namespace Grammar
namespace Bracket

/-! ### Spellings -/

/--
The text is written like this between two quotes. A tab may be written as it is.
-/
inductive Quotes (quote : Char) : List Char → List Char → Prop where
  | nil : Quotes quote [] []
  | plain {c : Char} (hquote : c ≠ quote) (hslash : c ≠ '\\') (hbreak : c ≠ '\n') {text written : List Char}
    (h : Quotes quote text written) : Quotes quote (c :: text) (c :: written)
  | escaped {c : Char} (hc : c = quote ∨ c = '\\') {text written : List Char} (h : Quotes quote text written)
    : Quotes quote (c :: text) ('\\' :: c :: written)
  | lineBreak {text written : List Char} (h : Quotes quote text written)
    : Quotes quote ('\n' :: text) ('\\' :: 'n' :: written)
  | tab {text written : List Char} (h : Quotes quote text written)
    : Quotes quote ('\t' :: text) ('\\' :: 't' :: written)

/--
The value is written like this behind an equals sign.
-/
inductive SpellsValue : Value → List Char → Prop where
  | string {quote : Char} (hquote : quote = '"' ∨ quote = '\'') {text written : List Char} (h : Quotes quote text written)
    : SpellsValue (.string (String.ofList text)) (quote :: (written ++ [quote]))
  | bool (b : Bool) : SpellsValue (.bool b) (toString b).toList
  | null : SpellsValue .null "null".toList
  | int {i : Int} (hmin : -(Nat.pow 2 63 : Nat) ≤ i) (hmax : i < (Nat.pow 2 63 : Nat))
    : SpellsValue (.number (.int i)) (toString i).toList

/--
The name and the value of an attribute are written like this. The name alone stands for true.
-/
inductive SpellsAttribute : String × Value → List Char → Prop where
  | flag {key : List Char} (hkey : IsWord key) : SpellsAttribute (String.ofList key, .bool true) key
  | value {key before behind written : List Char} {value : Value} (hkey : IsWord key)
    (hbefore : ∀ c ∈ before, Text.isBlank c) (hbehind : ∀ c ∈ behind, Text.isBlank c) (h : SpellsValue value written)
    : SpellsAttribute (String.ofList key, value) (key ++ (before ++ '=' :: (behind ++ written)))

/--
There is a blank before each of the attributes.
-/
inductive SpellsAttributes : List (String × Value) → List Char → Prop where
  | nil : SpellsAttributes [] []
  | cons {gap written rest : List Char} {entry : String × Value} {entries : List (String × Value)} (hgap : gap ≠ [])
    (hblank : ∀ c ∈ gap, Text.isBlank c) (h : SpellsAttribute entry written) (hrest : SpellsAttributes entries rest)
    : SpellsAttributes (entry :: entries) (gap ++ (written ++ rest))

/--
What stands between the brackets of a command with these attributes.
-/
inductive SpellsCommand (name : List Char) (entries : List (String × Value)) : List Char → Prop where
  | intro {margin written behind : List Char} (hname : IsWord name) (hmargin : ∀ c ∈ margin, Text.isBlank c)
    (hentries : SpellsAttributes entries written) (hbehind : ∀ c ∈ behind, Text.isBlank c)
    : SpellsCommand name entries (margin ++ (name ++ (written ++ behind)))

/-! ### Values -/

section Value

variable {raw text written rest : List Char} {value : Value} {c : Char}

theorem Quotes.takes {quote : Char} (hquote : quote = '"' ∨ quote = '\'') (h : Quotes quote text written)
    (rest : List Char) : Takes (readQuoted quote (written ++ quote :: rest)) text rest := by
  induction h with
  | nil =>
    apply takes_quote
    rintro rfl
    revert hquote
    decide
  | plain hne hslash _ _ ih => exact ih.char hne hslash
  | @escaped c hc _ _ _ ih =>
    have hplain : c ≠ 'n' ∧ c ≠ 't' := by
      obtain rfl | rfl := hc
      . obtain rfl | rfl := hquote <;> decide
      . decide
    have htakes := ih.escape c
    rw [if_neg hplain.1, if_neg hplain.2] at htakes
    exact htakes
  | lineBreak _ ih => exact ih.escape 'n'
  | tab _ ih => exact ih.escape 't'

theorem typedValue_of_readInt64? {i : Int} (h : Text.readInt64? raw = some i) : typedValue raw = .number (.int i) := by
  have hne (word : String) (hnone : Text.readInt64? word.toList = none) : String.ofList raw ≠ word := by
    rintro rfl
    rw [String.toList_ofList, h] at hnone
    cases hnone
  unfold typedValue
  dsimp only
  rw [if_neg (hne _ (by decide)), if_neg (hne _ (by decide)), if_neg (hne _ (by decide)), h]

/--
The characters of a value without quotes, none of which is a quote.
-/
def isPlain (c : Char) : Bool :=
  isRawPart c && c != '"' && c != '\''

theorem isPlain_of_isNumberPart (h : Expr.isNumberPart c) : isPlain c := by
  have hne (d : Char) (hd : Expr.isNumberPart d = false) : (c != d) = true :=
    bne_iff_ne.2 (Text.ne_of_holds h hd)
  rw [isPlain, isRawPart, Expr.not_blank_of_isNumberPart h, hne ']' rfl, hne '"' rfl, hne '\'' rfl]
  rfl

theorem isNumberPart_of_mem_toString {i : Int} : ∀ c ∈ (toString i).toList, Expr.isNumberPart c := by
  intro c hc
  rw [Text.toList_toString_int, List.mem_append] at hc
  obtain hc | hc := hc
  . split at hc
    . cases List.mem_singleton.1 hc
      rfl
    . cases hc
  . exact Expr.isNumberPart_of_isDigit (Text.isDigit_of_mem_toDigits c hc)

theorem SpellsValue.quotes_or_plain (h : SpellsValue value written)
    : (∃ quote text inner, (quote = '"' ∨ quote = '\'') ∧ Quotes quote text inner ∧ written = quote :: (inner ++ [quote]) ∧
          value = .string (String.ofList text)) ∨
        (written ≠ [] ∧ (∀ c ∈ written, isPlain c) ∧ typedValue written = value) := by
  cases h with
  | string hquote h => exact .inl ⟨_, _, _, hquote, h, rfl, rfl⟩
  | bool b => cases b <;> exact .inr ⟨by decide, by decide, rfl⟩
  | null => exact .inr ⟨by decide, by decide, rfl⟩
  | @int i hmin hmax =>
    have hparts : ∀ c ∈ (toString i).toList, isPlain c :=
      fun c hc => isPlain_of_isNumberPart (isNumberPart_of_mem_toString c hc)
    refine .inr ⟨?_, hparts, typedValue_of_readInt64? (Text.readInt64?_toString hmin hmax)⟩
    rw [Text.toList_toString_int]
    simp [Nat.toDigits_ne_nil]

theorem takes_plain {blanks : List Char} (hblanks : ∀ c ∈ blanks, Text.isBlank c) (hne : raw ≠ [])
    (hraw : ∀ c ∈ raw, isPlain c) (hrest : ∀ c ∈ rest.head?, isRawPart c = false) (c : Char)
    : Takes (readValue c (blanks ++ (raw ++ rest))) (typedValue raw) rest := by
  obtain ⟨d, more, rfl⟩ := List.exists_cons_of_ne_nil hne
  simp only [isPlain, Bool.and_eq_true, bne_iff_ne] at hraw
  obtain ⟨⟨hd, hdouble⟩, hsingle⟩ := hraw d List.mem_cons_self
  have hparts : ∀ c ∈ d :: more, isRawPart c := fun c hc => (hraw c hc).1.1
  have htrim : Text.trimStart (blanks ++ (d :: more ++ rest)) = d :: more ++ rest := by
    apply Text.dropWhile_append_of_head hblanks
    rintro _ ⟨⟩
    exact not_blank_of_isRawPart hd
  rw [takes_value_iff, htrim, Text.takeWhile_append_of_head hparts hrest, Text.dropWhile_append_of_head hparts hrest]
  refine .inr ⟨?_, rfl, rfl⟩
  rintro _ ⟨⟩
  exact not_or.2 ⟨hdouble, hsingle⟩

theorem SpellsValue.takes (h : SpellsValue value written) {blanks : List Char} (hblanks : ∀ c ∈ blanks, Text.isBlank c)
    (hrest : ∀ c ∈ rest.head?, isRawPart c = false) (c : Char)
    : Takes (readValue c (blanks ++ (written ++ rest))) value rest := by
  obtain ⟨quote, text, inner, hquote, hquotes, rfl, rfl⟩ | ⟨hne, hplain, rfl⟩ := h.quotes_or_plain
  . refine takes_value_iff.2 (.inl ⟨quote, inner ++ quote :: rest, text, hquote, ?_, hquotes.takes hquote rest, rfl⟩)
    rw [List.cons_append, List.append_assoc, List.singleton_append]
    apply Text.dropWhile_append_of_head hblanks
    rintro _ ⟨⟩
    obtain rfl | rfl := hquote <;> decide
  . exact takes_plain hblanks hne hplain hrest c

end Value

/-! ### Written commands -/

section Written

variable {written behind rest : List Char}

theorem SpellsAttribute.exists_cons {entry : String × Value} (h : SpellsAttribute entry written)
    : ∃ c more, written = c :: more ∧ isWordPart c := by
  cases h with
  | flag hkey => exact hkey.exists_cons
  | value hkey _ _ _ =>
    obtain ⟨c, more, rfl, hc⟩ := hkey.exists_cons
    exact ⟨c, _, rfl, hc⟩

/--
What may stand behind an attribute: a blank or the closing bracket, but no equals sign.
-/
structure Follows (behind : List Char) : Prop where
  ends : ∀ c ∈ behind.head?, Text.isBlank c ∨ c = ']'
  noValue : ∀ c ∈ (Text.trimStart behind).head?, c ≠ '='

theorem Follows.isWordPart (h : Follows behind) : ∀ c ∈ behind.head?, isWordPart c = false := by
  intro c hc
  obtain hblank | rfl := h.ends c hc
  . exact isWordPart_of_isBlank hblank
  . decide

theorem Follows.isRawPart (h : Follows behind) : ∀ c ∈ behind.head?, isRawPart c = false := by
  intro c hc
  obtain hblank | rfl := h.ends c hc
  . exact isRawPart_of_isBlank hblank
  . decide

theorem follows_closing (hbehind : ∀ c ∈ behind, Text.isBlank c) (rest : List Char) : Follows (behind ++ ']' :: rest) := by
  have hclosing : ∀ c ∈ (']' :: rest).head?, Text.isBlank c = false := by
    rintro _ ⟨⟩
    decide
  constructor
  . cases behind with
    | nil =>
      rintro _ ⟨⟩
      exact .inr rfl
    | cons d behind =>
      rintro _ ⟨⟩
      exact .inl (hbehind d List.mem_cons_self)
  . rw [Text.trimStart_append_of_blanks hbehind hclosing]
    rintro _ ⟨⟩
    decide

theorem SpellsAttributes.follows {entries : List (String × Value)} (h : SpellsAttributes entries written)
    (hbehind : ∀ c ∈ behind, Text.isBlank c) (rest : List Char) : Follows (written ++ (behind ++ ']' :: rest)) := by
  cases h with
  | nil => exact follows_closing hbehind rest
  | cons hgap hblank hfirst _ =>
    obtain ⟨d, gap, rfl⟩ := List.exists_cons_of_ne_nil hgap
    obtain ⟨c, more, rfl, hpart⟩ := hfirst.exists_cons
    constructor
    . rintro _ ⟨⟩
      exact .inl (hblank d List.mem_cons_self)
    . rw [List.append_assoc, Text.trimStart_append_of_blanks hblank]
      . rintro _ ⟨⟩ rfl
        cases hpart
      . rintro _ ⟨⟩
        exact not_blank_of_isWordPart hpart

theorem takes_attribute_value {key before : List Char} {value : Value} (hkey : IsWord key)
    (hbefore : ∀ c ∈ before, Text.isBlank c) (hread : Takes (readValue '=' written) value rest) (command : String)
    : Takes (readAttribute command (key ++ (before ++ '=' :: written))) (String.ofList key, value) rest := by
  have hequals : Text.trimStart (before ++ '=' :: written) = '=' :: written :=
    Text.trimStart_append_of_blanks hbefore (by rintro _ ⟨⟩; decide)
  refine takes_attribute hkey ?_ (.inl ⟨written, hequals, hread⟩)
  cases before with
  | nil =>
    rintro _ ⟨⟩
    decide
  | cons d before =>
    rintro _ ⟨⟩
    exact isWordPart_of_isBlank (hbefore d List.mem_cons_self)

/--
An attribute is read as it is written, up to what follows.
-/
theorem SpellsAttribute.takes {entry : String × Value} (h : SpellsAttribute entry written) (hbehind : Follows behind)
    (command : String)
    : ∃ rest, Takes (readAttribute command (written ++ behind)) entry rest ∧
        Text.trimStart rest = Text.trimStart behind := by
  cases h with
  | flag hkey =>
    refine ⟨Text.trimStart behind, ?_, Text.dropWhile_of_head fun c => Text.eq_false_of_head_dropWhile⟩
    exact takes_attribute hkey hbehind.isWordPart (.inr ⟨hbehind.noValue, rfl, rfl⟩)
  | @value key before blanks written value hkey hbefore hblanks hvalue =>
    have hread := takes_attribute_value hkey hbefore (hvalue.takes hblanks hbehind.isRawPart '=') command
    rw [List.append_assoc, List.append_assoc, List.cons_append, List.append_assoc]
    exact ⟨behind, hread, rfl⟩

theorem takes_attributes_closing (hbehind : ∀ c ∈ behind, Text.isBlank c) (rest : List Char) (command : String)
    (values : Fields) : Takes (readAttributes command values (behind ++ ']' :: rest)) values rest :=
  takes_attributes_iff.2 (.inl ⟨Text.trimStart_append_of_blanks hbehind (by rintro _ ⟨⟩; decide), rfl⟩)

theorem takes_attributes_cons {gap next : List Char} {c : Char} {command : String} {entry : String × Value}
    {values fields : Fields} (hgap : ∀ d ∈ gap, Text.isBlank d) (hc : isWordPart c)
    (hread : Takes (readAttribute command (c :: behind)) entry next)
    (hnext : Takes (readAttributes command (Fields.insert entry.1 entry.2 values) next) fields rest)
    : Takes (readAttributes command values (gap ++ c :: behind)) fields rest := by
  have htrim : Text.trimStart (gap ++ c :: behind) = c :: behind := by
    apply Text.trimStart_append_of_blanks hgap
    rintro _ ⟨⟩
    exact not_blank_of_isWordPart hc
  have hopen : c ≠ ']' := by
    rintro rfl
    cases hc
  exact takes_attributes_iff.2 (.inr ⟨c, behind, entry, next, htrim, hopen, hread, hnext⟩)

theorem SpellsAttributes.takes {entries : List (String × Value)} (h : SpellsAttributes entries written)
    (hbehind : ∀ c ∈ behind, Text.isBlank c) (rest : List Char) (command : String) (values : Fields)
    : Takes (readAttributes command values (written ++ (behind ++ ']' :: rest)))
        (entries.foldl (fun fields entry => Fields.insert entry.1 entry.2 fields) values) rest := by
  induction h generalizing values with
  | nil => exact takes_attributes_closing hbehind rest command values
  | @cons gap written others entry entries hgap hblank hfirst hothers ih =>
    obtain ⟨c, more, rfl, hpart⟩ := hfirst.exists_cons
    obtain ⟨next, hread, hnext⟩ := hfirst.takes (hothers.follows hbehind rest) command
    have hbehind := ih (Fields.insert entry.1 entry.2 values)
    -- only the blanks in front of the next attribute may have been passed already
    rw [takes_attributes_iff, ← hnext, ← takes_attributes_iff] at hbehind
    rw [List.append_assoc, List.append_assoc]
    exact takes_attributes_cons hblank hpart hread hbehind

/--
The tag of a command with these attributes.
-/
def tagOf (name : List Char) (entries : List (String × Value)) (written : List Char) (line : Nat) : Tag :=
  .make (String.ofList name)
    (Fields.insert Tag.bodyKey (.string (String.ofList (Text.trim written)))
      (entries.foldl (fun fields entry => Fields.insert entry.1 entry.2 fields) []))
    line

theorem tagOf_value?_eq_some_iff {entries : List (String × Value)} (hdistinct : (entries.map Prod.fst).Nodup)
    (hbody : Tag.bodyKey ∉ entries.map Prod.fst) (name written : List Char) (line : Nat) (key : String) (value : Value)
    : (tagOf name entries written line).value? key = some value
        ↔
      (key, value) ∈ entries ∨ (key = Tag.bodyKey ∧ value = .string (String.ofList (Text.trim written))) := by
  by_cases hkey : key = Tag.bodyKey
  . subst hkey
    have hnone : (Tag.bodyKey, value) ∉ entries := fun h => hbody (List.mem_map.2 ⟨_, h, rfl⟩)
    rw [tagOf, Tag.value?_bodyKey]
    simp [hnone, eq_comm]
  . rw [tagOf, Tag.value?_of_ne _ _ _ _ hkey, Fields.find?_foldl_insert hdistinct]
    simp [Fields.find?, hkey]

theorem takes_command {name margin attributes : List Char} {entries : List (String × Value)} (hname : IsWord name)
    (hmargin : ∀ c ∈ margin, Text.isBlank c) (hbehind : ∀ c ∈ (attributes ++ ']' :: rest).head?, isWordPart c = false)
    (hread : Takes (readAttributes (String.ofList name) [] (attributes ++ ']' :: rest))
      (entries.foldl (fun fields entry => Fields.insert entry.1 entry.2 fields) []) rest) (line : Nat)
    : Takes (readCommand line (margin ++ (name ++ attributes) ++ ']' :: rest))
        (tagOf name entries (margin ++ (name ++ attributes)) line) rest := by
  have hbody (written : List Char)
      : (written ++ ']' :: rest).take ((written ++ ']' :: rest).length - (rest.length + 1)) = written := by
    rw [List.length_append, List.length_cons, Nat.add_sub_cancel, List.take_left]
  refine takes_command_iff.2 ⟨name, attributes ++ ']' :: rest, _, hname, ?_, hbehind, hread, by rw [hbody, tagOf]⟩
  rw [List.append_assoc, List.append_assoc]
  apply Text.trimStart_append_of_blanks hmargin
  obtain ⟨c, more, rfl, hc⟩ := hname.exists_cons
  rintro _ ⟨⟩
  exact not_blank_of_isWordPart hc

theorem SpellsCommand.takes {name : List Char} {entries : List (String × Value)} (h : SpellsCommand name entries written)
    (rest : List Char) (line : Nat)
    : Takes (readCommand line (written ++ ']' :: rest)) (tagOf name entries written line) rest := by
  obtain @⟨margin, attributes, blanks, hname, hmargin, hentries, hblanks⟩ := h
  have hfollows := hentries.follows hblanks rest
  have hread := hentries.takes hblanks rest (String.ofList name) []
  rw [← List.append_assoc] at hfollows hread
  exact takes_command hname hmargin hfollows.isWordPart hread line

/--
A line of text with a command has its tag between those of the text around it.
-/
theorem read_of_takes {before after : List Char} {l : SourceLine}
    (htext : l.text = before ++ '[' :: (written ++ ']' :: after)) {tag : Tag}
    (hcommand : Takes (readCommand l.number (written ++ ']' :: after)) tag after)
    (hmarker : ∀ c ∈ l.trimmed.head?, c ∉ Grammar.bracket.markers) {tags others : List Tag} {shown shown' : Bool}
    (hbefore : readText l.number before = .ok (tags, shown)) (hafter : readText l.number after = .ok (others, shown'))
    (marks : Nat) (following : List SourceLine)
    : Bracket.read marks l following
        =
      .ok (.single (tags ++ tag :: others ++ if shown || shown' then [.lineBreak l.number] else []) marks following) := by
  have hread : readText l.number l.text = .ok (tags ++ tag :: others, shown || shown') := by
    rw [htext, readText_append hbefore, readText.eq_3 _ _ fun text heq => hcommand.not_doubled text heq]
    obtain ⟨_, hcommand⟩ := hcommand
    rw [hcommand]
    dsimp only
    rw [hafter]
    rfl
  rw [read_of_mem (by simp [htext]) hmarker, Bracket.text, hread]
  dsimp only
  split
  . rfl
  . rw [List.append_nil]

/--
A command is read with the name and the attributes that it was written with, wherever it stands in a line of text.
-/
theorem read_spelled_command {name before after : List Char} {entries : List (String × Value)}
    (hcommand : SpellsCommand name entries written) (hdistinct : (entries.map Prod.fst).Nodup)
    (hbody : Tag.bodyKey ∉ entries.map Prod.fst) {l : SourceLine}
    (htext : l.text = before ++ '[' :: (written ++ ']' :: after))
    (hmarker : ∀ c ∈ l.trimmed.head?, c ∉ Grammar.bracket.markers) {tags others : List Tag} {shown shown' : Bool}
    (hbefore : readText l.number before = .ok (tags, shown)) (hafter : readText l.number after = .ok (others, shown'))
    (marks : Nat) (following : List SourceLine)
    : ∃ tag,
        Bracket.read marks l following
            = .ok (.single (tags ++ tag :: others ++ if shown || shown' then [.lineBreak l.number] else []) marks following) ∧
          tag.name = String.ofList name ∧ tag.line = l.number ∧
          ∀ key value, tag.value? key = some value ↔
            (key, value) ∈ entries ∨ (key = Tag.bodyKey ∧ value = .string (String.ofList (Text.trim written))) :=
  ⟨tagOf name entries written l.number,
    read_of_takes htext (hcommand.takes after l.number) hmarker hbefore hafter marks following, rfl, rfl,
    tagOf_value?_eq_some_iff hdistinct hbody name written l.number⟩

end Written

section Sample

/--
A quote and a line break that are escaped, a name alone, a whole number, and blanks around the equals sign.
-/
def sampleCommand : List Char :=
  "say text='it\\'s\\n' loud  n = -5 ".toList

def sampleEntries : List (String × Value) :=
  [("text", .string "it's\n"), ("loud", .bool true), ("n", .number (.int (-5)))]

theorem spellsCommand_sample : SpellsCommand "say".toList sampleEntries sampleCommand := by
  have htext : SpellsAttribute ("text", .string "it's\n") "text='it\\'s\\n'".toList :=
    @SpellsAttribute.value "text".toList [] [] _ _ ⟨by decide, by decide⟩ (by decide) (by decide)
      (.string (.inr rfl) (.plain (by decide) (by decide) (by decide) (.plain (by decide) (by decide) (by decide)
        (.escaped (.inl rfl) (.plain (by decide) (by decide) (by decide) (.lineBreak .nil))))))
  have hloud : SpellsAttribute ("loud", .bool true) "loud".toList :=
    @SpellsAttribute.flag "loud".toList ⟨by decide, by decide⟩
  have hnumber : SpellsAttribute ("n", .number (.int (-5))) "n = -5".toList :=
    @SpellsAttribute.value "n".toList [' '] [' '] _ _ ⟨by decide, by decide⟩ (by decide) (by decide)
      (.int (by decide) (by decide))
  have hnumbers := @SpellsAttributes.cons [' ', ' '] _ _ _ _ nofun (by decide) hnumber .nil
  have hflags := @SpellsAttributes.cons [' '] _ _ _ _ nofun (by decide) hloud hnumbers
  have hentries := @SpellsAttributes.cons [' '] _ _ _ _ nofun (by decide) htext hflags
  exact @SpellsCommand.intro _ _ [] _ [' '] ⟨by decide, by decide⟩ (by decide) hentries (by decide)

theorem read_sample_command
    : let l : SourceLine := { number := 1, text := "a[[".toList ++ '[' :: (sampleCommand ++ ']' :: "!".toList) }
      ∃ tag,
        Bracket.read 0 l [] = .ok (.single ([.ofChar 'a' 1, .ofChar '[' 1, tag, .ofChar '!' 1] ++ [.lineBreak 1]) 0 []) ∧
          tag.name = "say" ∧ tag.line = 1 ∧
          ∀ key value, tag.value? key = some value ↔
            (key, value) ∈ sampleEntries ∨
              (key = Tag.bodyKey ∧ value = .string (String.ofList (Text.trim sampleCommand))) := by
  intro l
  have hbefore : readText 1 "a[[".toList = .ok ([.ofChar 'a' 1, .ofChar '[' 1], true) := by cbv
  have hafter : readText 1 "!".toList = .ok ([.ofChar '!' 1], true) := by cbv
  have hmarker : ∀ c ∈ l.trimmed.head?, c ∉ Grammar.bracket.markers := by
    have hhead : l.trimmed.head? = some 'a' := by decide
    rw [hhead]
    decide
  exact read_spelled_command spellsCommand_sample (by decide) (by decide) rfl hmarker hbefore hafter 0 []

end Sample

end Bracket
end Grammar
end VisualNovel
