import Mathlib.Data.List.TakeDrop
import Mathlib.Data.List.TakeWhile
import VisualNovel.Proofs.Parsing.Composition

/-!
This module contains what holds of every tag of a script: it has a name without blanks, its body is a text, and it stands on
a line of the script.
-/

namespace VisualNovel

namespace Tag

def HasBody (tag : Tag) : Prop :=
  Fields.contains bodyKey tag.values = true

theorem make_of_hasBody {tag : Tag} (h : tag.HasBody) : make tag.name tag.values tag.line = tag := by
  have hvalues : Fields.contains bodyKey tag.values = true := h
  unfold make
  dsimp only
  rw [if_pos hvalues]

/--
The names that tags can have.
-/
def IsName (name : String) : Prop :=
  name ≠ "" ∧ ∀ c ∈ name.toList, Text.isBlank c = false

structure WellMade (tag : Tag) : Prop where
  named : IsName tag.name
  body : ∃ text, tag.value? bodyKey = some (.string text)

theorem WellMade.hasBody {tag : Tag} (h : tag.WellMade) : tag.HasBody := by
  obtain ⟨text, hbody⟩ := h.body
  have hfind : Fields.find? bodyKey tag.values = some (.string text) := hbody
  unfold HasBody Fields.contains
  rw [hfind]
  rfl

theorem isName_directive (d : Directive) : IsName d.name := by
  cases d <;> exact ⟨by decide, by decide⟩

theorem isName_ofList {name : List Char} (hname : name ≠ []) (h : ∀ c ∈ name, Text.isBlank c = false)
    : IsName (String.ofList name) := by
  unfold IsName
  rw [String.toList_ofList]
  exact ⟨by simpa using hname, h⟩

theorem wellMade_make {name : String} (hname : IsName name) {values : Fields} {text : String}
    (hbody : Fields.find? bodyKey values = some (.string text)) (line : Nat) : (make name values line).WellMade := by
  have hcontains : Fields.contains bodyKey values = true := by
    unfold Fields.contains
    rw [hbody]
    rfl
  refine ⟨hname, text, ?_⟩
  unfold make
  dsimp only
  rw [if_pos hcontains]
  exact hbody

/--
All tags but those of commands are made for a directive, with their body as the first value.
-/
theorem wellMade_directive (d : Directive) (body : String) (values : Fields) (line : Nat)
    : (make d.name ((bodyKey, .string body) :: values) line).WellMade := by
  apply wellMade_make (isName_directive d)
  unfold Fields.find?
  exact if_pos rfl

/--
The tags of lines that are no save marks: those that the grammars make by themselves, and those of commands with these names.
-/
inductive Plain (names : List String) : Tag → Prop where
  | directive (d : Directive) (hd : d ≠ .saveMark) (body : String) (values : Fields) (line : Nat)
    : Plain names (make d.name ((bodyKey, .string body) :: values) line)
  | command {name : String} (hname : name ∈ names) (body : String) (values : Fields) (line : Nat)
    : Plain names (make name (Fields.insert bodyKey (.string body) values) line)

theorem Plain.onLine {names : List String} {tag : Tag} (h : tag.Plain names) (number : Nat)
    : (tag.onLine number).Plain names := by
  cases h with
  | directive d hd body values line => exact .directive d hd body values number
  | command hname body values line => exact .command hname body values number

theorem Plain.mono {names others : List String} {tag : Tag} (h : tag.Plain names)
    (hnames : ∀ name ∈ names, name ∈ others) : tag.Plain others := by
  cases h with
  | directive d hd body values line => exact .directive d hd body values line
  | command hname body values line => exact .command (hnames _ hname) body values line

theorem Plain.wellMade {names : List String} {tag : Tag} (h : tag.Plain names) (hnames : ∀ name ∈ names, IsName name)
    : tag.WellMade := by
  cases h with
  | directive d hd body values line => exact wellMade_directive ..
  | command hname body values line => exact wellMade_make (hnames _ hname) (Fields.find?_insert_self ..) line

end Tag

namespace Grammar

/-! ### The commands of a line -/

namespace Line

/--
The name of the command that a line starts with.
-/
def commandNames (text : List Char) : List String :=
  match Text.trim text with
  | ';' :: written => ((splitCommand? written).map fun (name, _) => String.ofList name).toList
  | _ => []

/--
The name of a command ends before the first blank.
-/
theorem isName_of_splitCommand? {written name block : List Char} (h : splitCommand? written = some (name, block))
    : Tag.IsName (String.ofList name) := by
  unfold splitCommand? at h
  dsimp only at h
  rw [List.span_eq_takeWhile_dropWhile] at h
  split at h
  . cases h
  . next hne hspan =>
    cases h
    obtain ⟨rfl, _⟩ := Prod.mk.inj hspan
    refine Tag.isName_ofList hne fun c hc => ?_
    have hpart := List.mem_takeWhile_imp hc
    rw [Bool.and_eq_true, Bool.not_eq_true'] at hpart
    exact hpart.1

theorem isName_of_mem_commandNames {text : List Char} : ∀ name ∈ commandNames text, Tag.IsName name := by
  unfold commandNames
  split
  . intro name hname
    obtain ⟨⟨written, block⟩, hsplit, rfl⟩ := Option.map_eq_some_iff.1 (Option.mem_toList.1 hname)
    exact isName_of_splitCommand? hsplit
  . exact nofun

end Line

namespace Bracket

theorem isBlank_of_isWordPart {c : Char} (h : isWordPart c) : Text.isBlank c = false := by
  simp only [isWordPart, Bool.and_eq_true] at h
  simpa using h.1.1.1.1.1

theorem exists_of_readCommand {line : Nat} {cs : List Char} {command : Taken cs Tag}
    (h : readCommand line cs = .ok command)
    : Tag.IsName command.value.name ∧
        ∃ body values, command.value = .make command.value.name (Fields.insert Tag.bodyKey (.string body) values) line := by
  unfold readCommand at h
  dsimp only at h
  split at h
  . cases h
  . next hne =>
    cases hattributes : readAttributes _ [] ((Text.trimStart cs).dropWhile isWordPart) with
    | error fault =>
      rw [hattributes] at h
      cases h
    | ok attributes =>
      rw [hattributes] at h
      cases h
      refine ⟨?_, _, _, rfl⟩
      exact Tag.isName_ofList (fun hnil => hne hnil) fun c hc => isBlank_of_isWordPart (List.mem_takeWhile_imp hc)

/--
The names of the commands between the characters of a text.
-/
def namesIn (cs : List Char) : List String :=
  match cs with
  | [] => []
  | '[' :: '[' :: rest => namesIn rest
  | '[' :: rest =>
    match readCommand 0 rest with
    | .error _ => []
    | .ok command =>
      have := command.shorter
      command.value.name :: namesIn command.rest
  | _ :: rest => namesIn rest
termination_by cs.length

/--
The names of the commands on a line, if it is a line of text.
-/
def commandNames (text : List Char) : List String :=
  match Text.trim text with
  | ';' :: _ => []
  | '*' :: _ => []
  | '|' :: _ => []
  | _ => namesIn text

theorem commandNames_of_ne {text : List Char} (hcomment : ∀ behind, Text.trim text = ';' :: behind → False)
    (hlabel : ∀ behind, Text.trim text = '*' :: behind → False) (hmark : ∀ behind, Text.trim text = '|' :: behind → False)
    : commandNames text = namesIn text := by
  unfold commandNames
  split
  . next behind htrim => exact (hcomment behind htrim).elim
  . next behind htrim => exact (hlabel behind htrim).elim
  . next behind htrim => exact (hmark behind htrim).elim
  . rfl

theorem isName_of_mem_namesIn {cs : List Char} : ∀ name ∈ namesIn cs, Tag.IsName name := by
  fun_induction namesIn cs with
  | case1 => exact nofun
  | case2 rest ih => exact ih
  | case3 rest hescape fault hread => exact nofun
  | case4 rest hescape command hread _ ih => exact List.forall_mem_cons.2 ⟨(exists_of_readCommand hread).1, ih⟩
  | case5 c rest hescape hbracket ih => exact ih

theorem isName_of_mem_commandNames {text : List Char} : ∀ name ∈ commandNames text, Tag.IsName name := by
  unfold commandNames
  split
  . exact nofun
  . exact nofun
  . exact nofun
  . exact isName_of_mem_namesIn

end Bracket

def commandNames : Grammar → List Char → List String
  | .line => Line.commandNames
  | .bracket => Bracket.commandNames

theorem isName_of_mem_commandNames {grammar : Grammar} {text : List Char}
    : ∀ name ∈ grammar.commandNames text, Tag.IsName name := by
  cases grammar with
  | line => exact Line.isName_of_mem_commandNames
  | bracket => exact Bracket.isName_of_mem_commandNames

/-! ### How tags are made -/

def AllPlain (names : List String) (tags : Except ParseFault (List Tag)) : Prop :=
  ∀ written, tags = .ok written → ∀ tag ∈ written, tag.Plain names

theorem plain_error (names : List String) (fault : ParseFault) : AllPlain names (.error fault) :=
  nofun

theorem plain_ok {names : List String} {tags : List Tag} (h : ∀ tag ∈ tags, tag.Plain names)
    : AllPlain names (.ok tags) := by
  rintro written ⟨⟩
  exact h

theorem plain_single {names : List String} {tag : Tag} (h : tag.Plain names) : AllPlain names (.ok [tag]) :=
  plain_ok (List.forall_mem_singleton.2 h)

/--
The tags of blank lines and of save marks do not come from the form.
-/
def Form.Plain (names : List String) : Form → Prop
  | .blank => True
  | .mark _ => True
  | .alone tags => AllPlain names tags
  | .through _ _ tags => ∀ inner closing, AllPlain names (tags inner closing)

theorem plain_labelForm (names written) : (labelForm written).Plain names := by
  unfold labelForm
  split
  . exact plain_error _ _
  . exact plain_single (.directive .label nofun _ _ _)

theorem plain_blockForm (names) : blockForm.Plain names :=
  fun _ _ => plain_single (.directive .script nofun _ _ _)

namespace Line

theorem plain_commandTags {names : List String} {name : String} (hname : name ∈ names) (block : List Char)
    : AllPlain names (commandTags name block) := by
  unfold commandTags commandTag
  cases Expr.evaluateClosed ("(" ++ literal block ++ ")") with
  | error e => exact plain_error _ _
  | ok value =>
    cases value with
    | object values => exact plain_single (.command hname ..)
    | _ => exact plain_error _ _

theorem plain_commandForm {names : List String} {written : List Char}
    (hname : ∀ name block, splitCommand? written = some (name, block) → String.ofList name ∈ names)
    : (commandForm written).Plain names := by
  unfold commandForm
  split
  . exact plain_error _ _
  . next name block hsplit =>
    dsimp only
    split
    . exact fun _ _ => plain_commandTags (hname name block hsplit) _
    . exact plain_commandTags (hname name block hsplit) _

theorem plain_text (names : List String) (text : List Char)
    : AllPlain names (.ok (text.map (Tag.ofChar · 0) ++ [.lineBreak 0])) := by
  apply plain_ok
  intro tag htag
  obtain htag | htag := List.mem_append.1 htag
  . obtain ⟨c, _, rfl⟩ := List.mem_map.1 htag
    exact .directive .char nofun _ _ _
  . rw [List.mem_singleton.1 htag]
    exact .directive .lineBreak nofun _ _ _

theorem plain_form (text : List Char) : (form text).Plain (commandNames text) := by
  unfold form
  split
  . trivial
  . exact plain_ok (List.forall_mem_nil _)
  . next written htrim =>
    apply plain_commandForm
    intro name block hsplit
    simp only [commandNames, htrim, hsplit]
    exact List.mem_singleton_self _
  . exact plain_labelForm ..
  . trivial
  . split
    . exact plain_blockForm _
    . exact plain_single (.directive .script nofun _ _ _)
  . exact plain_single (.directive .script nofun _ _ _)
  . exact plain_text _ text

end Line

namespace Bracket

theorem plain_of_readText {cs : List Char} {tags : List Tag} {hasText : Bool} (h : readText 0 cs = .ok (tags, hasText))
    : ∀ tag ∈ tags, tag.Plain (namesIn cs) := by
  fun_induction readText 0 cs generalizing tags hasText with
  | case1 =>
    cases h
    exact List.forall_mem_nil _
  | case2 rest ih =>
    cases hrest : readText 0 rest with
    | error fault =>
      rw [hrest] at h
      cases h
    | ok answer =>
      rw [hrest] at h
      cases h
      rw [namesIn]
      exact List.forall_mem_cons.2 ⟨.directive .char (by decide) _ _ _, ih hrest⟩
  | case3 rest hescape fault hread => cases h
  | case4 rest hescape command hread _ ih =>
    cases hrest : readText 0 command.rest with
    | error fault =>
      rw [hrest] at h
      cases h
    | ok answer =>
      rw [hrest] at h
      cases h
      obtain ⟨_, body, values, hcommand⟩ := exists_of_readCommand hread
      rw [namesIn, hread]
      . refine List.forall_mem_cons.2 ⟨?_, fun tag htag => ?_⟩
        . rw [hcommand]
          exact .command List.mem_cons_self ..
        . exact (ih hrest tag htag).mono fun _ => List.mem_cons_of_mem _
      . exact hescape
  | case5 c rest hescape hbracket ih =>
    cases hrest : readText 0 rest with
    | error fault =>
      rw [hrest] at h
      cases h
    | ok answer =>
      rw [hrest] at h
      cases h
      rw [namesIn]
      . exact List.forall_mem_cons.2 ⟨.directive .char (by decide) _ _ _, ih hrest⟩
      . exact hescape
      . exact hbracket

theorem plain_textTags (text : List Char) : AllPlain (namesIn text) (textTags text) := by
  unfold textTags
  split
  . exact plain_error _ _
  . next tags hasText htext =>
    have htags := plain_of_readText htext
    apply plain_ok
    intro tag htag
    split at htag
    . obtain htag | htag := List.mem_append.1 htag
      . exact htags tag htag
      . rw [List.mem_singleton.1 htag]
        exact .directive .lineBreak nofun _ _ _
    . exact htags tag htag

theorem plain_form (text : List Char) : (form text).Plain (commandNames text) := by
  unfold form
  split
  . trivial
  . exact plain_ok (List.forall_mem_nil _)
  . exact plain_labelForm ..
  . trivial
  . next _ hcomment hlabel hmark =>
    split
    . exact plain_blockForm _
    . rw [commandNames_of_ne hcomment hlabel hmark]
      exact plain_textTags text

end Bracket

/--
But for save marks, the tags of a line are plain.
-/
theorem plain_form (grammar : Grammar) (text : List Char) : (grammar.form text).Plain (grammar.commandNames text) := by
  cases grammar with
  | line => exact Line.plain_form text
  | bracket => exact Bracket.plain_form text

namespace Form

variable {form : Form} {names : List String} {marks : Nat} {first : SourceLine} {following : List SourceLine}
  {portion : Portion}

theorem plain_of_portionOf {tags : Except ParseFault (List Tag)} {rest : List SourceLine}
    (htags : AllPlain names tags) (h : portionOf tags marks first rest = .ok portion)
    : ∀ tag ∈ portion.tags, tag.Plain names := by
  obtain ⟨written, hwritten, rfl⟩ := portionOf_eq_ok h
  intro tag htag
  obtain ⟨origin, horigin, rfl⟩ := List.mem_map.1 htag
  exact (htags written hwritten origin horigin).onLine first.number

theorem plain_of_read (hform : form.Plain names) (hmark : ∀ written, form ≠ .mark written)
    (h : form.read marks first following = .ok portion) : ∀ tag ∈ portion.tags, tag.Plain names := by
  cases form with
  | blank =>
    cases h
    intro tag htag
    change tag ∈ (if following.isEmpty then [] else [Tag.lineBreak first.number]) at htag
    split at htag
    . cases htag
    . rw [List.mem_singleton.1 htag]
      exact .directive .lineBreak nofun _ _ _
  | mark written => exact (hmark written rfl).elim
  | alone tags => exact plain_of_portionOf hform h
  | through closes unclosed tags =>
    unfold read at h
    dsimp only at h
    split at h
    . cases h
    . exact plain_of_portionOf (hform _ _) h

theorem wellMade_of_read (hform : form.Plain names) (hnames : ∀ name ∈ names, Tag.IsName name)
    (h : form.read marks first following = .ok portion) : ∀ tag ∈ portion.tags, tag.WellMade := by
  intro tag htag
  cases form with
  | mark written =>
    unfold read Construct.saveMark at h
    dsimp only at h
    split at h <;>
      (cases h
       rw [List.mem_singleton.1 htag]
       exact Tag.wellMade_directive ..)
  | blank | alone | through => exact (plain_of_read hform nofun h tag htag).wellMade hnames

end Form

/-! ### Tags of scripts -/

theorem Answers.tags {grammar : Grammar} {marks : Nat} {lines : List SourceLine} {tags : List Tag}
    (h : Answers grammar marks lines (.ok tags))
    : ∀ tag ∈ tags, tag.WellMade ∧ ∃ l ∈ lines, tag.line = l.number := by
  generalize hok : Except.ok tags = answer at h
  induction h generalizing tags with
  | nil marks =>
    cases hok
    exact nofun
  | error h => cases hok
  | @construct marks first following portion answer h _ ih =>
    cases answer with
    | error e => cases hok
    | ok behind =>
      cases hok
      obtain ⟨inner, rfl, _⟩ := Form.read_local h
      intro tag htag
      obtain htag | htag := List.mem_append.1 htag
      . have hmade := Form.wellMade_of_read (plain_form grammar first.text) isName_of_mem_commandNames h tag htag
        exact ⟨hmade, first, List.mem_cons_self, Form.read_line h tag htag⟩
      . obtain ⟨hmade, l, hl, hline⟩ := ih rfl tag htag
        exact ⟨hmade, l, List.mem_cons_of_mem _ (List.mem_append_right _ hl), hline⟩

theorem number_of_mem_sourceLines {source : String} {l : SourceLine} (h : l ∈ sourceLines source)
    : 1 ≤ l.number ∧ l.number ≤ lineCount source := by
  obtain ⟨i, hi⟩ := List.mem_iff_getElem?.1 h
  have hnumber : l.number = 1 + i := SourceLine.number_of_getElem? hi
  obtain ⟨hlt, _⟩ := List.getElem?_eq_some_iff.1 hi
  rw [lineCount]
  omega

theorem wellMade_of_parse {grammar : Grammar} {source : String} {tags : List Tag} (h : grammar.parse source = .ok tags)
    : ∀ tag ∈ tags, tag.WellMade ∧ 1 ≤ tag.line ∧ tag.line ≤ lineCount source := by
  obtain ⟨constructs, hanswers, rfl⟩ := exists_constructs h
  intro tag htag
  obtain htag | htag := List.mem_append.1 htag
  . obtain ⟨hmade, l, hl, hline⟩ := hanswers.tags tag htag
    rw [hline]
    exact ⟨hmade, number_of_mem_sourceLines hl⟩
  . rw [List.mem_singleton.1 htag]
    exact ⟨Tag.wellMade_directive .., lineCount_pos source, Nat.le_refl _⟩

/--
Every tag of a script has a body and stands on a line of the script.
-/
theorem tags_of_parse {grammar : Grammar} {source : String} {tags : List Tag} (h : grammar.parse source = .ok tags)
    : ∀ tag ∈ tags, tag.HasBody ∧ tag.line ≤ lineCount source := by
  intro tag htag
  obtain ⟨hmade, _, hline⟩ := wellMade_of_parse h tag htag
  exact ⟨hmade.hasBody, hline⟩

theorem length_splitAt (separator : Char) (cs : List Char)
    : (Path.splitAt separator cs).length = cs.count separator + 1 := by
  induction cs with
  | nil => rfl
  | cons c cs ih =>
    by_cases hc : c = separator
    . rw [Path.splitAt, if_pos hc, List.length_cons, ih, hc, List.count_cons_self]
    . obtain ⟨part, parts, hparts⟩ := List.exists_cons_of_ne_nil (Path.splitAt_ne_nil separator cs)
      rw [hparts] at ih
      rw [Path.splitAt_cons_of_ne separator hc hparts, List.count_cons_of_ne hc, ← ih]
      rfl

theorem lineCount_eq (source : String) : lineCount source = source.toList.count '\n' + 1 := by
  unfold lineCount sourceLines
  rw [SourceLine.length_enumerate, List.length_map, length_splitAt]

theorem length_le_utf8ByteSize (cs : List Char) : cs.length ≤ (String.ofList cs).utf8ByteSize := by
  induction cs with
  | nil => exact Nat.zero_le _
  | cons c cs ih =>
    have := Char.utf8Size_pos c
    rw [String.ofList_cons, String.utf8ByteSize_append, String.utf8ByteSize_singleton, List.length_cons]
    omega

/--
A script has at most one line more than bytes.
-/
theorem lineCount_le (source : String) : lineCount source ≤ source.utf8ByteSize + 1 := by
  have hbreaks : source.toList.count '\n' ≤ source.toList.length := List.count_le_length
  have hchars := length_le_utf8ByteSize source.toList
  rw [String.ofList_toList] at hchars
  rw [lineCount_eq]
  omega

end Grammar
end VisualNovel
