import VisualNovel.Grammar.Parser

/-!
This module contains the forms that the lines of a script have. The text of its first line alone tells what a construct
is and how far it goes, in both grammars.
-/

namespace VisualNovel

/--
The same tag on a line of another number.
-/
def Tag.onLine (number : Nat) (tag : Tag) : Tag :=
  { tag with line := number }

/--
What a construct contributes, whatever lines it has been read from.
-/
structure Portion where
  tags : List Tag
  marks : Nat
  rest : List SourceLine

def Construct.portion {following : List SourceLine} (c : Construct following) : Portion :=
  { tags := c.tags, marks := c.marks, rest := c.rest }

namespace Grammar

/--
The lines before the first one whose text closes something, this line, and the lines behind it.
-/
def splitThrough? (closes : List Char → Bool)
    : List SourceLine → Option (List SourceLine × SourceLine × List SourceLine)
  | [] => none
  | l :: rest =>
    if closes l.text then
      some ([], l, rest)
    else
      (splitThrough? closes rest).map fun (inner, closing, rest) => (l :: inner, closing, rest)

/--
What a line is the start of: a blank line, a save mark, a construct on this line alone, or one that goes on through the
first line that closes it. The tags are given as if they were on line zero.
-/
inductive Form where
  | blank
  | mark (written : List Char)
  | alone (tags : Except ParseFault (List Tag))
  | through (closes : List Char → Bool) (unclosed : ParseFault)
    (tags : List (List Char) → List Char → Except ParseFault (List Tag))

def portionOf (tags : Except ParseFault (List Tag)) (marks : Nat) (first : SourceLine) (rest : List SourceLine)
    : Except ParseError Portion :=
  match tags with
  | .error fault => .error { line := first.number, fault }
  | .ok tags => .ok { tags := tags.map (Tag.onLine first.number), marks, rest }

def Form.read (form : Form) (marks : Nat) (first : SourceLine) (following : List SourceLine)
    : Except ParseError Portion :=
  match form with
  | .blank => .ok (Construct.blank marks first following).portion
  | .mark written => .ok (Construct.saveMark marks first following written).portion
  | .alone tags => portionOf tags marks first following
  | .through closes unclosed tags =>
    match splitThrough? closes following with
    | none => .error { line := first.number, fault := unclosed }
    | some (inner, closing, rest) => portionOf (tags (inner.map SourceLine.text) closing.text) marks first rest

/-! ### The forms of both grammars -/

def labelForm (written : List Char) : Form :=
  match Text.trim written with
  | [] => .alone (.error .missingLabelName)
  | name => .alone (.ok [.label (String.ofList name) 0])

def blockForm : Form :=
  .through (Text.trim · = Construct.delimiter) .unclosedScript fun inner _ =>
    .ok [.script (String.ofList (Construct.joinLines inner)) false 0]

namespace Line

def commandTags (name : String) (block : List Char) : Except ParseFault (List Tag) :=
  match commandTag name block 0 with
  | .error e => .error e.fault
  | .ok tag => .ok [tag]

def commandForm (written : List Char) : Form :=
  match splitCommand? written with
  | none => .alone (.error .missingTagName)
  | some (name, block) =>
    let name := String.ofList name
    if block.head? == some '\x7b' && !block.contains '\x7d' then
      .through (·.contains '\x7d') (.unterminatedBlock name) fun inner closing =>
        commandTags name (Construct.joinLines (block :: (inner ++ [closing]).map Text.trim))
    else
      .alone (commandTags name block)

def form (text : List Char) : Form :=
  match Text.trim text with
  | [] => .blank
  | '#' :: _ => .alone (.ok [])
  | ';' :: written => commandForm written
  | '*' :: written => labelForm written
  | '~' :: written => .mark written
  | '-' :: written =>
    if '-' :: written = Construct.delimiter then
      blockForm
    else
      .alone (.ok [.script (String.ofList (Text.trim written)) false 0])
  | '=' :: written => .alone (.ok [.script (String.ofList (Text.trim written)) true 0])
  | _ => .alone (.ok (text.map (Tag.ofChar · 0) ++ [.lineBreak 0]))

end Line

namespace Bracket

def textTags (text : List Char) : Except ParseFault (List Tag) :=
  match readText 0 text with
  | .error fault => .error fault
  | .ok (tags, hasText) => .ok (if hasText then tags ++ [.lineBreak 0] else tags)

def form (text : List Char) : Form :=
  match Text.trim text with
  | [] => .blank
  | ';' :: _ => .alone (.ok [])
  | '*' :: written => labelForm written
  | '|' :: written => .mark written
  | trimmed => if trimmed = Construct.delimiter then blockForm else .alone (textTags text)

end Bracket

def form : Grammar → List Char → Form
  | .line => Line.form
  | .bracket => Bracket.form

/-! ### Lines that are looked for -/

theorem splitBlock?_eq (lines : List SourceLine)
    : match splitThrough? (Text.trim · = Construct.delimiter) lines with
      | none => Construct.splitBlock? lines = none
      | some (inner, _, rest) => ∃ after, Construct.splitBlock? lines = some (inner, after) ∧ after.rest = rest := by
  induction lines with
  | nil => rfl
  | cons l lines ih =>
    unfold splitThrough? Construct.splitBlock? SourceLine.trimmed
    by_cases hcloses : Text.trim l.text = Construct.delimiter
    . simp only [hcloses, decide_true, if_true]
      exact ⟨_, rfl, rfl⟩
    . simp only [hcloses, decide_false, if_false]
      cases hsplit : splitThrough? (Text.trim · = Construct.delimiter) lines with
      | none =>
        rw [hsplit] at ih
        simp [ih]
      | some split =>
        rw [hsplit] at ih
        obtain ⟨after, hafter, hrest⟩ := ih
        rw [hafter]
        exact ⟨_, rfl, hrest⟩

theorem splitAtBrace?_eq (lines : List SourceLine)
    : match splitThrough? (·.contains '\x7d') lines with
      | none => Line.splitAtBrace? lines = none
      | some (inner, closing, rest) =>
        ∃ after, Line.splitAtBrace? lines = some (inner ++ [closing], after) ∧ after.rest = rest := by
  induction lines with
  | nil => rfl
  | cons l lines ih =>
    unfold splitThrough?
    by_cases hcloses : l.text.contains '\x7d'
    . simp only [hcloses, if_true]
      exact ⟨_, if_pos hcloses, rfl⟩
    . have hstep : Line.splitAtBrace? (l :: lines) = (Line.splitAtBrace? lines).map _ := if_neg hcloses
      simp only [hcloses, hstep]
      cases hsplit : splitThrough? (·.contains '\x7d') lines with
      | none =>
        rw [hsplit] at ih
        simp [ih]
      | some split =>
        rw [hsplit] at ih
        obtain ⟨after, hafter, hrest⟩ := ih
        rw [hafter]
        exact ⟨_, rfl, hrest⟩

/-! ### Lines are read by their forms -/

section Reader

variable (marks : Nat) (first : SourceLine) (following : List SourceLine)

theorem label_portion (written : List Char)
    : (Construct.label marks first following written).map Construct.portion
        =
      (labelForm written).read marks first following := by
  unfold Construct.label labelForm
  cases Text.trim written <;> rfl

theorem block_portion
    : (Construct.block marks first following).map Construct.portion = blockForm.read marks first following := by
  have hsplit := splitBlock?_eq following
  simp only [Construct.block, blockForm, Form.read]
  cases hthrough : splitThrough? (Text.trim · = Construct.delimiter) following with
  | none =>
    rw [hthrough] at hsplit
    simp only [hsplit]
    rfl
  | some split =>
    rw [hthrough] at hsplit
    obtain ⟨after, hafter, hrest⟩ := hsplit
    simp only [hafter, ← hrest]
    rfl

namespace Line

theorem commandTag_portion {rest : List SourceLine} (name : String) (block : List Char)
    {build : Tag → Construct following} (hbuild : ∀ tag, (build tag).portion = { tags := [tag], marks, rest })
    : (do let tag ← commandTag name block first.number; return build tag).map Construct.portion
        =
      portionOf (commandTags name block) marks first rest := by
  have hok (tag : Tag)
      : (Except.ok (build tag) : Except ParseError _).map Construct.portion
        = .ok { tags := [tag], marks, rest } :=
    congrArg Except.ok (hbuild tag)
  unfold commandTags commandTag
  cases Expr.evaluateClosed ("(" ++ literal block ++ ")") with
  | error e => rfl
  | ok value =>
    cases value with
    | object values => exact hok _
    | _ => rfl

theorem command_portion (written : List Char)
    : (command marks first following written).map Construct.portion
        =
      (commandForm written).read marks first following := by
  unfold command commandForm
  cases splitCommand? written with
  | none => rfl
  | some parts =>
    obtain ⟨name, block⟩ := parts
    dsimp only
    split
    . have hsplit := splitAtBrace?_eq following
      simp only [Form.read]
      cases hthrough : splitThrough? (·.contains '\x7d') following with
      | none =>
        rw [hthrough] at hsplit
        simp only [hsplit]
        rfl
      | some split =>
        obtain ⟨inner, closing, rest⟩ := split
        rw [hthrough] at hsplit
        obtain ⟨after, hafter, rfl⟩ := hsplit
        simp only [hafter]
        have htexts : (inner ++ [closing]).map SourceLine.trimmed
            = (inner.map SourceLine.text ++ [closing.text]).map Text.trim := by
          simp [SourceLine.trimmed]
        rw [htexts]
        exact commandTag_portion marks first following _ _ fun _ => rfl
    . exact commandTag_portion marks first following _ _ fun _ => rfl

theorem text_portion
    : Except.map Construct.portion (.ok (text marks first following) : Except ParseError (Construct following))
        =
      (Form.alone (.ok (first.text.map (Tag.ofChar · 0) ++ [.lineBreak 0]))).read marks first following := by
  simp only [Form.read, portionOf, List.map_append, List.map_map]
  rfl

theorem dash_portion (written : List Char)
    : Except.map Construct.portion
          (if '-' :: written = Construct.delimiter then Construct.block marks first following
            else .ok (script false marks first following written))
        =
      (if '-' :: written = Construct.delimiter then blockForm
        else .alone (.ok [.script (String.ofList (Text.trim written)) false 0])).read marks first following := by
  split
  . exact block_portion marks first following
  . rfl

theorem read_portion
    : (read marks first following).map Construct.portion = (form first.text).read marks first following := by
  unfold read form SourceLine.trimmed
  generalize Text.trim first.text = trimmed
  split
  . rfl
  . rfl
  . exact command_portion marks first following _
  . exact label_portion marks first following _
  . rfl
  . next written => exact dash_portion marks first following written
  . rfl
  . refine (text_portion marks first following).trans ?_
    simp_all

end Line

namespace Bracket

theorem readCommand_eq (number : Nat) (cs : List Char)
    : readCommand number cs = (readCommand 0 cs).map (Taken.map (Tag.onLine number)) := by
  unfold readCommand
  dsimp only
  cases (Text.trimStart cs).takeWhile isWordPart with
  | nil => rfl
  | cons c word =>
    dsimp only
    cases readAttributes _ _ _ <;> rfl

theorem readText_eq (number : Nat) (cs : List Char)
    : readText number cs = (readText 0 cs).map fun (tags, hasText) => (tags.map (Tag.onLine number), hasText) := by
  fun_induction readText 0 cs with
  | case1 =>
    rw [readText]
    rfl
  | case2 rest ih =>
    rw [readText, ih]
    cases readText 0 rest <;> rfl
  | case3 rest hescape fault hcommand =>
    rw [readText, readCommand_eq, hcommand]
    . rfl
    . exact hescape
  | case4 rest hescape command hcommand _ ih =>
    rw [readText, readCommand_eq, hcommand]
    . dsimp only [Except.map, Taken.map]
      rw [ih]
      cases readText 0 command.rest <;> rfl
    . exact hescape
  | case5 c rest hescape hbracket ih =>
    rw [readText, ih]
    . cases readText 0 rest <;> rfl
    . exact hescape
    . exact hbracket

theorem text_portion
    : (text marks first following).map Construct.portion
        =
      (Form.alone (textTags first.text)).read marks first following := by
  simp only [Form.read]
  unfold text textTags
  rw [readText_eq]
  cases readText 0 first.text with
  | error fault => rfl
  | ok answer =>
    obtain ⟨tags, hasText⟩ := answer
    cases hasText with
    | false => rfl
    | true =>
      simp only [Except.map, portionOf, if_true, List.map_append]
      rfl

theorem read_portion
    : (read marks first following).map Construct.portion = (form first.text).read marks first following := by
  unfold read form SourceLine.trimmed
  generalize Text.trim first.text = trimmed
  split
  . rfl
  . rfl
  . exact label_portion marks first following _
  . rfl
  . split <;> simp_all [block_portion, text_portion]

end Bracket

/--
A construct is read by the form of its first line.
-/
theorem reader_portion (grammar : Grammar)
    : (grammar.reader marks first following).map Construct.portion
        =
      (grammar.form first.text).read marks first following := by
  cases grammar with
  | line => exact Line.read_portion marks first following
  | bracket => exact Bracket.read_portion marks first following

end Reader

end Grammar
end VisualNovel
