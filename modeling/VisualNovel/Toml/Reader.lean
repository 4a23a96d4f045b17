import VisualNovel.Toml.Basic
import VisualNovel.Toml.Moment
import VisualNovel.Toml.Number
import VisualNovel.Toml.Text

/-!
This module contains the reader of TOML documents, as far as a configuration uses them: it refuses arrays of
headed tables, and keeps nothing of numbers with a fraction, of dates and of times.
-/

namespace VisualNovel
namespace Toml

/-! ### Blanks and comments -/

/--
Skips blanks, comments and line breaks.
-/
def skipFiller? (comment : Bool) : List Char → Option (List Char)
  | [] => some []
  | '\n' :: cs => skipFiller? false cs
  | '\r' :: '\n' :: cs => skipFiller? false cs
  | c :: cs =>
    if comment then
      if isControl c then none else skipFiller? true cs
    else if isSpace c then
      skipFiller? false cs
    else if c = '#' then
      skipFiller? true cs
    else
      some (c :: cs)

theorem length_skipFiller?_le {comment : Bool} {cs rest : List Char}
    (h : skipFiller? comment cs = some rest) : rest.length ≤ cs.length := by
  fun_induction skipFiller? comment cs <;> grind

/--
Skips what may follow a statement on its line, and the end of the line.
-/
def endLine? (comment : Bool) : List Char → Option (List Char)
  | [] => some []
  | '\n' :: cs => some cs
  | '\r' :: '\n' :: cs => some cs
  | c :: cs =>
    if comment then
      if isControl c then none else endLine? true cs
    else if isSpace c then
      endLine? false cs
    else if c = '#' then
      endLine? true cs
    else
      none

theorem length_endLine?_le {comment : Bool} {cs rest : List Char}
    (h : endLine? comment cs = some rest) : rest.length ≤ cs.length := by
  fun_induction endLine? comment cs <;> grind

def skipSpaces (cs : List Char) : List Char :=
  cs.dropWhile isSpace

theorem length_skipSpaces_le (cs : List Char) : (skipSpaces cs).length ≤ cs.length :=
  (List.dropWhile_sublist isSpace).length_le

/-! ### Keys -/

def isBare (c : Char) : Bool :=
  c.isAlphanum || c == '_' || c == '-'

def readKeyPart? (cs : List Char) : Option (Taken cs String) :=
  match cs with
  | [] => none
  | c :: rest =>
    if c = '"' || c = '\'' then
      (readQuoted? c rest).map fun t => (t.map String.ofList).behind
    else if isBare c then
      some ((Taken.span isBare c rest).map String.ofList)
    else
      none

/--
Reads the parts of a key, which are separated by points, and the blanks around them.
-/
def readKeyParts? (cs : List Char) : Option (Taken cs (List String)) :=
  have hle := length_skipSpaces_le cs
  match readKeyPart? (skipSpaces cs) with
  | none => none
  | some part =>
    have hpart := part.shorter
    have hrest := length_skipSpaces_le part.rest
    match h : skipSpaces part.rest with
    | '.' :: rest =>
      have hlt : rest.length < cs.length := by rw [h] at hrest; simp at hrest; omega
      (readKeyParts? rest).map fun t => (t.map (part.value :: ·)).widen (by omega)
    | rest => some { value := [part.value], rest, shorter := by rw [h] at hrest; omega }
termination_by cs.length

/--
The depth to which arrays and tables in braces may be nested, and the number of parts that a key may have.
-/
def maxDepth : Nat := 80

/--
Reads a key.
-/
def readKey? (cs : List Char) : Option (Taken cs (List String)) :=
  (readKeyParts? cs).filter (·.value.length ≤ maxDepth)

/-! ### Values -/

/--
Values without quotes go up to a blank, a comment or a sign of punctuation.
-/
def isPlain (c : Char) : Bool :=
  !(isSpace c || c == '\n' || c == '\r' || c == '#' || c == '=' || c == ',' || c == '[' || c == ']' ||
    c == '\x7b' || c == '\x7d')

def readWord? (cs : List Char) : Option Setting :=
  if cs = ['t', 'r', 'u', 'e'] then some (.flag true)
  else if cs = ['f', 'a', 'l', 's', 'e'] then some (.flag false)
  else if Moment.isMoment cs then some .other
  else readNumber? cs

/--
Reads a value without quotes from its first character on. A blank may stand between a date and a time.
-/
def readPlain? (c : Char) (cs : List Char) : Option (Taken (c :: cs) Setting) :=
  let word := Taken.span isPlain c cs
  let words : Taken (c :: cs) (List Char) :=
    match h : word.rest with
    | ' ' :: d :: rest =>
      if Moment.isDate word.value && d.isDigit then
        have hlt := Taken.length_lt_of_eq_cons h (Nat.le_of_lt word.shorter)
        ((Taken.span isPlain d rest).map fun time => word.value ++ ' ' :: time).within hlt
      else
        word
    | _ => word
  (readWord? words.value).map fun value => words.map fun _ => value

/--
Reads a text in quotes, or a value without them.
-/
def readScalar? (cs : List Char) : Option (Taken cs Setting) :=
  match cs with
  | [] => none
  | c :: rest =>
    if c = '"' || c = '\'' then
      match rest with
      | d :: e :: lines =>
        if d = c && e = c then
          (readLines? c (dropLineBreak lines)).map fun t =>
            let t := t.map fun text => .text (String.ofList text)
            (t.widen (length_dropLineBreak_le lines)).behind.behind.behind
        else
          (readQuoted? c (d :: e :: lines)).map fun t =>
            (t.map fun text => .text (String.ofList text)).behind
      | rest =>
        (readQuoted? c rest).map fun t => (t.map fun text => .text (String.ofList text)).behind
    else if isPlain c then
      readPlain? c rest
    else
      none

mutual

/--
Reads a value, in which arrays and tables may be nested up to a depth.
-/
def readValue? (depth : Nat) (cs : List Char) : Option (Taken cs Setting) :=
  have hle := length_skipSpaces_le cs
  match depth, h : skipSpaces cs with
  | 0, '[' :: _ | 0, '\x7b' :: _ => none
  | depth + 1, '[' :: rest =>
    have hlt := Taken.length_lt_of_eq_cons h hle
    (readItems? depth rest).map fun t => (t.map .list).within hlt
  | depth + 1, '\x7b' :: rest =>
    have hlt := Taken.length_lt_of_eq_cons h hle
    (readPairs? depth .root rest).map fun t => (t.map Node.toSetting).within hlt
  | _, rest => (readScalar? rest).map fun t => t.widen (Taken.length_le_of_eq h hle)
termination_by 2 * cs.length

/--
Reads the items of an array and its closing bracket.
-/
def readItems? (depth : Nat) (cs : List Char) : Option (Taken cs (List Setting)) :=
  match h : skipFiller? false cs with
  | some (']' :: rest) =>
    some { value := [], rest, shorter := by have := length_skipFiller?_le h; simp at this; omega }
  | some start =>
    have hstart := length_skipFiller?_le h
    match readValue? depth start with
    | none => none
    | some item =>
      have hitem := item.shorter
      match h' : skipFiller? false item.rest with
      | some (',' :: rest) =>
        have hlt : rest.length < cs.length := by
          have := length_skipFiller?_le h'; simp at this; omega
        (readItems? depth rest).map fun t => (t.map (item.value :: ·)).widen (by omega)
      | some (']' :: rest) =>
        some {
          value := [item.value]
          rest
          shorter := by have := length_skipFiller?_le h'; simp at this; omega
        }
      | _ => none
  | none => none
termination_by 2 * cs.length + 1

/--
Reads the members of a table in braces and its closing brace.
-/
def readPairs? (depth : Nat) (table : Node) (cs : List Char) : Option (Taken cs Node) :=
  match h : skipFiller? false cs with
  | some ('\x7d' :: rest) =>
    some { value := table, rest, shorter := by have := length_skipFiller?_le h; simp at this; omega }
  | some start =>
    have hstart := length_skipFiller?_le h
    match readKey? start with
    | none => none
    | some path =>
      have hpath := path.shorter
      match hsign : skipFiller? false path.rest with
      | some ('=' :: behindSign) =>
        match hfirst : skipFiller? false behindSign with
        | none => none
        | some first =>
          have hsigned : first.length < cs.length := by
            have := length_skipFiller?_le hsign
            have := length_skipFiller?_le hfirst
            simp at *
            omega
          match readValue? depth first with
          | none => none
          | some value =>
            have hvalue := value.shorter
            match table.addPair [] path.value value.value with
            | none => none
            | some table =>
              match h' : skipFiller? false value.rest with
              | some (',' :: rest) =>
                have hlt : rest.length < cs.length := by
                  have := length_skipFiller?_le h'; simp at this; omega
                (readPairs? depth table rest).map fun t => t.widen (by omega)
              | some ('\x7d' :: rest) =>
                some {
                  value := table
                  rest
                  shorter := by have := length_skipFiller?_le h'; simp at this; omega
                }
              | _ => none
      | _ => none
  | none => none
termination_by 2 * cs.length + 1

end

/-! ### Documents -/

/--
A statement is the header of a section, or a key with its value in the section.
-/
inductive Statement where
  | header (path : List String)
  | pair (path : List String) (setting : Setting)

/--
Reads a statement and the end of its line.
-/
def readStatement? (cs : List Char) : Option (Taken cs Statement) :=
  match cs with
  | '[' :: rest =>
    match readKey? rest with
    | none => none
    | some path =>
      have hpath := path.shorter
      match hclose : path.rest with
      | ']' :: after =>
        match h : endLine? false after with
        | some rest =>
          some {
            value := .header path.value
            rest
            shorter := by
              have := length_endLine?_le h
              have := congrArg List.length hclose
              simp at this ⊢
              omega
          }
        | none => none
      | _ => none
  | cs =>
    match readKey? cs with
    | none => none
    | some path =>
      have hpath := path.shorter
      match hsign : path.rest with
      | '=' :: afterSign =>
        match readValue? maxDepth afterSign with
        | none => none
        | some value =>
          have hvalue := value.shorter
          match h : endLine? false value.rest with
          | some rest =>
            some {
              value := .pair path.value value.value
              rest
              shorter := by
                have := length_endLine?_le h
                have := congrArg List.length hsign
                simp at this
                omega
            }
          | none => none
      | _ => none

def readStatements? (section_ : List String) (root : Node) (cs : List Char) : Option Node :=
  match _h : skipFiller? false cs with
  | none => none
  | some [] => some root
  | some (c :: start) =>
    match readStatement? (c :: start) with
    | none => none
    | some t =>
      match t.value with
      | .header path => do readStatements? path (← root.addHeader path) t.rest
      | .pair path setting => do
        readStatements? section_ (← root.addPair section_ path setting) t.rest
termination_by cs.length
decreasing_by
  all_goals
    have := length_skipFiller?_le _h
    have := t.shorter
    omega

/--
Reads a whole text as one document. A byte order mark may come first.
-/
def read? (text : String) : Option Setting :=
  let cs :=
    match text.toList with
    | '\ufeff' :: cs => cs
    | cs => cs
  (readStatements? [] .root cs).map Node.toSetting

end Toml
end VisualNovel
