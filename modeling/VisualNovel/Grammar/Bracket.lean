import VisualNovel.Grammar.Basic
import VisualNovel.Taken

/-!
This module contains the bracket grammar. Comments, labels, save marks and script blocks take lines of their
own; any other line is text with commands in brackets between its characters.
-/

namespace VisualNovel
namespace Grammar
namespace Bracket

/--
The characters of names: all but blanks, brackets, quotes and the equals sign.
-/
def isWordPart (c : Char) : Bool :=
  !Text.isBlank c && c != '=' && c != ']' && c != '[' && c != '"' && c != '\''

/--
The value of a text without quotes: one of three words, a whole number, a double, or else the text itself.
-/
def typedValue (raw : List Char) : Value :=
  let text := String.ofList raw
  if text = "true" then .bool true
  else if text = "false" then .bool false
  else if text = "null" then .null
  else
    match Text.readInt64? raw with
    | some i => .number (.int i)
    | none =>
      match Binary64.read? raw with
      | some (.finite s u) => .number (.float s u)
      | _ => .string text

/--
Reads the rest of a quoted value. A backslash takes the meaning from a quote, and gives one to two letters.
-/
def readQuoted (quote : Char) : (cs : List Char) → Except ParseFault (Taken cs (List Char))
  | [] => .error .unterminatedQuote
  | '\\' :: [] => .error .unterminatedQuote
  | '\\' :: c :: cs => do
    let t ← readQuoted quote cs
    let char := if c = 'n' then '\n' else if c = 't' then '\t' else c
    return (t.map (char :: ·)).behind.behind
  | c :: cs =>
    if c = quote then
      .ok (.first [])
    else do
      let t ← readQuoted quote cs
      return (t.map (c :: ·)).behind

/--
Reads the value behind an equals sign, which may be empty.
-/
def readValue (c : Char) (cs : List Char) : Except ParseFault (Taken (c :: cs) Value) :=
  have htrim := Text.length_trimStart_le cs
  match h : Text.trimStart cs with
  | '"' :: rest => do
    have hlt := Taken.length_lt_of_eq_cons h htrim
    let t ← readQuoted '"' rest
    return ((t.map fun s => .string (String.ofList s)).within hlt).behind
  | '\'' :: rest => do
    have hlt := Taken.length_lt_of_eq_cons h htrim
    let t ← readQuoted '\'' rest
    return ((t.map fun s => .string (String.ofList s)).within hlt).behind
  | rest =>
    let isRaw (c : Char) := !Text.isBlank c && c != ']'
    .ok {
      value := typedValue (rest.takeWhile isRaw)
      rest := rest.dropWhile isRaw
      shorter := Nat.lt_succ_of_le
        (Nat.le_trans (List.dropWhile_sublist isRaw).length_le (Taken.length_le_of_eq h htrim))
    }

/--
Reads a name with its value. A name without a value stands for true.
-/
def readAttribute (command : String) (cs : List Char) : Except ParseFault (Taken cs (String × Value)) :=
  match cs with
  | [] => .error (.unterminatedCommand command)
  | c :: rest =>
    if isWordPart c then
      let key := String.ofList (c :: rest.takeWhile isWordPart)
      let behind := rest.dropWhile isWordPart
      have hbehind : behind.length ≤ rest.length := (List.dropWhile_sublist _).length_le
      have htrim := Text.length_trimStart_le behind
      match h : Text.trimStart behind with
      | '=' :: written => do
        let t ← readValue '=' written
        return ((t.map (key, ·)).widen
          (Nat.le_trans (Taken.length_le_of_eq h htrim) hbehind)).behind
      | after => .ok {
          value := (key, .bool true)
          rest := after
          shorter := Nat.lt_succ_of_le (Nat.le_trans (Taken.length_le_of_eq h htrim) hbehind)
        }
    else
      .error (.unexpectedCharacter command)

/--
Reads the attributes of a command and its closing bracket.
-/
def readAttributes (command : String) (values : Fields) (cs : List Char)
    : Except ParseFault (Taken cs Fields) :=
  have htrim := Text.length_trimStart_le cs
  match h : Text.trimStart cs with
  | [] => .error (.unterminatedCommand command)
  | c :: rest =>
    if c = ']' then
      .ok { value := values, rest, shorter := Taken.length_lt_of_eq_cons h htrim }
    else
      match readAttribute command (c :: rest) with
      | .error e => .error e
      | .ok entry => do
        have hlt := Nat.lt_of_lt_of_le entry.shorter (Taken.length_le_of_eq h htrim)
        let (key, value) := entry.value
        let t ← readAttributes command (Fields.insert key value values) entry.rest
        return t.within hlt
termination_by cs.length

/--
Reads a command, from behind its opening bracket. Its body is the text between the brackets.
-/
def readCommand (line : Nat) (cs : List Char) : Except ParseFault (Taken cs Tag) :=
  let start := Text.trimStart cs
  match start.takeWhile isWordPart with
  | [] => .error .missingTagName
  | word => do
    let name := String.ofList word
    let behind := start.dropWhile isWordPart
    let t ← readAttributes name [] behind
    let body := Text.trim (cs.take (cs.length - (t.rest.length + 1)))
    let values := Fields.insert Tag.bodyKey (.string (String.ofList body)) t.value
    return (t.map fun _ => .make name values line).widen
      (Nat.le_trans (List.dropWhile_sublist isWordPart).length_le (Text.length_trimStart_le cs))

/--
The tags of a text with commands, and whether there is a character among them. Two opening brackets stand for
one.
-/
def readText (line : Nat) (cs : List Char) : Except ParseFault (List Tag × Bool) :=
  match cs with
  | [] => .ok ([], false)
  | '[' :: '[' :: rest => do
    let (tags, _) ← readText line rest
    return (.ofChar '[' line :: tags, true)
  | '[' :: rest =>
    match readCommand line rest with
    | .error e => .error e
    | .ok command => do
      have := command.shorter
      let (tags, hasText) ← readText line command.rest
      return (command.value :: tags, hasText)
  | c :: rest => do
    let (tags, _) ← readText line rest
    return (.ofChar c line :: tags, true)
termination_by cs.length

/--
A line of text, which ends with a line break unless it holds nothing but commands.
-/
def text (marks : Nat) (first : SourceLine) (following : List SourceLine)
    : Except ParseError (Construct following) :=
  match readText first.number first.text with
  | .error fault => .error { line := first.number, fault }
  | .ok (tags, hasText) =>
    .ok (.single (if hasText then tags ++ [.lineBreak first.number] else tags) marks following)

def read : Reader := fun marks first following =>
  match first.trimmed with
  | [] => .ok (.blank marks first following)
  | ';' :: _ => .ok (.single [] marks following)
  | '*' :: written => Construct.label marks first following written
  | '|' :: written => .ok (.saveMark marks first following written)
  | trimmed =>
    if trimmed = Construct.delimiter then
      Construct.block marks first following
    else
      text marks first following

end Bracket
end Grammar
end VisualNovel
