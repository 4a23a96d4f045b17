import VisualNovel.Expr.Eval
import VisualNovel.Grammar.Basic

/-!
This module contains the line grammar. The first character of a line that is not blank tells what it is: a
comment, a command with a block of parameters, a label, a save mark, a statement, an expression to print, or
else text.
-/

namespace VisualNovel
namespace Grammar
namespace Line

/--
The name and the parameters of a command, the text behind its marker. The name ends at a blank or a brace.
-/
def splitCommand? (written : List Char) : Option (List Char × List Char) :=
  let isNamePart (c : Char) := !Text.isBlank c && c != '\x7b'
  match (Text.trimStart written).span isNamePart with
  | ([], _) => none
  | (name, parameters) => some (name, Text.trim parameters)

/--
The lines up to the first one with a closing brace, and the lines behind it.
-/
def splitAtBrace? : (lines : List SourceLine) → Option (List SourceLine × Construct lines)
  | [] => none
  | l :: rest =>
    if l.text.contains '\x7d' then
      some ([l], { tags := [], marks := 0, rest, le := by simp })
    else
      (splitAtBrace? rest).map fun (inner, after) =>
        (l :: inner, { after with le := Nat.le_succ_of_le after.le })

/--
The parameters as an object literal. The braces may be left out.
-/
def literal (block : List Char) : String :=
  if block.head? == some '\x7b' then String.ofList block
  else String.ofList ('\x7b' :: block ++ ['\x7d'])

/--
The tag of a command whose parameters are complete.
-/
def commandTag (name : String) (block : List Char) (line : Nat) : Except ParseError Tag :=
  match Expr.evaluateClosed ("(" ++ literal block ++ ")") with
  | .error e => .error { line, fault := .badBlock name e }
  | .ok (.object values) =>
    .ok (.make name (Fields.insert Tag.bodyKey (.string (String.ofList block)) values) line)
  | .ok _ => .error { line, fault := .blockNotObject name }

/--
A command. Parameters that start with a brace and do not close it go on to the next line with a closing
brace.
-/
def command (marks : Nat) (first : SourceLine) (following : List SourceLine) (written : List Char)
    : Except ParseError (Construct following) :=
  match splitCommand? written with
  | none => .error { line := first.number, fault := .missingTagName }
  | some (name, block) =>
    let name := String.ofList name
    if block.head? == some '\x7b' && !block.contains '\x7d' then
      match splitAtBrace? following with
      | none => .error { line := first.number, fault := .unterminatedBlock name }
      | some (inner, after) => do
        let block := Construct.joinLines (block :: inner.map SourceLine.trimmed)
        let tag ← commandTag name block first.number
        return { after with tags := [tag], marks }
    else do
      let tag ← commandTag name block first.number
      return .single [tag] marks following

/--
A line of text, blanks included: a tag for each character, and a line break.
-/
def text (marks : Nat) (first : SourceLine) (following : List SourceLine) : Construct following :=
  .single (first.text.map (Tag.ofChar · first.number) ++ [.lineBreak first.number]) marks following

/--
A statement, or an expression to print.
-/
def script (print : Bool) (marks : Nat) (first : SourceLine) (following : List SourceLine)
    (written : List Char) : Construct following :=
  .single [.script (String.ofList (Text.trim written)) print first.number] marks following

def read : Reader := fun marks first following =>
  match first.trimmed with
  | [] => .ok (.blank marks first following)
  | '#' :: _ => .ok (.single [] marks following)
  | ';' :: written => command marks first following written
  | '*' :: written => Construct.label marks first following written
  | '~' :: written => .ok (.saveMark marks first following written)
  | '-' :: written =>
    if '-' :: written = Construct.delimiter then
      Construct.block marks first following
    else
      .ok (script false marks first following written)
  | '=' :: written => .ok (script true marks first following written)
  | _ => .ok (text marks first following)

end Line
end Grammar
end VisualNovel
