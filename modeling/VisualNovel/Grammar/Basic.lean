import VisualNovel.Expr.Error
import VisualNovel.Path
import VisualNovel.Tag
import VisualNovel.Text.Blank

/-!
This module contains the two grammars of scripts, the faults of their parsers, and what the grammars have
in common: a script is read construct by construct, and a construct takes one or more lines.
-/

namespace VisualNovel

inductive Grammar where
  | line
  | bracket
  deriving DecidableEq, Repr, Inhabited

/--
Why a script does not parse.
-/
inductive ParseFault where
  | missingTagName
  | missingLabelName
  | unclosedScript
  | unterminatedBlock (command : String)
  | badBlock (command : String) (error : Expr.Error)
  | blockNotObject (command : String)
  | unterminatedCommand (command : String)
  | unexpectedCharacter (command : String)
  | unterminatedQuote
  deriving Repr

def ParseFault.message : ParseFault → String
  | .missingTagName => "Command is missing a tag name."
  | .missingLabelName => "Label is missing a name."
  | .unclosedScript => "Script block opened with '---' is never closed."
  | .unterminatedBlock command => "Unterminated parameter block for command '" ++ command ++ "'."
  | .badBlock command error =>
    "Invalid parameter block for command '" ++ command ++ "': " ++ error.message
  | .blockNotObject command => "Parameter block for command '" ++ command ++ "' is not an object."
  | .unterminatedCommand command => "Unterminated '[' for command '" ++ command ++ "'."
  | .unexpectedCharacter command => "Unexpected character in command '" ++ command ++ "'."
  | .unterminatedQuote => "Unterminated quoted value."

/--
A fault and the line on which the faulty construct starts.
-/
structure ParseError where
  line : Nat
  fault : ParseFault
  deriving Repr

def ParseError.message (e : ParseError) : String :=
  "Syntax error at line " ++ toString e.line ++ ": " ++ e.fault.message

/--
A line of a script, without its end, and its number.
-/
structure SourceLine where
  number : Nat
  text : List Char
  deriving DecidableEq, Repr

namespace SourceLine

/--
A line without the carriage return at its end.
-/
def dropReturn (cs : List Char) : List Char :=
  match cs.reverse with
  | '\r' :: rest => rest.reverse
  | _ => cs

/--
Numbers lines, from the number of the first one on.
-/
def enumerate (first : Nat) : List (List Char) → List SourceLine
  | [] => []
  | text :: texts => { number := first, text } :: enumerate (first + 1) texts

def trimmed (l : SourceLine) : List Char :=
  Text.trim l.text

end SourceLine

/--
The lines of a script, of which there is at least one. They are numbered from one.
-/
def sourceLines (source : String) : List SourceLine :=
  SourceLine.enumerate 1 ((Path.splitAt '\n' source.toList).map SourceLine.dropReturn)

/--
What a construct contributes to a script: its tags, the number of save marks without a name up to here, and
the lines behind it.
-/
structure Construct (following : List SourceLine) where
  tags : List Tag
  marks : Nat
  rest : List SourceLine
  le : rest.length ≤ following.length

namespace Construct

/--
A construct on a single line.
-/
def single (tags : List Tag) (marks : Nat) (following : List SourceLine) : Construct following :=
  { tags, marks, rest := following, le := Nat.le_refl _ }

/--
A blank line is a line break, but not at the end of the script.
-/
def blank (marks : Nat) (first : SourceLine) (following : List SourceLine) : Construct following :=
  single (if following.isEmpty then [] else [.lineBreak first.number]) marks following

/--
A label: the name behind its marker.
-/
def label (marks : Nat) (first : SourceLine) (following : List SourceLine) (written : List Char)
    : Except ParseError (Construct following) :=
  match Text.trim written with
  | [] => .error { line := first.number, fault := .missingLabelName }
  | name => .ok (single [.label (String.ofList name) first.number] marks following)

/--
The name that a save mark gets which has none of its own.
-/
def generatedMark (marks : Nat) : String :=
  "__save_mark_" ++ toString marks ++ "__"

/--
The texts before and after the first bar.
-/
def splitBar? : List Char → Option (List Char × List Char)
  | [] => none
  | '|' :: cs => some ([], cs)
  | c :: cs => (splitBar? cs).map fun (before, after) => (c :: before, after)

/--
A save mark: name and comment with a bar between them, or a comment alone.
-/
def saveMark (marks : Nat) (first : SourceLine) (following : List SourceLine) (written : List Char)
    : Construct following :=
  let body := Text.trim written
  let text (cs : List Char) := String.ofList (Text.trim cs)
  match splitBar? body with
  | some (name, comment) =>
    single [.saveMark (text name) (text comment) (String.ofList body) first.number] marks following
  | none =>
    single [.saveMark (generatedMark marks) (String.ofList body) (String.ofList body) first.number]
      (marks + 1) following

/--
The line before and after the statements of a script block.
-/
def delimiter : List Char := ['-', '-', '-']

/--
The lines up to the next delimiter, and the lines behind it.
-/
def splitBlock? : (lines : List SourceLine) → Option (List SourceLine × Construct lines)
  | [] => none
  | l :: rest =>
    if l.trimmed = delimiter then
      some ([], { tags := [], marks := 0, rest, le := by simp })
    else
      (splitBlock? rest).map fun (inner, after) =>
        (l :: inner, { after with le := Nat.le_succ_of_le after.le })

def joinLines : List (List Char) → List Char
  | [] => []
  | [l] => l
  | l :: ls => l ++ '\n' :: joinLines ls

/--
A script block: the lines up to the closing delimiter, as they are.
-/
def block (marks : Nat) (first : SourceLine) (following : List SourceLine)
    : Except ParseError (Construct following) :=
  match splitBlock? following with
  | none => .error { line := first.number, fault := .unclosedScript }
  | some (inner, after) =>
    let body := String.ofList (joinLines (inner.map SourceLine.text))
    .ok { after with tags := [.script body false first.number], marks }

end Construct

namespace Grammar

/--
Reads one construct, given the number of nameless save marks before it, its first line, and the lines behind
it.
-/
abbrev Reader :=
  Nat → SourceLine → (following : List SourceLine) → Except ParseError (Construct following)

/--
The tags of all constructs from the given lines on.
-/
def readConstructs (read : Reader) (marks : Nat) (lines : List SourceLine)
    : Except ParseError (List Tag) :=
  match lines with
  | [] => .ok []
  | first :: following =>
    match read marks first following with
    | .error e => .error e
    | .ok c => do
      have := c.le
      let tags ← readConstructs read c.marks c.rest
      return c.tags ++ tags
termination_by lines.length

/--
The tags of a whole script, which end with the stop tag on the last line.
-/
def readSource (read : Reader) (source : String) : Except ParseError (List Tag) := do
  let lines := sourceLines source
  let tags ← readConstructs read 0 lines
  return tags ++ [.stop (max lines.length 1)]

def name : Grammar → String
  | .line => "line"
  | .bracket => "bracket"

/--
The grammar of a name in any case and between blanks, or the name as it was understood.
-/
def ofName (text : String) : Except String Grammar :=
  let name := String.ofList ((Text.trim text.toList).map Char.toLower)
  if name = "line" then .ok .line
  else if name = "bracket" then .ok .bracket
  else .error name

def unknownMessage (name : String) : String :=
  "Unknown grammar '" ++ name ++ "' (expected 'line' or 'bracket')."

/--
The extension of the files that are always in the bracket grammar.
-/
def bracketExtension : String := "ks"

/--
The grammar of a file, which depends on its extension.
-/
def ofPath (path : String) (default : Grammar) : Grammar :=
  if ((Path.extension? path).map String.toLower) = some bracketExtension then .bracket else default

end Grammar
end VisualNovel
