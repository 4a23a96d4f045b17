import VisualNovel.Command.Basic
import VisualNovel.Grammar.Parser
import VisualNovel.Json.Exchange

/-!
This module contains the command that lists the tags of a script, as a table or as JSON.
-/

namespace VisualNovel

namespace Listing

def padLeft (width : Nat) (text : String) : String :=
  String.ofList (List.replicate (width - text.length) ' ') ++ text

def padRight (width : Nat) (text : String) : String :=
  text ++ String.ofList (List.replicate (width - text.length) ' ')

/--
The values of a tag, without the text that they were written as.
-/
def describeValues (tag : Tag) : String :=
  let values := tag.values.filter fun (key, _) => key != Tag.bodyKey
  String.intercalate " " (values.map fun (key, value) => key ++ "=" ++ Json.compact value)

/--
The width of the names in a table, which is measured in bytes.
-/
def nameWidth (tags : List Tag) : Nat :=
  (tags.map (·.name.utf8ByteSize)).foldl max 0

/--
A row of a table: line, name and values. The names of directives stand out.
-/
def row (coloured : Bool) (width : Nat) (tag : Tag) : String :=
  let style := if (Directive.ofName? tag.name).isSome then Style.yellow else Style.cyan
  Style.dim.paint coloured (padLeft 5 (toString tag.line)) ++ " " ++
    style.paint coloured (padRight width tag.name) ++ " " ++ describeValues tag ++ "\n"

def table (coloured : Bool) (tags : List Tag) : String :=
  String.join (tags.map (row coloured (nameWidth tags))) ++ "\n" ++
    Style.bold.paint coloured (toString tags.length) ++ " " ++ Style.dim.paint coloured "tags" ++ "\n"

def json (tags : List Tag) : String :=
  Json.pretty 0 (.array (tags.map Tag.toValue)) ++ "\n"

end Listing

namespace Command

def listingName : String := "parse"

def listingSwitches : List Switch := [
  { name := "grammar", letter := some 'g' },
  { name := "json", takesValue := false }
]

/--
The grammar that is asked for, if any.
-/
def grammarOf (a : Arguments) : Command (Option Grammar) :=
  match (a.value? "grammar").map Grammar.ofName with
  | none => pure none
  | some (.ok grammar) => pure (some grammar)
  | some (.error _) => throw (.badArguments listingName)

/--
Lists the tags of a script file.
-/
def listTags (words : List String) : Command Unit := do
  let a ← readArguments listingName listingSwitches words
  let path ←
    match ← operand? listingName a with
    | none | some "" => throw (.badArguments listingName)
    | some path => pure path
  let grammar := (← grammarOf a).getD (Grammar.ofPath path .line)
  let console ← get
  let source ← require (.unreadable path) (console.disk.readText path)
  let tags ← require (.unparsable path) (grammar.parse source)
  print (if a.has "json" then Listing.json tags else Listing.table console.coloured tags)

end Command
end VisualNovel
