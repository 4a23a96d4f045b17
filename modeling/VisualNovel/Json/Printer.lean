import VisualNovel.Value.Basic

/-!
This module contains the JSON text of values, on one line or indented by two blanks a level.
-/

namespace VisualNovel
namespace Json

def hexDigit (n : Nat) : Char :=
  Nat.digitChar (n % 16)

/--
Only quotes, backslashes and control characters are escaped.
-/
def encodeChar (c : Char) : List Char :=
  if c = '"' then ['\\', '"']
  else if c = '\\' then ['\\', '\\']
  else if c = '\x08' then ['\\', 'b']
  else if c = '\x0c' then ['\\', 'f']
  else if c = '\n' then ['\\', 'n']
  else if c = '\r' then ['\\', 'r']
  else if c = '\t' then ['\\', 't']
  else if c < ' ' then ['\\', 'u', '0', '0', hexDigit (c.toNat / 16), hexDigit c.toNat]
  else [c]

def encodeString (s : String) : String :=
  "\"" ++ String.ofList (s.toList.flatMap encodeChar) ++ "\""

mutual

def compact : Value → String
  | .null => "null"
  | .bool b => if b then "true" else "false"
  | .number n => n.display
  | .string s => encodeString s
  | .array items => "[" ++ String.intercalate "," (compactItems items) ++ "]"
  | .object fields => "\x7b" ++ String.intercalate "," (compactFields fields) ++ "\x7d"

def compactItems : List Value → List String
  | [] => []
  | v :: vs => compact v :: compactItems vs

def compactFields : List (String × Value) → List String
  | [] => []
  | (k, v) :: fields => (encodeString k ++ ":" ++ compact v) :: compactFields fields

end

def indent (level : Nat) : String :=
  String.ofList ('\n' :: List.replicate (2 * level) ' ')

/--
Puts each part on a line of its own, between two brackets on the enclosing level.
-/
def block (first last : String) (level : Nat) (parts : List String) : String :=
  match parts with
  | [] => first ++ last
  | parts =>
    first ++ indent (level + 1) ++ String.intercalate ("," ++ indent (level + 1)) parts ++
      indent level ++ last

mutual

def pretty (level : Nat) : Value → String
  | .array items => block "[" "]" level (prettyItems (level + 1) items)
  | .object fields => block "\x7b" "\x7d" level (prettyFields (level + 1) fields)
  | v => compact v

def prettyItems (level : Nat) : List Value → List String
  | [] => []
  | v :: vs => pretty level v :: prettyItems level vs

def prettyFields (level : Nat) : List (String × Value) → List String
  | [] => []
  | (k, v) :: fields => (encodeString k ++ ": " ++ pretty level v) :: prettyFields level fields

end

end Json
end VisualNovel
