import VisualNovel.Conductor.Basic
import VisualNovel.Text.Quoted

/-!
This module contains the description of a conductor that a log shows.
-/

namespace VisualNovel

def Status.name : Status → String
  | .running => "Run"
  | .stopped => "Stop"
  | .asleep => "Sleep"

/--
A record of the given name and fields.
-/
def describeRecord (name : String) (fields : List (String × String)) : String :=
  name ++ " \x7b " ++ String.intercalate ", " (fields.map fun (key, text) => key ++ ": " ++ text) ++ " \x7d"

def describeOption : Option String → String
  | some text => "Some(" ++ text ++ ")"
  | none => "None"

def Target.describe : Target → String
  | .start => "Start"
  | .label name => "Label(" ++ Text.quote name ++ ")"
  | .saveMark name => "SaveMark(" ++ Text.quote name ++ ")"

def EntryMode.describe : EntryMode → String
  | .jump => "Jump"
  | .call => "Call"

mutual

def Value.describe : Value → String
  | .null => "Null"
  | .bool b => "Bool(" ++ (if b then "true" else "false") ++ ")"
  | .number n => "Number(" ++ n.display ++ ")"
  | .string s => "String(" ++ Text.quote s ++ ")"
  | .array items => "Array [" ++ String.intercalate ", " (Value.describeItems items) ++ "]"
  | .object fields =>
    "Object \x7b" ++ String.intercalate ", " (Value.describeFields fields) ++ "\x7d"

def Value.describeItems : List Value → List String
  | [] => []
  | v :: vs => Value.describe v :: Value.describeItems vs

def Value.describeFields : List (String × Value) → List String
  | [] => []
  | (key, v) :: fields => (Text.quote key ++ ": " ++ Value.describe v) :: Value.describeFields fields

end

def Fields.describe (fields : Fields) : String :=
  "\x7b" ++ String.intercalate ", " (Value.describeFields fields) ++ "\x7d"

def Pending.describe (reactor : Reactor Cursor) : Pending → String
  | .wait promise tag line => describeRecord "Wait" [
      ("callbacks", Promise.describe (reactor.outcome? promise)),
      ("tag", Text.quote tag),
      ("line", toString line)
    ]
  | .load promise file target mode game => describeRecord "Load" [
      ("callbacks", Promise.describe (reactor.outcome? promise)),
      ("file", Text.quote file),
      ("target", target.describe),
      ("mode", mode.describe),
      ("restore", describeOption (game.map Fields.describe))
    ]

def Conductor.describe {H : Type} (c : Conductor H) : String :=
  describeRecord "Conductor" [
    ("status", c.status.name),
    ("script", describeOption (c.cursor.map fun cursor => Text.quote cursor.file)),
    ("call_depth", toString c.callers.length),
    ("actions", toString c.actions.length),
    ("pending", describeOption (c.pending.map (Pending.describe c.reactor)))
  ]

end VisualNovel
