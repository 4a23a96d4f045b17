import VisualNovel.Command.Arguments
import VisualNovel.Command.Error
import VisualNovel.Command.Style

/-!
This module contains the console that commands run on: what they see of the world, and what they have printed.
-/

namespace VisualNovel

structure Console where
  disk : Disk
  environment : Environment := []
  coloured : Bool := false
  /-- The lines that the reader will have entered. -/
  lines : List String := []
  printed : String := ""

namespace Console

/--
The lines of an input. The last one need not be ended.
-/
def linesOf (input : String) : List String :=
  let lines := (Path.splitAt '\n' input.toList).map String.ofList
  if lines.getLast? = some "" then lines.dropLast else lines

/--
The report of an error.
-/
def report (console : Console) (e : CommandError) : String :=
  "\n" ++ Style.boldRed.paint console.coloured "Error" ++ ": " ++ e.message ++ "\n"

end Console

/--
The computations of commands. What a command has printed and changed before it fails stays.
-/
abbrev Command := ExceptT CommandError (StateM Console)

def Console.perform {α : Type} (console : Console) (x : Command α) : Except CommandError α × Console :=
  (ExceptT.run x).run console

namespace Command

def print (text : String) : Command Unit :=
  modify fun console => { console with printed := console.printed ++ text }

def paint (style : Style) (text : String) : Command String := do
  return style.paint (← get).coloured text

/--
The result of a computation, whose errors are reported in the given way.
-/
def require {ε α : Type} (report : ε → CommandError) : Except ε α → Command α
  | .ok a => pure a
  | .error e => throw (report e)

/--
Changes the disk.
-/
def change {ε α : Type} (report : ε → CommandError) (x : Disk.Change ε α) : Command α := do
  let console ← get
  let (result, disk) := x.run.run console.disk
  set { console with disk }
  require report result

/--
The switch for the configuration file.
-/
def configSwitch : Switch := { name := "config", letter := some 'c' }

/--
The arguments of a command, of which the configuration file has a name.
-/
def readArguments (command : String) (switches : List Switch) (words : List String)
    : Command Arguments :=
  match Arguments.read? switches words with
  | some a =>
    if a.value? configSwitch.name = some "" then throw (.badArguments command) else pure a
  | none => throw (.badArguments command)

/--
At most one operand.
-/
def operand? (command : String) (a : Arguments) : Command (Option String) :=
  match a.operands with
  | [] => pure none
  | [operand] => pure (some operand)
  | _ => throw (.badArguments command)

/--
The project of a configuration file. If none is given, it is the nearest one around the current directory, and
if there is none, everything has its default.
-/
def project (config : Option String) : Command Project := do
  let console ← get
  let here := console.disk.currentPath
  match config.or (Project.find? console.disk here) with
  | some file => require (.config (some file)) (Project.load console.environment console.disk file)
  | none => require (.config none) (Project.resolve console.environment console.disk {} here)

end Command
end VisualNovel
