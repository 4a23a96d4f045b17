import VisualNovel.Disk.Access
import VisualNovel.Json.Printer
import VisualNovel.Json.Reader
import VisualNovel.Json.Record
import VisualNovel.Variables

/-!
This module contains the storage of what belongs to the player: the system variables and the passed save
marks, as one JSON file.
-/

namespace VisualNovel

inductive StorageError where
  | io (path : String) (fault : DiskFault)
  | malformed (path : String)
  deriving DecidableEq, Repr

def StorageError.message : StorageError → String
  | .io path fault => "I/O error while accessing '" ++ path ++ "': " ++ fault.message
  | .malformed path => "Failed to parse system data at '" ++ path ++ "': not a system snapshot"

namespace Variables

def systemText (vars : Variables) : String :=
  Json.pretty 0 (.object [
    ("vars", .object vars.system),
    ("read_marks", .array (vars.readMarks.map .string))
  ])

/--
Takes the system variables and the save marks from a text. Either of them may be left out.
-/
def withSystemText? (vars : Variables) (text : String) : Option Variables := do
  match ← (← Json.read? text).record? ["vars", "read_marks"] with
  | [system, marks] =>
    let system ← (system.map Json.fields?).getD (some [])
    let marks ← (marks.map Json.strings?).getD (some [])
    return { vars with system, readMarks := marks.foldl (fun marks key => insertMark key marks) [] }
  | _ => none

/--
Writes the file, and makes the directory for it if there is none.
-/
def save (vars : Variables) (path : String) : Disk.Change StorageError Unit := do
  match (Path.parent? path).filter (· != "") with
  | some parent => Disk.ensureDirectories (.io parent) parent
  | none => pure ()
  Disk.change (.io path) (·.writeText path vars.systemText)

/--
Reads the file. One that does not exist changes nothing.
-/
def load (vars : Variables) (disk : Disk) (path : String) : Except StorageError Variables :=
  match disk.readText path with
  | .error .notFound => .ok vars
  | .error fault => .error (.io path fault)
  | .ok text =>
    match vars.withSystemText? text with
    | some vars => .ok vars
    | none => .error (.malformed path)

end Variables
end VisualNovel
