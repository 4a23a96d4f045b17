import VisualNovel.Library.Basic
import VisualNovel.Parameter
import VisualNovel.Reactor.Basic

/-!
This module contains the errors that end the playing of a script.
-/

namespace VisualNovel

inductive ConductorError where
  | script (error : CursorError)
  | library (error : LibraryError)
  | unknownTag (name : String) (line : Nat)
  | parameter (tag : String) (line : Nat) (error : ParameterError)
  | action (tag : String) (line : Nat) (message : String)
  | noCall (line : Nat)
  | load (file : String) (fault : Fault)
  | noScript
  deriving Repr

def ConductorError.message : ConductorError → String
  | .script error => error.message
  | .library error => error.message
  | .unknownTag name line => "Unknown tag '" ++ name ++ "' at line " ++ toString line
  | .parameter tag line error =>
    "Invalid parameters for tag '" ++ tag ++ "' at line " ++ toString line ++ ": " ++ error.message
  | .action tag line message =>
    "Tag '" ++ tag ++ "' at line " ++ toString line ++ " failed: " ++ message
  | .noCall line => "'return' at line " ++ toString line ++ " has no matching 'call'"
  | .load file fault => "Failed to load script '" ++ file ++ "': " ++ fault.message
  | .noScript => "No script has been started"

end VisualNovel
