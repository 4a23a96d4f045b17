import VisualNovel.Cache.Basic
import VisualNovel.Conductor.Error
import VisualNovel.Config.Project
import VisualNovel.Variables.Storage

/-!
This module contains the errors that end a command. An error is reported together with its causes, the
nearest one first.
-/

namespace VisualNovel

/--
Why a command has failed.
-/
inductive CommandError where
  | badInvocation
  | badArguments (command : String)
  | unknownCommand (name : String)
  | unreadable (path : String) (fault : DiskFault)
  | unparsable (path : String) (error : ParseError)
  | config (file : Option String) (error : ConfigError)
  | library (error : LibraryError)
  | failedScripts (failed total : Nat)
  | noCache
  | cache (error : CacheError)
  | storage (error : StorageError)
  | unsaved (error : StorageError)
  | conductor (error : ConductorError)
  | stalled
  deriving Repr

def CursorError.trail (e : CursorError) : List String :=
  match e with
  | .expression _ cause => [e.message, cause.message]
  | _ => [e.message]

def LibraryError.trail (e : LibraryError) : List String :=
  match e with
  | .io _ fault => [e.message, fault.message]
  | .parse _ cause => [e.message, cause.message]
  | .scan .. => [e.message]

def ConductorError.trail (e : ConductorError) : List String :=
  match e with
  | .script e => e.trail
  | .library e => e.trail
  | .parameter _ _ cause => [e.message, cause.message]
  | _ => [e.message]

def ConfigError.trail (e : ConfigError) : List String :=
  match e with
  | .io _ fault => [e.message, fault.message]
  | _ => [e.message]

def StorageError.trail (e : StorageError) : List String :=
  match e with
  | .io _ fault => [e.message, fault.message]
  | .malformed _ => [e.message]

def CacheError.trail (e : CacheError) : List String :=
  match e with
  | .io _ fault => [e.message, fault.message]
  | .unreadable .. => [e.message]

namespace CommandError

def trail : CommandError → List String
  | .badInvocation => ["the program was called in a wrong way"]
  | .badArguments command => ["wrong arguments for '" ++ command ++ "'"]
  | .unknownCommand name => ["Unknown command '" ++ name ++ "'."]
  | .unreadable path fault => ["Failed to read '" ++ path ++ "'", fault.message]
  | .unparsable path error => ["Failed to parse '" ++ path ++ "'", error.message]
  | .config (some file) error => ("Failed to load config '" ++ file ++ "'") :: error.trail
  | .config none error => error.trail
  | .library error => error.trail
  | .failedScripts failed total =>
    [toString failed ++ " of " ++ toString total ++ " script(s) failed to parse."]
  | .noCache => ["The tag cache is disabled in the configuration."]
  | .cache error => error.trail
  | .storage error => error.trail
  | .unsaved error => "Failed to save system variables" :: error.trail
  | .conductor error => error.trail
  | .stalled => ["Playback stalled: the script is waiting for something that will never happen."]

def message (e : CommandError) : String :=
  String.intercalate ": " e.trail

/--
The code with which the program exits.
-/
def code : CommandError → Nat
  | .badInvocation => 2
  | _ => 1

end CommandError
end VisualNovel
