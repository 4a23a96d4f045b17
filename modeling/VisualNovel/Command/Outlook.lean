import VisualNovel.Command.Run

/-!
This module contains what an invocation looks at: the paths and the environment variables that may matter to
it. There may be more of them than matter in the end.
-/

namespace VisualNovel
namespace Command

/--
The switches of all commands.
-/
def allSwitches : List Switch :=
  listingSwitches ++ sessionSwitches

/--
The arguments of whatever command is invoked.
-/
def argumentsOf (words : List String) : Arguments :=
  match readInvocation? words with
  | some (.run _ words) => (Arguments.read? allSwitches words).getD {}
  | _ => {}

/--
The configuration files that may matter.
-/
def configFiles (console : Console) (words : List String) : List String :=
  ((argumentsOf words).value? configSwitch.name).toList ++
    (Path.ancestors console.disk.currentPath).map (Path.join · Config.fileName)

/--
The files and directories that may matter. Those of the project are among them when its configuration is on
the disk.
-/
def outlook (console : Console) (words : List String) : List String :=
  let a := argumentsOf words
  let expanded := a.operands.filterMap fun operand =>
    (Template.expand console.environment operand).toOption
  let ofProject :=
    match console.perform (project (a.value? configSwitch.name)) with
    | (.ok p, _) => p.scripts :: p.systemFile :: (p.cache.map Cache.directory).toList
    | (.error _, _) => []
  configFiles console words ++ a.operands ++ expanded ++ ofProject

/--
The parts of a text that may be names of variables.
-/
def namesIn (text : String) : List String :=
  let cs := text.toList.map fun c => if Template.isNameChar c then c else ' '
  (Path.splitAt ' ' cs).map String.ofList

/--
The environment variables that may matter, as far as the configuration is on the disk.
-/
def variableNames (console : Console) (words : List String) : List String :=
  let texts := (configFiles console words).filterMap fun file => (console.disk.readText file).toOption
  ["HOME", "XDG_CACHE_HOME"] ++ (words ++ texts).flatMap namesIn

end Command
end VisualNovel
