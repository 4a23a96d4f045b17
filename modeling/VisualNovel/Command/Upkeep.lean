import VisualNovel.Command.Basic
import VisualNovel.Library.Preload

/-!
This module contains the commands that look after a project: one checks that its scripts parse, the other
shows and clears its cache.
-/

namespace VisualNovel
namespace Command

def checkName : String := "check"

/--
Parses all scripts in a directory, and lists the errors.
-/
def checkScripts (words : List String) : Command Unit := do
  let a ← readArguments checkName [configSwitch] words
  let directory ← operand? checkName a
  let project ← project (a.value? configSwitch.name)
  let console ← get
  let directory ←
    match directory with
    | some path =>
      require (.config none) (Project.expandPath console.environment console.disk.currentPath path)
    | none => pure project.scripts
  let lib := { project.library console.disk with directory }
  let files ← require .library lib.scriptFiles
  print ("Checking " ++ toString files.length ++ " script(s) in " ++ (← paint .cyan directory) ++ "\n")
  let (errors, lib) ← require .library lib.preload
  modify fun console => { console with disk := lib.disk }
  for e in errors do
    print ("  " ++ (← paint .red "✗") ++ " " ++ e.message ++ "\n")
  if !errors.isEmpty then
    throw (.failedScripts errors.length files.length)
  print ((← paint .green "✓") ++ " All scripts parsed.\n")

def cacheName : String := "cache"

/--
The action on the cache that is asked for, and the configuration file. A file that is named behind the action
counts more than one before it.
-/
def readCacheAction (words : List String) : Command (String × Option String) := do
  match Arguments.readAction? [configSwitch] words with
  | none => throw (.badArguments cacheName)
  | some (outer, action, words) =>
    let inner ← readArguments cacheName [configSwitch] words
    if outer.value? configSwitch.name = some "" || !inner.operands.isEmpty then
      throw (.badArguments cacheName)
    return (action, (inner.value? configSwitch.name).or (outer.value? configSwitch.name))

/--
The cache of a project.
-/
def cacheOf (config : Option String) : Command Cache := do
  match (← project config).cache with
  | some cache => return cache
  | none => throw .noCache

/--
Shows the directory of the cache, or removes the scripts in it.
-/
def manageCache (words : List String) : Command Unit := do
  let (action, config) ← readCacheAction words
  match action with
  | "path" => print ((← cacheOf config).directory ++ "\n")
  | "clear" =>
    let cache ← cacheOf config
    let removed ← change .cache cache.clear
    print ((← paint .green "✓") ++ " Removed " ++ toString removed ++ " cached script(s) from " ++
      (← paint .cyan cache.directory) ++ "\n")
  | _ => throw (.badArguments cacheName)

end Command
end VisualNovel
