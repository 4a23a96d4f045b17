import VisualNovel.Config.Basic
import VisualNovel.Config.Expand
import VisualNovel.Disk.Access
import VisualNovel.Library.Basic
import VisualNovel.Toml.Reader

/-!
This module contains projects: configurations whose paths have been worked out. Relative paths start from the
directory of the configuration file.
-/

namespace VisualNovel

inductive ConfigError where
  | io (path : String) (fault : DiskFault)
  | malformed (path : String)
  | notSet (template variableName : String)
  | noDepth
  deriving DecidableEq, Repr

def ConfigError.message : ConfigError → String
  | .io path fault => "I/O error while reading '" ++ path ++ "': " ++ fault.message
  | .malformed path => "Invalid configuration in '" ++ path ++ "': not a configuration"
  | .notSet template variableName =>
    "Failed to expand path '" ++ template ++ "': error looking key '" ++ variableName ++
      "' up: environment variable not found"
  | .noDepth => "'max_macro_depth' must be at least 1"

structure Project where
  scripts : String
  firstScript : String
  grammar : Grammar
  maxDepth : Nat
  cache : Option Cache
  systemFile : String

namespace Project

/--
The path that a template stands for, from a directory on.
-/
def expandPath (env : Environment) (base template : String) : Except ConfigError String :=
  match Template.expand env template with
  | .ok path => .ok (Path.join base path)
  | .error name => .error (.notSet template name)

def defaultCache (env : Environment) (base : String) : String :=
  match env.cacheHome? with
  | some directory => Path.join directory "novelscript"
  | none => Path.join base ".novelscript-cache"

/--
Works out the paths of a configuration in a directory.
-/
def resolve (env : Environment) (disk : Disk) (c : Config) (base : String)
    : Except ConfigError Project := do
  if c.maxDepth = 0 then
    throw .noDepth
  let base := (disk.absolute? base).getD base
  let scripts ← expandPath env base c.scripts
  let systemFile ← expandPath env base c.systemFile
  let cache ←
    if c.cached then
      match c.cache with
      | some template => some <$> expandPath env base template
      | none => pure (some (defaultCache env base))
    else
      pure none
  return {
    scripts
    firstScript := c.firstScript
    grammar := c.grammar
    maxDepth := c.maxDepth
    cache := cache.map fun directory => { directory }
    systemFile
  }

/--
The nearest configuration file in a directory and the directories around it.
-/
def find? (disk : Disk) (directory : String) : Option String :=
  ((Path.ancestors directory).map (Path.join · Config.fileName)).find? disk.isFile

/--
The project of a configuration file. If there is no such file, everything has its default.
-/
def load (env : Environment) (disk : Disk) (path : String) : Except ConfigError Project := do
  let base := ((Path.parent? path).filter (· != "")).getD "."
  let config ←
    match disk.readText path with
    | .ok text =>
      match (Toml.read? text).bind (Config.ofSetting? .toml) with
      | some config => pure config
      | none => throw (.malformed path)
    | .error .notFound => pure {}
    | .error fault => throw (.io path fault)
  resolve env disk config base

/--
The library of a project.
-/
def library (p : Project) (disk : Disk) : Library :=
  { directory := p.scripts, grammar := p.grammar, maxDepth := p.maxDepth, cache := p.cache, disk }

end Project
end VisualNovel
