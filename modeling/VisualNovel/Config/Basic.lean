import VisualNovel.Cursor.Basic
import VisualNovel.Grammar.Basic
import VisualNovel.Setting

/-!
This module contains configurations, as they are written in a file of settings.
-/

namespace VisualNovel

structure Config where
  scripts : String := "scenario"
  firstScript : String := "start.pon"
  grammar : Grammar := .line
  maxDepth : Nat := Cursor.defaultMaxDepth
  cached : Bool := true
  /-- The directory of the cache, if it is not the usual one. -/
  cache : Option String := none
  systemFile : String := "system.json"
  deriving DecidableEq, Repr

namespace Config

/--
The name of a configuration file.
-/
def fileName : String := "novelscript.toml"

def grammar? (format : Setting.Format) (setting : Setting) : Option Grammar :=
  match setting.choice? format with
  | some "line" => some .line
  | some "bracket" => some .bracket
  | _ => none

def readEngine (format : Setting.Format) (c : Config) (setting : Setting) : Option Config := do
  match ← setting.fields? format ["scripts_dir", "first_script", "grammar", "max_macro_depth"] with
  | [scripts, firstScript, grammar, maxDepth] =>
    return { c with
      scripts := ← Setting.orDefault c.scripts Setting.text? scripts
      firstScript := ← Setting.orDefault c.firstScript Setting.text? firstScript
      grammar := ← Setting.orDefault c.grammar (grammar? format) grammar
      maxDepth := ← Setting.orDefault c.maxDepth Setting.nat? maxDepth }
  | _ => none

def readCache (format : Setting.Format) (c : Config) (setting : Setting) : Option Config := do
  match ← setting.fields? format ["enabled", "dir"] with
  | [cached, cache] =>
    return { c with
      cached := ← Setting.orDefault c.cached Setting.flag? cached
      cache := ← Setting.orDefault c.cache Setting.optionalText? cache }
  | _ => none

def readStorage (format : Setting.Format) (c : Config) (setting : Setting) : Option Config := do
  match ← setting.fields? format ["system_file"] with
  | [systemFile] =>
    return { c with systemFile := ← Setting.orDefault c.systemFile Setting.text? systemFile }
  | _ => none

/--
The configuration that settings describe. Whatever is left out has its default.
-/
def ofSetting? (format : Setting.Format) (setting : Setting) : Option Config := do
  match ← setting.fields? format ["engine", "cache", "storage"] with
  | [engine, cache, storage] =>
    let c : Config := {}
    let c ← Setting.orDefault c (readEngine format c) engine
    let c ← Setting.orDefault c (readCache format c) cache
    Setting.orDefault c (readStorage format c) storage
  | _ => none

def ofJson? (json : Json) : Option Config := do
  ofSetting? .json (← Setting.ofJson? json)

/--
The configuration with all that it may leave out.
-/
def toValue (c : Config) : Value :=
  .object [
    ("cache", .object [("dir", (c.cache.map Value.string).getD .null), ("enabled", .bool c.cached)]),
    ("engine", .object [
      ("first_script", .string c.firstScript),
      ("grammar", .string c.grammar.name),
      ("max_macro_depth", .ofNat c.maxDepth),
      ("scripts_dir", .string c.scripts)
    ]),
    ("storage", .object [("system_file", .string c.systemFile)])
  ]

end Config
end VisualNovel
